/-
Oaat.Wire.Exact — what the wire formats accept, and what they keep.

A packet format is exact when a packet survives encoding and decoding, when the
decoder accepts the buffers it should and no others, and when a buffer that it
accepts is what the packet encodes to but for the reserved bytes. Both packets
of `oaat-core/src/wire.rs` are. On top of the header's format stands the
datagram of an audio packet: the receive loop takes it up as it was sent, or,
when it is too long for the receive buffer, not at all.
-/
import Oaat.Endpoint.AudioReceive

namespace Oaat.Wire

open Oaat.Core Oaat.Controller Oaat.Endpoint Oaat.Lib

/-- A format of `size` bytes that loses nothing of a packet in `Sent`, accepts the
buffers in `Accepted`, and ignores what `blank` blanks out. -/
structure Exact {α ε : Type} (encode : α → List UInt8) (decode : List UInt8 → Except ε α)
    (size : Nat) (Sent : α → Prop) (Accepted : List UInt8 → Prop)
    (blank : List UInt8 → List UInt8) : Prop where
  decode_encode : ∀ p, Sent p → decode (encode p) = .ok p
  accepted : ∀ buf, buf.length = size → ((∃ p, decode buf = .ok p) ↔ Accepted buf)
  encode_decode : ∀ buf p, buf.length = size → decode buf = .ok p → encode p = blank buf

/-! ## Slices -/

section

variable {buf : List UInt8} {a b c : Nat}

theorem slice_append (hab : a ≤ b) (hbc : b ≤ c) :
    slice buf a b ++ slice buf b c = slice buf a c := by
  have hskip : buf.drop b = (buf.drop a).drop (b - a) := by
    rw [List.drop_drop]
    congr 1
    omega
  have hlen : c - a = (b - a) + (c - b) := by omega
  rw [slice, slice, slice, hskip, hlen, List.take_add]

theorem slice_single (h : a < buf.length) : [buf.getD a 0] = slice buf a (a + 1) := by
  have hget : buf.getD a 0 = buf[a] := by simp [h]
  rw [slice, Nat.add_sub_cancel_left, List.drop_eq_getElem_cons h, hget]
  rfl

theorem length_slice (hab : a ≤ b) (hb : b ≤ buf.length) : (slice buf a b).length = b - a := by
  rw [slice, List.length_take, List.length_drop]
  omega

/-- Writing back the number that a slice of `w` bytes denotes. -/
theorem toBe_slice {w n : Nat} (hw : b = a + w) (hb : b ≤ buf.length)
    (hn : n = ofBe (slice buf a b)) : toBe w n = slice buf a b := by
  have hlen : (slice buf a b).length = w := by
    rw [length_slice (by omega) hb]
    omega
  have hback := toBe_ofBe (slice buf a b)
  rwa [hlen, ← hn] at hback

theorem ofBe_slice_lt (hab : a ≤ b) (hb : b ≤ buf.length) :
    ofBe (slice buf a b) < 256 ^ (b - a) := by
  have hlt := ofBe_lt (slice buf a b)
  rwa [length_slice hab hb] at hlt

theorem toNat_u16_slice (hb : a + 2 ≤ buf.length) :
    (UInt16.ofNat (ofBe (slice buf a (a + 2)))).toNat = ofBe (slice buf a (a + 2)) := by
  have hlt := ofBe_slice_lt (Nat.le_add_right a 2) hb
  rw [Nat.add_sub_cancel_left] at hlt
  simpa using Nat.mod_eq_of_lt hlt

theorem toNat_u32_slice (hb : a + 4 ≤ buf.length) :
    (UInt32.ofNat (ofBe (slice buf a (a + 4)))).toNat = ofBe (slice buf a (a + 4)) := by
  have hlt := ofBe_slice_lt (Nat.le_add_right a 4) hb
  rw [Nat.add_sub_cancel_left] at hlt
  simpa using Nat.mod_eq_of_lt hlt

theorem toNat_u64_slice (hb : a + 8 ≤ buf.length) :
    (UInt64.ofNat (ofBe (slice buf a (a + 8)))).toNat = ofBe (slice buf a (a + 8)) := by
  have hlt := ofBe_slice_lt (Nat.le_add_right a 8) hb
  rw [Nat.add_sub_cancel_left] at hlt
  simpa using Nat.mod_eq_of_lt hlt

end

/-! ## The first byte -/

/-- Two nibbles, the upper of which is the version: checked byte by byte. -/
theorem packed_nibbles : ∀ i : Fin 256, let b := UInt8.ofNat i
    (b &&& 0x0F) &&& 0x0F = b &&& 0x0F ∧
      (b >>> 4 = 1 → ((1 : UInt8) <<< 4) ||| (b &&& 0x0F) = b) := by
  decide +kernel

theorem lower_nibble (b : UInt8) : (b &&& 0x0F) &&& 0x0F = b &&& 0x0F := by
  have h := packed_nibbles ⟨b.toNat, b.toNat_lt⟩
  simp only [UInt8.ofNat_toNat] at h
  exact h.1

theorem repack {b : UInt8} (h : b >>> 4 = 1) : ((1 : UInt8) <<< 4) ||| (b &&& 0x0F) = b := by
  have hboth := packed_nibbles ⟨b.toNat, b.toNat_lt⟩
  simp only [UInt8.ofNat_toNat] at hboth
  exact hboth.2 h

/-! ## Formats -/

/-- The ids of the known formats. -/
def knownFormatIds : List UInt8 :=
  [0x01, 0x02, 0x03, 0x04, 0x05, 0x10, 0x11, 0x12, 0x20, 0x21, 0x30, 0x31]

/-- The two tables of ids, against each other. -/
theorem wireIds_agree : ∀ i : Fin 256, let id := UInt8.ofNat i
    (AudioFormat.fromWireId id).all (fun f => f.wireId == id) ∧
      ((AudioFormat.fromWireId id).isSome ↔ id ∈ knownFormatIds) := by
  decide +kernel

theorem wireId_of_fromWireId {id : UInt8} {f : AudioFormat}
    (h : AudioFormat.fromWireId id = some f) : f.wireId = id := by
  have hall := (wireIds_agree ⟨id.toNat, id.toNat_lt⟩).1
  simp only [UInt8.ofNat_toNat, h] at hall
  exact eq_of_beq hall

theorem fromWireId_isSome_iff (id : UInt8) :
    (∃ f, AudioFormat.fromWireId id = some f) ↔ id ∈ knownFormatIds := by
  have hboth := (wireIds_agree ⟨id.toNat, id.toNat_lt⟩).2
  simp only [UInt8.ofNat_toNat] at hboth
  rw [← hboth, Option.isSome_iff_exists]

/-! ## The audio header -/

/-- Version 1, and a known format. -/
def HeaderAccepted (buf : List UInt8) : Prop :=
  buf.getD 0 0 >>> 4 = 1 ∧ buf.getD 1 0 ∈ knownFormatIds

/-- Bytes 30 and 31 are reserved. -/
def blankHeader (buf : List UInt8) : List UInt8 := (buf.set 30 0).set 31 0

theorem blankHeader_eq {buf : List UInt8} (h : buf.length = AUDIO_HEADER_SIZE) :
    blankHeader buf = slice buf 0 30 ++ [0, 0] := by
  have hlen : buf.length = 32 := h
  refine List.ext_getElem ?_ ?_
  · simp [blankHeader, slice, hlen]
  · intro i hi _
    have hi32 : i < 32 := by simpa [blankHeader, hlen] using hi
    simp only [blankHeader, slice, List.getElem_set, List.getElem_append, List.length_take]
    grind

/-- The decoder reads every field where the encoder puts it. -/
theorem header_decode_eq_ok {buf : List UInt8} {h : AudioPacketHeader}
    (hdecode : AudioPacketHeader.decode buf = .ok h) :
    buf.getD 0 0 >>> 4 = 1 ∧ AudioFormat.fromWireId (buf.getD 1 0) = some h.format ∧
      h.version = 1 ∧ h.flags.bits = buf.getD 0 0 &&& 0x0F ∧
      h.sequence = UInt16.ofNat (ofBe (slice buf 2 4)) ∧
      h.streamId = UInt32.ofNat (ofBe (slice buf 4 8)) ∧
      h.ptsNs = UInt64.ofNat (ofBe (slice buf 8 16)) ∧
      h.sampleOffset = UInt64.ofNat (ofBe (slice buf 16 24)) ∧
      h.payloadLen = UInt16.ofNat (ofBe (slice buf 24 26)) ∧
      h.fecGroupSize = buf.getD 26 0 ∧ h.fecIndex = buf.getD 27 0 ∧
      h.fecLenXor = UInt16.ofNat (ofBe (slice buf 28 30)) := by
  unfold AudioPacketHeader.decode at hdecode
  dsimp only at hdecode
  split at hdecode
  next => cases hdecode
  next hversion =>
    have hver : buf.getD 0 0 >>> 4 = 1 := not_not.mp hversion
    rw [PacketFlags.fromBits, if_pos (lower_nibble _)] at hdecode
    dsimp only at hdecode
    split at hdecode
    next => cases hdecode
    next format hformat =>
      cases hdecode
      exact ⟨hver, hformat, hver, rfl, rfl, rfl, rfl, rfl, rfl, rfl, rfl, rfl⟩

theorem header_accepted_iff (buf : List UInt8) :
    (∃ h, AudioPacketHeader.decode buf = .ok h) ↔ HeaderAccepted buf := by
  constructor
  · rintro ⟨h, hdecode⟩
    obtain ⟨hversion, hformat, -⟩ := header_decode_eq_ok hdecode
    exact ⟨hversion, (fromWireId_isSome_iff _).mp ⟨_, hformat⟩⟩
  · rintro ⟨hversion, hid⟩
    obtain ⟨format, hformat⟩ := (fromWireId_isSome_iff _).mpr hid
    have hnibble : ¬ buf.getD 0 0 >>> 4 ≠ AudioPacketHeader.CURRENT_VERSION :=
      not_not.mpr hversion
    simp only [AudioPacketHeader.decode, hnibble, if_false, PacketFlags.fromBits,
      if_pos (lower_nibble _), hformat]
    exact ⟨_, rfl⟩

theorem header_encode_of_decode {buf : List UInt8} {h : AudioPacketHeader}
    (hlen : buf.length = AUDIO_HEADER_SIZE) (hdecode : AudioPacketHeader.decode buf = .ok h) :
    h.encode = blankHeader buf := by
  have hsize : buf.length = 32 := hlen
  obtain ⟨hnibble, hformat, hversion, hflags, hsequence, hstream, hpts, hoffset, hpayload, hgroup,
    hindex, hxor⟩ := header_decode_eq_ok hdecode
  have h0 : (h.version <<< 4) ||| h.flags.bits = buf.getD 0 0 := by
    rw [hversion, hflags]
    exact repack hnibble
  have h2 : toBe 2 h.sequence.toNat = slice buf 2 4 := by
    rw [hsequence]
    exact toBe_slice rfl (by omega) (toNat_u16_slice (by omega))
  have h4 : toBe 4 h.streamId.toNat = slice buf 4 8 := by
    rw [hstream]
    exact toBe_slice rfl (by omega) (toNat_u32_slice (by omega))
  have h8 : toBe 8 h.ptsNs.toNat = slice buf 8 16 := by
    rw [hpts]
    exact toBe_slice rfl (by omega) (toNat_u64_slice (by omega))
  have h16 : toBe 8 h.sampleOffset.toNat = slice buf 16 24 := by
    rw [hoffset]
    exact toBe_slice rfl (by omega) (toNat_u64_slice (by omega))
  have h24 : toBe 2 h.payloadLen.toNat = slice buf 24 26 := by
    rw [hpayload]
    exact toBe_slice rfl (by omega) (toNat_u16_slice (by omega))
  have h28 : toBe 2 h.fecLenXor.toNat = slice buf 28 30 := by
    rw [hxor]
    exact toBe_slice rfl (by omega) (toNat_u16_slice (by omega))
  have hfirst : [buf.getD 0 0, buf.getD 1 0] = slice buf 0 2 := by
    rw [← slice_append (Nat.zero_le 1) (by omega), ← slice_single (a := 0) (by omega),
      ← slice_single (a := 1) (by omega)]
    rfl
  have hfec : [buf.getD 26 0, buf.getD 27 0] = slice buf 26 28 := by
    rw [← slice_append (b := 27) (by omega) (by omega), ← slice_single (a := 26) (by omega),
      ← slice_single (a := 27) (by omega)]
    rfl
  have hjoin : ∀ {b c}, 0 ≤ b → b ≤ c → slice buf 0 b ++ slice buf b c = slice buf 0 c :=
    fun hb hc => slice_append hb hc
  rw [AudioPacketHeader.encode, h0, wireId_of_fromWireId hformat, h2, h4, h8, h16, h24, hgroup,
    hindex, h28, hfirst, hfec, blankHeader_eq hlen]
  simp only [hjoin, Nat.reduceLeDiff]

theorem header_exact :
    Exact AudioPacketHeader.encode AudioPacketHeader.decode AUDIO_HEADER_SIZE
      (fun h => h.version = 1 ∧ h.flags.Declared) HeaderAccepted blankHeader where
  decode_encode h hsent := AudioPacketHeader.decode_encode h hsent.1 hsent.2
  accepted buf _ := header_accepted_iff buf
  encode_decode _ _ := header_encode_of_decode

/-! ## The clock packet -/

/-- Version 1, and a request or a response. -/
def ClockAccepted (buf : List UInt8) : Prop :=
  buf.getD 0 0 >>> 4 = 1 ∧ (buf.getD 0 0 &&& 0x0F = 0x01 ∨ buf.getD 0 0 &&& 0x0F = 0x02)

/-- Byte 1 is reserved. -/
def blankClock (buf : List UInt8) : List UInt8 := buf.set 1 0

theorem blankClock_eq {buf : List UInt8} (h : buf.length = ClockSyncPacket.SIZE) :
    blankClock buf = slice buf 0 1 ++ [0] ++ slice buf 2 28 := by
  have hlen : buf.length = 28 := h
  refine List.ext_getElem ?_ ?_
  · simp [blankClock, slice, hlen]
  · intro i hi _
    have hi28 : i < 28 := by simpa [blankClock, hlen] using hi
    simp only [blankClock, slice, List.getElem_set, List.getElem_append, List.length_take]
    grind

theorem clock_decode_eq_ok {buf : List UInt8} {p : ClockSyncPacket}
    (hdecode : ClockSyncPacket.decode buf = .ok p) :
    buf.getD 0 0 >>> 4 = 1 ∧ buf.getD 0 0 &&& 0x0F = p.kind.asU8 ∧ p.version = 1 ∧
      p.sequence = UInt16.ofNat (ofBe (slice buf 2 4)) ∧
      p.t1 = UInt64.ofNat (ofBe (slice buf 4 12)) ∧
      p.t2 = UInt64.ofNat (ofBe (slice buf 12 20)) ∧
      p.t3 = UInt64.ofNat (ofBe (slice buf 20 28)) := by
  unfold ClockSyncPacket.decode at hdecode
  dsimp only at hdecode
  split at hdecode
  next => cases hdecode
  next hversion =>
    have hver : buf.getD 0 0 >>> 4 = 1 := not_not.mp hversion
    split at hdecode
    next hrequest =>
      cases hdecode
      exact ⟨hver, hrequest, hver, rfl, rfl, rfl, rfl⟩
    next =>
      split at hdecode
      next hresponse =>
        cases hdecode
        exact ⟨hver, hresponse, hver, rfl, rfl, rfl, rfl⟩
      next => cases hdecode

theorem clock_accepted_iff (buf : List UInt8) :
    (∃ p, ClockSyncPacket.decode buf = .ok p) ↔ ClockAccepted buf := by
  constructor
  · rintro ⟨p, hdecode⟩
    obtain ⟨hversion, hkind, -⟩ := clock_decode_eq_ok hdecode
    refine ⟨hversion, ?_⟩
    rw [hkind]
    cases p.kind with
    | request => exact .inl rfl
    | response => exact .inr rfl
  · rintro ⟨hversion, hkind⟩
    have hnibble : ¬ buf.getD 0 0 >>> 4 ≠ ClockSyncPacket.CURRENT_VERSION :=
      not_not.mpr hversion
    simp only [ClockSyncPacket.decode, hnibble, if_false]
    rcases hkind with hrequest | hresponse
    · rw [if_pos hrequest]
      exact ⟨_, rfl⟩
    · rw [hresponse]
      exact ⟨_, rfl⟩

theorem clock_encode_of_decode {buf : List UInt8} {p : ClockSyncPacket}
    (hlen : buf.length = ClockSyncPacket.SIZE) (hdecode : ClockSyncPacket.decode buf = .ok p) :
    p.encode = blankClock buf := by
  have hsize : buf.length = 28 := hlen
  obtain ⟨hnibble, hkind, hversion, hsequence, h₁, h₂, h₃⟩ := clock_decode_eq_ok hdecode
  have h0 : (p.version <<< 4) ||| p.kind.asU8 = buf.getD 0 0 := by
    rw [hversion, ← hkind]
    exact repack hnibble
  have h2 : toBe 2 p.sequence.toNat = slice buf 2 4 := by
    rw [hsequence]
    exact toBe_slice rfl (by omega) (toNat_u16_slice (by omega))
  have h4 : toBe 8 p.t1.toNat = slice buf 4 12 := by
    rw [h₁]
    exact toBe_slice rfl (by omega) (toNat_u64_slice (by omega))
  have h12 : toBe 8 p.t2.toNat = slice buf 12 20 := by
    rw [h₂]
    exact toBe_slice rfl (by omega) (toNat_u64_slice (by omega))
  have h20 : toBe 8 p.t3.toNat = slice buf 20 28 := by
    rw [h₃]
    exact toBe_slice rfl (by omega) (toNat_u64_slice (by omega))
  have hfirst : [buf.getD 0 0, 0] = slice buf 0 1 ++ [0] := by
    rw [← slice_single (a := 0) (by omega)]
    rfl
  have hjoin : ∀ {a b c}, a ≤ b → b ≤ c → slice buf a b ++ slice buf b c = slice buf a c :=
    fun hab hbc => slice_append hab hbc
  rw [ClockSyncPacket.encode, h0, h2, h4, h12, h20, hfirst, blankClock_eq hlen]
  simp only [List.append_assoc, hjoin, Nat.reduceLeDiff]

theorem clock_exact :
    Exact ClockSyncPacket.encode ClockSyncPacket.decode ClockSyncPacket.SIZE
      (fun p => p.version = 1) ClockAccepted blankClock where
  decode_encode := ClockSyncPacket.decode_encode
  accepted buf _ := clock_accepted_iff buf
  encode_decode _ _ := clock_encode_of_decode

/-! ## Audio datagrams -/

/-- The longest payload of a UDP datagram with an audio header. -/
def MAX_SENT_PAYLOAD : Nat := 65475

section

variable {z : Zone} {a : AudioArgs} {p : FecPacket}

/-- What the sender builds announces its own version and length, and has no flags but
those of the call. -/
theorem sent_header (ha : a.flags.Declared) (hp : p ∈ (z.sendAudioAll a).2) :
    p.1.version = AudioPacketHeader.CURRENT_VERSION ∧ p.1.flags.Declared ∧
      p.1.payloadLen = UInt16.ofNat p.2.length := by
  rcases Zone.of_mem_sendAudioAll hp with rfl | ⟨parity, rfl⟩
  · exact ⟨rfl, ha, rfl⟩
  · exact ⟨rfl, Zone.declared_parityPacket _ _ _ _, rfl⟩

/-- A datagram that the buffer cuts is not the length that its header announces. -/
theorem audioReceive_cut {b : Build} {s : AudioLoop}
    (hversion : p.1.version = AudioPacketHeader.CURRENT_VERSION) (hflags : p.1.flags.Declared)
    (hlength : p.1.payloadLen = UInt16.ofNat p.2.length) (hfits : p.2.length ≤ MAX_SENT_PAYLOAD)
    (hlong : MAX_AUDIO_PAYLOAD < p.2.length) : audioReceive b s (datagram p) = .ok (s, []) := by
  have hhead : p.1.encode.length = AUDIO_HEADER_SIZE := AudioPacketHeader.length_encode p.1
  have hmax : p.2.length ≤ 65475 := hfits
  have hcut : 8192 < p.2.length := hlong
  have hlen : ((datagram p).take (AUDIO_HEADER_SIZE + MAX_AUDIO_PAYLOAD)).length = 8224 := by
    rw [List.length_take, datagram, List.length_append, hhead]
    show min (32 + 8192) (32 + p.2.length) = 8224
    omega
  have htake : ((datagram p).take (AUDIO_HEADER_SIZE + MAX_AUDIO_PAYLOAD)).take AUDIO_HEADER_SIZE =
      p.1.encode := by
    rw [List.take_take, Nat.min_eq_left (Nat.le_add_right _ _), datagram, ← hhead, List.take_left]
  have hpay : p.1.payloadLen.toNat = p.2.length := by
    rw [hlength]
    simpa using Nat.mod_eq_of_lt (show p.2.length < 65536 by omega)
  have hdiffer : 8224 - AUDIO_HEADER_SIZE ≠ p.2.length := by
    show 8224 - 32 ≠ p.2.length
    omega
  simp only [audioReceive, htake, hlen, AudioPacketHeader.decode_encode _ hversion hflags, hpay]
  rw [if_neg (by decide), if_pos hdiffer]

/-- What the receive loop makes of a datagram of the sender: all of it, or
nothing. -/
theorem audioReceive_sent (b : Build) (s : AudioLoop) (ha : a.flags.Declared)
    (hp : p ∈ (z.sendAudioAll a).2) (hfits : p.2.length ≤ MAX_SENT_PAYLOAD) :
    audioReceive b s (datagram p) =
      if p.2.length ≤ MAX_AUDIO_PAYLOAD then
        (feedAndFlush b s.fecRx p).map fun r =>
          ({ fecRx := r.1, linkStats := (r.1.lost, r.1.recovered) }, r.2)
      else .ok (s, []) := by
  obtain ⟨hversion, hflags, hlength⟩ := sent_header ha hp
  split
  next hle =>
    rw [audioReceive_datagram ⟨hversion, hflags, hle, hlength⟩]
    cases feedAndFlush b s.fecRx p <;> rfl
  next hlong => exact audioReceive_cut hversion hflags hlength hfits (Nat.lt_of_not_le hlong)

end

/-- **Wire packets are exact**: both packet formats, the audio header for flags that have
names, and every datagram that the sender builds with such flags, which the receive loop
takes up whole or drops. -/
theorem wire_is_exact :
    Exact AudioPacketHeader.encode AudioPacketHeader.decode AUDIO_HEADER_SIZE
      (fun h => h.version = 1 ∧ h.flags.Declared) HeaderAccepted blankHeader ∧
    Exact ClockSyncPacket.encode ClockSyncPacket.decode ClockSyncPacket.SIZE
      (fun p => p.version = 1) ClockAccepted blankClock ∧
    ∀ (b : Build) (s : AudioLoop) (z : Zone) (a : AudioArgs), a.flags.Declared →
      (z.sendAudioAll a).2.head? = some (z.dataPacket a) ∧
      ∀ p ∈ (z.sendAudioAll a).2, p.2.length ≤ MAX_SENT_PAYLOAD →
        audioReceive b s (datagram p) =
          if p.2.length ≤ MAX_AUDIO_PAYLOAD then
            (feedAndFlush b s.fecRx p).map fun r =>
              ({ fecRx := r.1, linkStats := (r.1.lost, r.1.recovered) }, r.2)
          else .ok (s, []) := by
  refine ⟨header_exact, clock_exact, ?_⟩
  intro b s z a ha
  refine ⟨?_, fun p hp hfits => audioReceive_sent b s ha hp hfits⟩
  unfold Zone.sendAudioAll
  dsimp only
  split
  next => rfl
  next =>
    split
    next => rfl
    next => rfl

/-- A payload of zeros. -/
def silence (length : Nat) : AudioArgs :=
  { streamId := 1, format := .pcmS16le, ptsNs := 0, sampleOffset := 0,
    payload := List.replicate length 0, flags := .empty }

/-- One byte more than the receive buffer has room for. -/
theorem wire_is_exact_dropped :
    audioReceive .release .new
        (datagram (({ sequence := 7, fecEncoder := none } : Zone).dataPacket (silence 8193))) =
      .ok (.new, []) := by
  have hsent := (wire_is_exact.2.2 .release .new { sequence := 7, fecEncoder := none }
    (silence 8193) rfl).2 _ (List.mem_singleton.mpr rfl)
  have hlen : (Zone.dataPacket { sequence := 7, fecEncoder := none } (silence 8193)).2.length =
      8193 := List.length_replicate
  rw [hlen] at hsent
  exact hsent (by decide)

/-- A header of version 1 whose flags have a bit without a name. -/
def undeclaredHeader : AudioPacketHeader :=
  { version := 1, flags := ⟨0x20⟩, format := .pcmS16le, sequence := 0, streamId := 1, ptsNs := 0,
    sampleOffset := 0, payloadLen := 0, fecGroupSize := 0, fecIndex := 0, fecLenXor := 0 }

/-- The bit runs into the version, which is then not the decoder's. -/
theorem undeclared_flag_changes_version :
    undeclaredHeader.version = 1 ∧
      undeclaredHeader.encode.head? = some 0x30 ∧
      AudioPacketHeader.decode undeclaredHeader.encode = .error (.versionMismatch 1 3) :=
  ⟨rfl, by decide, by decide⟩

end Oaat.Wire
