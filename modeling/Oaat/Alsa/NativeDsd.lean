/-
Oaat.Alsa.NativeDsd — DSD to a device that takes 32-bit words.

`wireBits` and `deviceBits` say what a payload and the bytes for the device mean:
the bits of each channel in time order. Words of `DSD_U32LE` have their bytes
swapped, bytes of `DSD_U8` are reversed and put into words; both are the wire's
bits again. Words of `DSD_U16LE` go to the device untouched, at a rate that
belongs to neither their width nor their bits.
-/
import Oaat.Alsa.OpenFlag
import Oaat.Lib.BitStream

namespace Oaat.Alsa

open Oaat.Core Oaat.Endpoint Oaat.Lib

/-! ## What the bytes mean -/

/-- Bits of a little-endian word, oldest in the most significant position. -/
def leWordBits (word : List UInt8) : List Bool := word.reverse.flatMap msbFirst

/-- The bits of channel `c` of `ch` on the wire. -/
def wireBits (format : AudioFormat) (ch c : Nat) (payload : List UInt8) : List Bool :=
  match format with
  | .dsdU8 => (lane ch c payload).flatMap lsbFirst
  | .dsdU16le => (lane ch c (frames 2 payload)).flatMap leWordBits
  | _ => (lane ch c (frames 4 payload)).flatMap leWordBits

/-- The bits per second of a channel on the wire. -/
def wireBitRate (format : AudioFormat) (sampleRate : UInt32) : Nat :=
  match format with
  | .dsdU8 => sampleRate.toNat
  | .dsdU16le => 16 * sampleRate.toNat
  | _ => 32 * sampleRate.toNat

/-- The bits of channel `c` of `ch` in `DSD_U32_BE`. -/
def deviceBits (ch c : Nat) (bytes : List UInt8) : List Bool :=
  (lane ch c (frames 4 bytes)).flatMap fun word => word.flatMap msbFirst

section

variable {ch c : Nat}

theorem deviceBits_nil (hch : 0 < ch) : deviceBits ch c [] = [] := by
  rw [deviceBits, frames_of_lt (by decide), lane_nil hch, List.flatMap_nil]

/-- Device frame by device frame. -/
theorem deviceBits_append (hch : 0 < ch) {a : List UInt8} (ha : 4 * ch ∣ a.length)
    (b : List UInt8) : deviceBits ch c (a ++ b) = deviceBits ch c a ++ deviceBits ch c b := by
  have hwords : ch ∣ (frames 4 a).length := by
    rw [length_frames]
    exact Nat.dvd_div_of_mul_dvd ha
  rw [deviceBits, frames_append (by decide) b (Nat.dvd_trans (Nat.dvd_mul_right 4 ch) ha),
    lane_append hch hwords, List.flatMap_append]
  rfl

/-! ## DSD_U8 -/

theorem msbFirst_reverseBits (b : UInt8) : msbFirst (reverseBits b) = lsbFirst b := by
  have hall : ∀ n : Fin 256, msbFirst (reverseBits (UInt8.ofFin n)) = lsbFirst (UInt8.ofFin n) := by
    decide +kernel
  exact hall b.toFin

/-- The word of channel `c` in a block of four bytes a channel. -/
def packedWord (ch : Nat) (block : List UInt8) (c : Nat) : List UInt8 :=
  [c, c + ch, c + 2 * ch, c + 3 * ch].map fun i => reverseBits (block.getD i 0)

theorem packDsdU8ToU32Be_eq {channels : UInt8} (hch : 1 ≤ channels.toNat) (data : List UInt8) :
    packDsdU8ToU32Be data channels = (frames (4 * channels.toNat) data).flatMap fun block =>
      (List.range channels.toNat).flatMap (packedWord channels.toNat block) := by
  simp only [packDsdU8ToU32Be, Nat.max_eq_left hch]
  rfl

/-- A block has the bits of its bytes, channel by channel. -/
theorem deviceBits_block (hc : c < ch) {block : List UInt8} (hblock : block.length = 4 * ch) :
    deviceBits ch c ((List.range ch).flatMap (packedWord ch block)) =
      (lane ch c block).flatMap lsbFirst := by
  have hone : ((List.range ch).map (packedWord ch block)).length = 1 * ch := by simp
  have hat : ((List.range ch).map (packedWord ch block)).getD (0 * ch + c) [] =
      packedWord ch block c := by
    simp [List.getD_eq_getElem?_getD, hc]
  have hword : lane ch c ((List.range ch).map (packedWord ch block)) = [packedWord ch block c] := by
    rw [lane_eq_map hc [] hone, List.range_one, List.map_singleton, hat]
  have hlane : lane ch c block =
      [block.getD c 0, block.getD (c + ch) 0, block.getD (c + 2 * ch) 0,
        block.getD (c + 3 * ch) 0] := by
    rw [lane_eq_map hc 0 hblock]
    simp [List.range_succ, Nat.add_comm]
  have hlength : ∀ i ∈ List.range ch, (packedWord ch block i).length = 4 := fun _ _ => rfl
  rw [deviceBits, frames_flatMap (by decide) hlength, hword, hlane]
  simp only [packedWord, List.flatMap_cons, List.flatMap_nil, List.map_cons, List.map_nil,
    msbFirst_reverseBits, List.append_nil]

theorem deviceBits_packDsdU8 {channels : UInt8} (hch : 1 ≤ channels.toNat)
    (hc : c < channels.toNat) {payload : List UInt8}
    (hlen : 4 * channels.toNat ∣ payload.length) :
    deviceBits channels.toNat c (packDsdU8ToU32Be payload channels) =
      (lane channels.toNat c payload).flatMap lsbFirst := by
  rw [packDsdU8ToU32Be_eq hch]
  refine frames_induction (k := 4 * channels.toNat) (P := fun p => deviceBits channels.toNat c
      ((frames (4 * channels.toNat) p).flatMap fun block =>
        (List.range channels.toNat).flatMap (packedWord channels.toNat block)) =
    (lane channels.toNat c p).flatMap lsbFirst) ?_ ?_ hlen
  · rw [frames_of_lt (by simp; omega), List.flatMap_nil, deviceBits_nil hch, lane_nil hch,
      List.flatMap_nil]
  · intro block rest hblock ih
    have hpacked : 4 * channels.toNat ∣
        ((List.range channels.toNat).flatMap (packedWord channels.toNat block)).length := by
      simp [packedWord, Nat.mul_comm]
    have hdvd : channels.toNat ∣ block.length := hblock ▸ Nat.dvd_mul_left _ 4
    rw [frames_cons_append (by omega) hblock, List.flatMap_cons, deviceBits_append hch hpacked,
      deviceBits_block hc hblock, ih, lane_append hch hdvd, List.flatMap_append]

/-! ## DSD_U32LE -/

theorem deviceBits_dsdU32leToBe (hch : 0 < ch) {payload : List UInt8}
    (hlen : 4 * ch ∣ payload.length) :
    deviceBits ch c (dsdU32leToBe payload) =
      (lane ch c (frames 4 payload)).flatMap leWordBits := by
  have hwords : ch ∣ (frames 4 payload).length := by
    rw [length_frames]
    exact Nat.dvd_div_of_mul_dvd hlen
  have hlength : ∀ word ∈ frames 4 payload, word.reverse.length = 4 := by
    intro word hword
    rw [List.length_reverse, length_of_mem_frames hword]
  rw [deviceBits, dsdU32leToBe, frames_flatMap (by decide) hlength, lane_map hch _ hwords,
    List.flatMap_map]
  rfl

/-! ## DSD_U16LE -/

/-- A payload whose first byte is not its second. -/
def firstBitSet (ch : Nat) : List UInt8 := [1, 0, 0, 0] ++ List.replicate (4 * ch - 4) 0

theorem length_firstBitSet (hch : 0 < ch) : (firstBitSet ch).length = 4 * ch := by
  simp [firstBitSet]
  omega

/-- Untouched, its first eight bits are another byte's. -/
theorem deviceBits_firstBitSet (hch : 0 < ch) :
    deviceBits ch 0 (firstBitSet ch) ≠ wireBits .dsdU16le ch 0 (firstBitSet ch) := by
  have hlen := length_firstBitSet hch
  have hdevice : ∃ rest, deviceBits ch 0 (firstBitSet ch) = msbFirst 1 ++ rest := by
    have hwords : frames 4 (firstBitSet ch) =
        [1, 0, 0, 0] :: frames 4 (List.replicate (4 * ch - 4) 0) :=
      frames_cons_append (f := [1, 0, 0, 0]) (by decide) rfl _
    have hlength : (frames 4 (firstBitSet ch)).length = ch := by
      rw [length_frames, hlen, Nat.mul_div_cancel_left ch (by decide)]
    rw [hwords, List.length_cons] at hlength
    obtain ⟨rest, hrest⟩ := lane_zero_head hch [1, 0, 0, 0]
      (frames 4 (List.replicate (4 * ch - 4) (0 : UInt8))) hlength.ge
    rw [deviceBits, hwords, hrest, List.flatMap_cons, List.flatMap_cons, List.append_assoc]
    exact ⟨_, rfl⟩
  have hwire : ∃ rest, wireBits .dsdU16le ch 0 (firstBitSet ch) = msbFirst 0 ++ rest := by
    have hwords : frames 2 (firstBitSet ch) =
        [1, 0] :: frames 2 ([0, 0] ++ List.replicate (4 * ch - 4) 0) :=
      frames_cons_append (f := [1, 0]) (by decide) rfl _
    have hlength : (frames 2 (firstBitSet ch)).length = 2 * ch := by
      rw [length_frames, hlen]
      omega
    rw [hwords, List.length_cons] at hlength
    obtain ⟨rest, hrest⟩ := lane_zero_head hch [1, 0]
      (frames 2 ([0, 0] ++ List.replicate (4 * ch - 4) (0 : UInt8))) (by omega)
    rw [wireBits, hwords, hrest, List.flatMap_cons]
    exact ⟨_, rfl⟩
  obtain ⟨rest, hdevice⟩ := hdevice
  obtain ⟨rest', hwire⟩ := hwire
  rw [hdevice, hwire]
  intro heq
  exact absurd (List.append_inj heq rfl).1 (by decide)

end

/-! ## What is queued -/

section

variable {conv : Conversions} {s s' : Endpoint.Alsa} {payload : List UInt8} {log : List AlsaEvent}

/-- A write leaves the queue of a writer alone, or adds the converted payload. -/
theorem writeAudio_queue {id : Nat} {t t' : WriterThread}
    (hok : s.writeAudio conv payload = .ok (s', log)) (hget : s.threads[id]? = some t)
    (hget' : s'.threads[id]? = some t') :
    t'.queue = t.queue ∨ t'.queue = t.queue ++ [(s.output.deviceBytes conv payload).2.1] := by
  obtain ⟨flacStream, rfl | ⟨i, u, -, hu, rfl⟩⟩ := writeAudio_inv hok
  · rw [hget] at hget'
    cases hget'
    exact .inl rfl
  · dsimp only at hget'
    by_cases hid : i = id
    · subst hid
      obtain rfl : u = t := Option.some.inj (hu.symm.trans hget)
      rw [List.getElem?_set_self (List.getElem?_eq_some_iff.mp hu).1] at hget'
      cases hget'
      exact .inr rfl
    · rw [List.getElem?_set_ne hid, hget] at hget'
      cases hget'
      exact .inl rfl

/-- The device plays the bits of the wire, as fast as they come. -/
structure KeepsBits (conv : Conversions) (format : AudioFormat) (channels : UInt8)
    (sampleRate : UInt32) : Prop where
  /-- Whatever a write queues has the bits of its payload, channel by channel. -/
  bits : ∀ (s s' : Endpoint.Alsa) (log : List AlsaEvent) (payload : List UInt8) (id : Nat)
    (t t' : WriterThread), s.output.format = format → s.output.channels = channels →
    4 * channels.toNat ∣ payload.length → s.writeAudio conv payload = .ok (s', log) →
    s.threads[id]? = some t → s'.threads[id]? = some t' → t'.queue ≠ t.queue →
    ∃ bytes, t'.queue = t.queue ++ [bytes] ∧ ∀ c < channels.toNat,
      deviceBits channels.toNat c bytes = wireBits format channels.toNat c payload
  /-- The device frames have 32 bits of each channel. -/
  rate : ∃ rate, alsaFormatAndRate format sampleRate = some (.dsdU32Be, rate) ∧
    rate.toNat * 32 = wireBitRate format sampleRate

/-- An output in the middle of playback. -/
def playing (format : AudioFormat) (channels : UInt8) : Endpoint.Alsa :=
  { Endpoint.Alsa.new with
    output := { AlsaDirectOutput.new with writer := some 0, playing := true, format, channels }
    threads := [.spawn { device := "hw:0,0", format := .dsdU32Be, rate := 88200, channels } 0] }

/-- Words of 16 bits are queued as they are. -/
theorem not_keepsBits_dsdU16le {channels : UInt8} (hch : 1 ≤ channels.toNat)
    (sampleRate : UInt32) : ¬ KeepsBits conv .dsdU16le channels sampleRate := by
  intro h
  have hwrite : (playing .dsdU16le channels).writeAudio conv (firstBitSet channels.toNat) =
      .ok ({ playing .dsdU16le channels with
        threads := [(WriterThread.spawn
          { device := "hw:0,0", format := .dsdU32Be, rate := 88200, channels } 0).send
            (firstBitSet channels.toNat)] },
        [.enqueued ((firstBitSet channels.toNat).length / bytesPerFrame .dsdU16le channels)]) :=
    rfl
  obtain ⟨bytes, hqueue, hbits⟩ := h.bits _ _ _ _ 0 _ _ rfl rfl
    (length_firstBitSet hch ▸ Nat.dvd_refl _) hwrite rfl rfl (by simp [WriterThread.send])
  cases hqueue
  exact deviceBits_firstBitSet hch (hbits 0 hch)

/-- It is enough that the conversion keeps the bits. -/
theorem queued_bits {format : AudioFormat} {channels : UInt8}
    (hbits : ∀ (o : AlsaDirectOutput) (payload : List UInt8) (c : Nat), o.format = format →
      o.channels = channels → 4 * channels.toNat ∣ payload.length → c < channels.toNat →
      deviceBits channels.toNat c (o.deviceBytes conv payload).2.1 =
        wireBits format channels.toNat c payload) {id : Nat} {t t' : WriterThread}
    (hformat : s.output.format = format) (hchannels : s.output.channels = channels)
    (hlen : 4 * channels.toNat ∣ payload.length) (hok : s.writeAudio conv payload = .ok (s', log))
    (hget : s.threads[id]? = some t) (hget' : s'.threads[id]? = some t')
    (hne : t'.queue ≠ t.queue) :
    ∃ bytes, t'.queue = t.queue ++ [bytes] ∧ ∀ c < channels.toNat,
      deviceBits channels.toNat c bytes = wireBits format channels.toNat c payload :=
  ⟨_, (writeAudio_queue hok hget hget').resolve_left hne,
    fun c hc => hbits s.output payload c hformat hchannels hlen hc⟩

theorem keepsBits_dsdU32le {channels : UInt8} (hch : 1 ≤ channels.toNat) (sampleRate : UInt32) :
    KeepsBits conv .dsdU32le channels sampleRate := by
  have hbits : ∀ (o : AlsaDirectOutput) (payload : List UInt8) (c : Nat),
      o.format = .dsdU32le → o.channels = channels → 4 * channels.toNat ∣ payload.length →
      c < channels.toNat → deviceBits channels.toNat c (o.deviceBytes conv payload).2.1 =
        wireBits .dsdU32le channels.toNat c payload := by
    intro o payload c hformat hchannels hlen hc
    have hbytes : (o.deviceBytes conv payload).2.1 = dsdU32leToBe payload := by
      simp [AlsaDirectOutput.deviceBytes, hformat]
    rw [hbytes, deviceBits_dsdU32leToBe hch hlen]
    rfl
  exact ⟨fun _ _ _ _ _ _ _ => queued_bits hbits, sampleRate, rfl, Nat.mul_comm _ _⟩

theorem keepsBits_dsdU8_iff {channels : UInt8} (hch : 1 ≤ channels.toNat) (sampleRate : UInt32) :
    KeepsBits conv .dsdU8 channels sampleRate ↔ 32 ∣ sampleRate.toNat := by
  have hbits : ∀ (o : AlsaDirectOutput) (payload : List UInt8) (c : Nat),
      o.format = .dsdU8 → o.channels = channels → 4 * channels.toNat ∣ payload.length →
      c < channels.toNat → deviceBits channels.toNat c (o.deviceBytes conv payload).2.1 =
        wireBits .dsdU8 channels.toNat c payload := by
    intro o payload c hformat hchannels hlen hc
    have hbytes : (o.deviceBytes conv payload).2.1 = packDsdU8ToU32Be payload channels := by
      simp [AlsaDirectOutput.deviceBytes, hformat, hchannels]
    rw [hbytes, deviceBits_packDsdU8 hch hc hlen]
    rfl
  have hdiv : (sampleRate / 32).toNat = sampleRate.toNat / 32 := by simp
  constructor
  · intro h
    obtain ⟨rate, hrate, hwire⟩ := h.rate
    cases hrate
    rw [hdiv] at hwire
    exact ⟨sampleRate.toNat / 32, (Nat.mul_comm _ _).trans hwire |>.symm⟩
  · intro hdvd
    refine ⟨fun _ _ _ _ _ _ _ => queued_bits hbits, sampleRate / 32, rfl, ?_⟩
    rw [hdiv]
    exact Nat.div_mul_cancel hdvd

/-- **Native DSD.** For every DSD format, channel count and sample rate, the device
plays the bits of the wire at their rate if and only if the words have 32 bits, or
they are bytes and the bit rate is a multiple of 32. -/
theorem keepsBits_iff {format : AudioFormat} {channels : UInt8} (hdsd : format.isDsd = true)
    (hch : 1 ≤ channels.toNat) (sampleRate : UInt32) :
    KeepsBits conv format channels sampleRate ↔
      format = .dsdU32le ∨ (format = .dsdU8 ∧ 32 ∣ sampleRate.toNat) := by
  cases format with
  | dsdU8 => simp [keepsBits_dsdU8_iff hch]
  | dsdU16le => simp [not_keepsBits_dsdU16le hch]
  | dsdU32le => simp [keepsBits_dsdU32le hch]
  | _ => cases hdsd

end

/-- DSD64 in stereo, as bytes. -/
theorem keepsBits_iff_dsd64 : KeepsBits plainConversions .dsdU8 2 2822400 :=
  (keepsBits_iff rfl (by decide) 2822400).mpr (.inr ⟨rfl, by decide⟩)

/-- DSD64 in stereo, as words of 16 bits: the device is opened at an eighth of the
rate, and the bytes of a word come in the wrong order. -/
theorem dsdU16le_not_kept :
    alsaFormatAndRate .dsdU16le 176400 = some (.dsdU32Be, 11025) ∧
      11025 * 32 ≠ wireBitRate .dsdU16le 176400 ∧
      ((playing .dsdU16le 2).output.deviceBytes plainConversions [1, 0, 0, 0, 0, 0, 0, 0]).2.1 =
        [1, 0, 0, 0, 0, 0, 0, 0] ∧
      deviceBits 2 0 [1, 0, 0, 0, 0, 0, 0, 0] ≠ wireBits .dsdU16le 2 0 [1, 0, 0, 0, 0, 0, 0, 0] ∧
      ¬ KeepsBits plainConversions .dsdU16le 2 176400 :=
  ⟨rfl, by decide, rfl, by decide, not_keepsBits_dsdU16le (by decide) 176400⟩

end Oaat.Alsa
