/-
Oaat.Cli.FileStreaming — from the file to the endpoint's application.

The streaming loop cuts the audio at every 360 frames. `Streamed` is its
invariant: what was sent is the front of the audio, in packets that each know
their place. A datagram has room for 360 frames of at most 181 bytes each. The
packets carry no FEC, so the endpoint's receive loop passes each one on at once,
but for those that are longer than it reads: a packet of 360 frames arrives if
and only if a frame has at most 22 bytes.
-/
import Oaat.Cli.WavFile
import Oaat.Endpoint.AudioReceive
import Mathlib.Data.List.Induction
import Mathlib.Data.Nat.ModEq

namespace Oaat.Cli

open Oaat.Core Oaat.Controller Oaat.Endpoint Oaat.Lib

/-! ## The packets -/

/-- The audio of some packets. -/
def audioIn (packets : List FecPacket) : List UInt8 := packets.flatMap (·.2)

/-- A packet without FEC that knows its place in the stream of `w`, whose first packet
has the sequence number `first`: the position and the time are those of its first
frame, and the flags say where in the stream it is. -/
structure PacketAt (fl : Floats) (startNs : UInt64) (w : Wav) (first : UInt16)
    (past : List FecPacket) (p : FecPacket) : Prop where
  version : p.1.version = AudioPacketHeader.CURRENT_VERSION
  sequence : p.1.sequence = first + UInt16.ofNat past.length
  streamId : p.1.streamId = 1
  format : p.1.format = w.format
  position : p.1.sampleOffset.toNat = (audioIn past).length / w.bytesPerSample
  time : p.1.ptsNs.toNat = startNs.toNat + (fl.elapsedNs p.1.sampleOffset w.sampleRate).toNat
  flags : p.1.flags = if p.2 = [] then PacketFlags.lastPacket
    else if past = [] then PacketFlags.firstPacket else PacketFlags.empty
  noFec : p.1.fecGroupSize = 0
  length : p.1.payloadLen = UInt16.ofNat p.2.length
  size : p.2.length =
    min (SAMPLES_PER_PACKET * w.bytesPerSample) (w.data.length - (audioIn past).length)

/-! ## The loop -/

/-- The invariant of the loop. -/
structure Streamed (fl : Floats) (startNs : UInt64) (w : Wav) (first : UInt16) (s : FileStream) :
    Prop where
  inside : s.offset ≤ w.data.length
  sent : audioIn s.sent = w.data.take s.offset
  cut : s.offset = w.data.length ∨ SAMPLES_PER_PACKET * w.bytesPerSample ∣ s.offset
  begun : s.offset = 0 → s.sent = []
  position : s.sampleOffset.toNat = s.offset / w.bytesPerSample
  numbered : s.endpoint.sequence = first + UInt16.ofNat s.sent.length
  placed : Each (PacketAt fl startNs w first) s.sent

/-- What the command needs of the file and of the time it starts at: nothing that it
divides by is zero, the timestamps of the positions in the file fit 64 bits, and a packet
fits a datagram. -/
structure Playable (fl : Floats) (startNs : UInt64) (w : Wav) : Prop where
  frame : 0 < w.bytesPerSample
  rate : w.sampleRate ≠ 0
  length : w.data.length < 2 ^ 32
  time : ∀ n : UInt64, n.toNat ≤ w.data.length / w.bytesPerSample →
    startNs.toNat + (fl.elapsedNs n w.sampleRate).toNat < 2 ^ 64
  datagram : AUDIO_HEADER_SIZE + SAMPLES_PER_PACKET * w.bytesPerSample ≤ MAX_UDP_DATAGRAM

section

variable {build : Build} {fl : Floats} {socket : UdpSocket} {startNs : UInt64} {w : Wav}
  {first : UInt16} {s : FileStream}

theorem Streamed.ptsNs_ok (build : Build) (hw : Playable fl startNs w)
    (h : Streamed fl startNs w first s) :
    ∃ pts, ptsNs build fl startNs w s.sampleOffset = .ok pts ∧
      pts.toNat = startNs.toNat + (fl.elapsedNs s.sampleOffset w.sampleRate).toNat := by
  have hin : s.sampleOffset.toNat ≤ w.data.length / w.bytesPerSample :=
    h.position ▸ Nat.div_le_div_right h.inside
  have hfits := hw.time _ hin
  refine ⟨.ofNat (startNs.toNat + (fl.elapsedNs s.sampleOffset w.sampleRate).toNat), ?_, ?_⟩
  · rw [ptsNs, Build.u64_of_fits build hfits]
    rfl
  · rw [UInt64.toNat_ofNat']
    exact Nat.mod_eq_of_lt hfits

theorem Streamed.start (fl : Floats) (startNs : UInt64) (w : Wav) (e : AudioSender) :
    Streamed fl startNs w e.sequence { offset := 0, sampleOffset := 0, endpoint := e, sent := [] }
    where
  inside := Nat.zero_le _
  sent := by simp [audioIn]
  cut := .inr (Nat.dvd_zero _)
  begun _ := rfl
  position := by simp
  numbered := by simp
  placed := each_nil _

theorem audioIn_concat (packets : List FecPacket) (p : FecPacket) :
    audioIn (packets ++ [p]) = audioIn packets ++ p.2 := by
  simp [audioIn]

/-- Before the end of the audio, the offset is a whole number of packets. -/
theorem Streamed.dvd (h : Streamed fl startNs w first s) (hin : s.offset < w.data.length) :
    SAMPLES_PER_PACKET * w.bytesPerSample ∣ s.offset := h.cut.resolve_left (by omega)

theorem Streamed.length_sent (h : Streamed fl startNs w first s) :
    (audioIn s.sent).length = s.offset := by
  rw [h.sent, List.length_take]
  exact Nat.min_eq_left h.inside

/-- Nothing was sent only at the beginning. -/
theorem Streamed.sent_eq_nil (h : Streamed fl startNs w first s) :
    s.sent = [] ↔ s.offset = 0 := by
  refine ⟨fun hnil => ?_, h.begun⟩
  rw [← h.length_sent, hnil]
  rfl

/-- What the next packet brings: some bytes, and as many as a packet takes unless they
are the last ones. -/
theorem chunk_bounds (hw : Playable fl startNs w) (hin : s.offset < w.data.length) {chunk : Nat}
    (hchunk : chunk = min (SAMPLES_PER_PACKET * w.bytesPerSample) (w.data.length - s.offset)) :
    0 < chunk ∧ s.offset + chunk ≤ w.data.length ∧
      (chunk = SAMPLES_PER_PACKET * w.bytesPerSample ∨ s.offset + chunk = w.data.length) := by
  have hpos : 0 < SAMPLES_PER_PACKET * w.bytesPerSample := Nat.mul_pos (by decide) hw.frame
  omega

/-- The position goes on by the frames of a packet. -/
theorem Streamed.advance (hw : Playable fl startNs w) (h : Streamed fl startNs w first s)
    (hin : s.offset < w.data.length) {chunk : Nat} (hend : s.offset + chunk ≤ w.data.length) :
    (s.sampleOffset + .ofNat (chunk / w.bytesPerSample)).toNat =
      (s.offset + chunk) / w.bytesPerSample := by
  have hframes : w.bytesPerSample ∣ s.offset := dvd_of_mul_left_dvd (h.dvd hin)
  have hdiv := Nat.add_div_of_dvd_right (b := chunk) hframes
  have hle := Nat.div_le_self (s.offset + chunk) w.bytesPerSample
  have hlength := hw.length
  rw [UInt64.toNat_add, UInt64.toNat_ofNat', h.position, hdiv]
  rw [hdiv] at hle
  generalize s.offset / w.bytesPerSample = before at *
  generalize chunk / w.bytesPerSample = frames at *
  omega

/-- **One pass.** -/
theorem Streamed.pass (build : Build) (hsocket : socket.Works) (hw : Playable fl startNs w)
    (h : Streamed fl startNs w first s) (hin : s.offset < w.data.length) :
    ∃ s', filePass build fl socket startNs w s = .again s' ∧ Streamed fl startNs w first s' ∧
      w.data.length - s'.offset < w.data.length - s.offset := by
  obtain ⟨pts, hpts, htime⟩ := h.ptsNs_ok build hw
  unfold filePass
  rw [if_pos hin, hpts]
  dsimp only
  obtain ⟨chunk, hchunk⟩ : ∃ chunk,
      chunk = min (SAMPLES_PER_PACKET * w.bytesPerSample) (w.data.length - s.offset) := ⟨_, rfl⟩
  obtain ⟨hpos, hend, hwhole⟩ := chunk_bounds hw hin hchunk
  rw [← hchunk]
  have hpayload : slice w.data s.offset (s.offset + chunk) = (w.data.drop s.offset).take chunk :=
    slice_add _ _ _
  have hlen : ((w.data.drop s.offset).take chunk).length = chunk := by
    rw [List.length_take, List.length_drop]
    omega
  have hne : (w.data.drop s.offset).take chunk ≠ [] := by
    rw [← List.length_pos_iff, hlen]
    exact hpos
  have hfits : AUDIO_HEADER_SIZE + ((w.data.drop s.offset).take chunk).length ≤
      MAX_UDP_DATAGRAM := by
    have hdatagram := hw.datagram
    omega
  rw [hpayload, AudioSender.sendAudio_ok hsocket s.endpoint hfits]
  dsimp only
  rw [if_neg hw.rate]
  refine ⟨_, rfl, ⟨hend, ?_, ?_, ?_, h.advance hw hin hend, ?_, ?_⟩, by dsimp only; omega⟩
  · rw [audioIn_concat, h.sent, List.take_add]
    rfl
  · rcases hwhole with hfull | hlast
    · exact .inr (Nat.dvd_add (h.dvd hin) (by rw [hfull]))
    · exact .inl hlast
  · intro hzero
    dsimp only at hzero
    omega
  · dsimp only
    rw [h.numbered, List.length_append, List.length_singleton, UInt16.ofNat_add, UInt16.add_assoc]
    rfl
  · refine each_concat.mpr ⟨h.placed, ?_⟩
    refine ⟨rfl, h.numbered, rfl, rfl, by rw [h.length_sent]; exact h.position, htime, ?_, rfl, rfl,
      ?_⟩
    · refine Eq.symm ((if_neg hne).trans ?_)
      simp only [AudioSender.packet]
      by_cases hzero : s.offset = 0
      · rw [if_pos hzero, if_pos (h.sent_eq_nil.mpr hzero)]
      · rw [if_neg hzero, if_neg (fun hnil => hzero (h.sent_eq_nil.mp hnil))]
    · rw [h.length_sent, ← hchunk]
      exact hlen

/-- **The loop ends** with all of the audio sent. -/
theorem stream_ends (build : Build) (hsocket : socket.Works) (hw : Playable fl startNs w)
    (e : AudioSender) :
    ∃ s, loop (filePass build fl socket startNs w) (w.data.length + 1)
        { offset := 0, sampleOffset := 0, endpoint := e, sent := [] } = .ok (.ok s) ∧
      Streamed fl startNs w e.sequence s ∧ s.offset = w.data.length := by
  have hpass : ∀ s, Streamed fl startNs w e.sequence s →
      (∃ s', filePass build fl socket startNs w s = .again s' ∧
        Streamed fl startNs w e.sequence s' ∧
        w.data.length - s'.offset < w.data.length - s.offset) ∨
      ∃ r, filePass build fl socket startNs w s = .stop r ∧
        ∃ t, r = .ok t ∧ Streamed fl startNs w e.sequence t ∧ t.offset = w.data.length := by
    intro s hs
    by_cases hin : s.offset < w.data.length
    · exact .inl (hs.pass build hsocket hw hin)
    · have hend := hs.inside
      exact .inr ⟨.ok s, by rw [filePass, if_neg hin], s, rfl, hs, by omega⟩
  obtain ⟨r, hloop, s, rfl, hs, hend⟩ := loop_invariant
    (fun s : FileStream => w.data.length - s.offset) hpass (w.data.length + 1) _
    (Streamed.start fl startNs w e) (by dsimp only; omega)
  exact ⟨s, hloop, hs, hend⟩

/-- The packet after the last one is empty, and is placed behind the audio. -/
theorem sendLast_spec (build : Build) (hsocket : socket.Works) (hw : Playable fl startNs w)
    (h : Streamed fl startNs w first s) (hend : s.offset = w.data.length) :
    ∃ last, sendLast build fl socket startNs w s = .ok last ∧ last.2 = [] ∧
      PacketAt fl startNs w first s.sent last := by
  obtain ⟨pts, hpts, htime⟩ := h.ptsNs_ok build hw
  refine ⟨s.endpoint.packet
      { streamId := 1, format := w.format, ptsNs := pts, sampleOffset := s.sampleOffset
        payload := [], flags := PacketFlags.lastPacket },
    ?_, rfl, rfl, h.numbered, rfl, rfl, ?_, htime, rfl, rfl, rfl, ?_⟩
  · have hfits : AUDIO_HEADER_SIZE + ([] : List UInt8).length ≤ MAX_UDP_DATAGRAM := by decide
    rw [sendLast, hpts, bind_of_ok _ rfl, AudioSender.sendAudio_ok hsocket s.endpoint hfits]
    rfl
  · rw [h.length_sent]
    exact h.position
  · rw [h.length_sent, hend, Nat.sub_self, Nat.min_zero]
    rfl

/-- **The packets of the command**: all of the audio, in packets that know their place,
and the empty packet that ends it. -/
theorem streamFile_spec (build : Build) (hsocket : socket.Works) (hw : Playable fl startNs w)
    (e : AudioSender) :
    ∃ packets, streamFile build fl socket startNs e w = .ok (.ok packets) ∧
      audioIn packets = w.data ∧ Each (PacketAt fl startNs w e.sequence) packets := by
  obtain ⟨s, hloop, hs, hend⟩ := stream_ends build hsocket hw e
  obtain ⟨last, hlast, hempty, hplaced⟩ := sendLast_spec build hsocket hw hs hend
  refine ⟨s.sent ++ [last], ?_, ?_, each_concat.mpr ⟨hs.placed, hplaced⟩⟩
  · unfold streamFile
    rw [hloop]
    simp only [bind, Except.bind, hlast]
    rfl
  · rw [audioIn_concat, hempty, List.append_nil, hs.sent, hend, List.take_length]

end

/-! ## What arrives -/

/-- The receive loop reads packets up to this length. -/
def fits (p : FecPacket) : Bool := p.2.length ≤ MAX_AUDIO_PAYLOAD

/-- A packet that FEC has nothing to do with, of a length that a datagram can have. -/
structure Plain (p : FecPacket) : Prop where
  version : p.1.version = AudioPacketHeader.CURRENT_VERSION
  declared : p.1.flags.Declared
  flags : FecReceiver.isParity p = false
  noFec : p.1.fecGroupSize = 0
  length : p.1.payloadLen = UInt16.ofNat p.2.length
  datagram : p.2.length < 65536

section

variable {b : Build} {s : AudioLoop} {p : FecPacket}

theorem flush_idle {r : FecReceiver} (h : r.baseSeq = none) : r.flush b = .ok (r, []) := by
  simp [FecReceiver.flush, h]

/-- A packet that fits is passed on at once. -/
theorem audioReceive_fits (hs : s.fecRx.baseSeq = none) (hp : Plain p) (hfits : fits p = true) :
    ∃ s', audioReceive b s (datagram p) = .ok (s', [p]) ∧ s'.fecRx.baseSeq = none := by
  have hle : p.2.length ≤ MAX_AUDIO_PAYLOAD := by simpa [fits] using hfits
  have hfeed : s.fecRx.feed b p = .ok (s.fecRx, [p]) := by
    rw [FecReceiver.feed_plain hp.flags hp.noFec, bind_of_ok _ (flush_idle hs)]
    rfl
  have hboth : feedAndFlush b s.fecRx p = .ok (s.fecRx, [p]) := by
    cases hlast : p.1.flags.contains PacketFlags.lastPacket with
    | false => exact feedAndFlush_more hlast hfeed
    | true => exact feedAndFlush_last hlast hfeed (flush_idle hs)
  rw [audioReceive_datagram ⟨hp.version, hp.declared, hle, hp.length⟩, bind_of_ok _ hboth]
  exact ⟨_, rfl, hs⟩

/-- A longer one is cut, and then is not as long as it says. -/
theorem audioReceive_long (hp : Plain p) (hlong : fits p = false) :
    audioReceive b s (datagram p) = .ok (s, []) := by
  have hlt : MAX_AUDIO_PAYLOAD < p.2.length := by simpa [fits] using hlong
  have hudp := hp.datagram
  have hhead : p.1.encode.length = AUDIO_HEADER_SIZE := AudioPacketHeader.length_encode p.1
  have hbuf : ((datagram p).take (AUDIO_HEADER_SIZE + MAX_AUDIO_PAYLOAD)).length =
      AUDIO_HEADER_SIZE + MAX_AUDIO_PAYLOAD := by
    rw [List.length_take, datagram, List.length_append, hhead]
    omega
  have htake : ((datagram p).take (AUDIO_HEADER_SIZE + MAX_AUDIO_PAYLOAD)).take AUDIO_HEADER_SIZE =
      p.1.encode := by
    rw [List.take_take, Nat.min_eq_left (by omega), datagram, ← hhead, List.take_left]
  have hsays : p.1.payloadLen.toNat = p.2.length := by
    rw [hp.length, UInt16.toNat_ofNat']
    exact Nat.mod_eq_of_lt hudp
  simp only [audioReceive, hbuf, htake,
    AudioPacketHeader.decode_encode _ hp.version hp.declared]
  rw [if_neg (by omega), if_pos (by omega)]

/-- **Plain packets arrive as far as they fit**, each as it was sent. -/
theorem run_plain {packets : List FecPacket} (hs : s.fecRx.baseSeq = none)
    (hplain : ∀ p ∈ packets, Plain p) :
    ∃ s', run (audioReceive b) s (packets.map datagram) = .ok (s', packets.filter fits) ∧
      s'.fecRx.baseSeq = none := by
  induction packets generalizing s with
  | nil => exact ⟨s, rfl, hs⟩
  | cons p packets ih =>
    have hp := hplain p (by simp)
    have hrest : ∀ q ∈ packets, Plain q := fun q hq => hplain q (List.mem_cons_of_mem _ hq)
    cases hfits : fits p with
    | true =>
      obtain ⟨s₁, hone, hs₁⟩ := audioReceive_fits (b := b) hs hp hfits
      obtain ⟨s₂, hall, hs₂⟩ := ih hs₁ hrest
      refine ⟨s₂, ?_, hs₂⟩
      rw [List.map_cons, List.filter_cons_of_pos hfits]
      exact run_cons_ok hone hall
    | false =>
      obtain ⟨s₂, hall, hs₂⟩ := ih hs hrest
      refine ⟨s₂, ?_, hs₂⟩
      rw [List.map_cons, List.filter_cons_of_neg (by simp [hfits])]
      exact run_cons_ok (audioReceive_long hp hfits) hall

end

/-! ## The file -/

section

variable {fl : Floats} {startNs : UInt64} {w : Wav} {first : UInt16} {packets past : List FecPacket}
  {p : FecPacket}

/-- The flags of a packet that knows its place. -/
theorem PacketAt.flags_cases (h : PacketAt fl startNs w first past p) :
    p.1.flags.Declared ∧ FecReceiver.isParity p = false := by
  rw [FecReceiver.isParity, h.flags]
  split
  · decide
  · split <;> decide

theorem PacketAt.plain (hw : Playable fl startNs w) (h : PacketAt fl startNs w first past p) :
    Plain p := by
  obtain ⟨hdeclared, hdata⟩ := h.flags_cases
  have hsize := h.size
  have hdatagram : AUDIO_HEADER_SIZE + SAMPLES_PER_PACKET * w.bytesPerSample ≤ 65507 := hw.datagram
  exact ⟨h.version, hdeclared, hdata, h.noFec, h.length, by omega⟩

theorem Each.forall_plain (hw : Playable fl startNs w)
    (h : Each (PacketAt fl startNs w first) packets) : ∀ p ∈ packets, Plain p := by
  intro p hp
  obtain ⟨past, later, hsplit⟩ := List.append_of_mem hp
  exact (h past p later hsplit).plain hw

theorem length_audioIn_filter_le (packets : List FecPacket) :
    (audioIn (packets.filter fits)).length ≤ (audioIn packets).length := by
  induction packets with
  | nil => exact Nat.le_refl _
  | cons p packets ih =>
    simp only [audioIn] at ih
    rw [List.filter_cons]
    split <;> simp only [audioIn, List.flatMap_cons, List.length_append] <;> omega

/-- All packets fit exactly if the first one does. -/
theorem audioIn_filter_eq_iff (h : Each (PacketAt fl startNs w first) packets)
    (hne : packets ≠ []) :
    audioIn (packets.filter fits) = audioIn packets ↔
      SAMPLES_PER_PACKET * w.bytesPerSample ≤ MAX_AUDIO_PAYLOAD ∨
        w.data.length ≤ MAX_AUDIO_PAYLOAD := by
  constructor
  · intro hall
    by_contra hlong
    obtain ⟨p, rest, rfl⟩ := List.exists_cons_of_ne_nil hne
    have hsize := (h [] p rest rfl).size
    have hp : MAX_AUDIO_PAYLOAD < p.2.length := by
      simp only [audioIn, List.flatMap_nil, List.length_nil, Nat.sub_zero] at hsize
      omega
    -- the first packet is missing, and nothing makes up for it
    have hcut : fits p = false := by simpa [fits] using hp
    have hless := length_audioIn_filter_le rest
    rw [List.filter_cons_of_neg (by simp [hcut])] at hall
    have hlen := congrArg List.length hall
    simp only [audioIn, List.flatMap_cons, List.length_append] at hlen hless
    omega
  · intro hshort
    have hfits : ∀ p ∈ packets, fits p = true := by
      intro p hp
      obtain ⟨past, later, hsplit⟩ := List.append_of_mem hp
      have hsize := (h past p later hsplit).size
      simp only [fits, decide_eq_true_eq]
      omega
    rw [List.filter_eq_self.mpr hfits]

end

/-- Two frames of 16-bit mono at 8 kHz, between a chunk of odd length and a byte that
belongs to nothing. -/
def twoFrames : RiffFile where
  riffSize := [0, 0, 0, 0]
  tag := [1, 0]
  channels := 1
  sampleRate := 8000
  rates := [128, 62, 0, 0, 2, 0]
  bits := 16
  extra := []
  chunks := [{ id := bytes "LIST", body := [1, 2, 3], length_id := rfl, length_body := by decide }]
  declared := 4
  rest := [1, 0, 2, 0, 9]
  length_riffSize := rfl
  length_tag := rfl
  length_rates := rfl
  length_extra := by decide
  noData := by decide

/-- The quotients, rounded down and cut off at 64 bits. -/
def exactFloats : Floats where
  elapsedNs n rate := .ofNat (min (n.toNat * 1_000_000_000 / rate.toNat) (2 ^ 64 - 1))
  durationMs n rate := .ofNat (min (n * 1000 / rate.toNat) (2 ^ 64 - 1))

/-- A socket with the limit of UDP. -/
def udpSocket : UdpSocket where
  refuses bytes := if bytes.length ≤ MAX_UDP_DATAGRAM then none else some "Message too long"

theorem udpSocket_works : udpSocket.Works := fun _ hlen => if_pos hlen

end Oaat.Cli
