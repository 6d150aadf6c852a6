/-
Oaat.Cpal.Integrity — what reaches the device through the ring.

A run is any interleaving of the calls on a configured output with device
callbacks. In bytes, the ring only changes at frame boundaries (`Aligned`);
in frames, every call takes frames off its front or appends frames of the
payload, some of them left out or repeated (`Warped`). Each operation has one
spec lemma, `correct_spec`, `callback_spec` and `push_spec`; the run theorem
is an induction over them.
-/
import Oaat.Endpoint.AudioOutput
import Oaat.Lib.Run
import Mathlib.Data.Nat.ModEq

namespace Oaat.Cpal

open Oaat.Core Oaat.Endpoint Oaat.Lib

inductive Op where
  | write (data : List UInt8) (during : List Nat)
  | setCorrection (frames : Int)
  | setVolume (level : UInt8)
  | setMute (muted : Bool)
  | play
  | pause
  | callback (wanted : Nat)
  deriving Repr, DecidableEq

/-- The callbacks of the operation ask for whole frames. -/
def Op.WholeFrames (channels : UInt8) : Op → Prop
  | .write _ during => ∀ wanted ∈ during, channels.toNat ∣ wanted
  | .callback wanted => channels.toNat ∣ wanted
  | _ => True

inductive Event where
  /-- `write_audio` was offered these ring bytes and enqueued so many frames. -/
  | wrote (offered : List UInt8) (frames : Nat)
  /-- A callback filled this device buffer. -/
  | output (samples : List OutSample)
  deriving Repr, DecidableEq

def step (dec : Decoders) (o : CpalOutput) : Op → Except Panic (CpalOutput × List Event)
  | .write data during =>
    match o.writeAudio dec data during with
    | .error e => .error e
    | .ok (o', enqueued, outs) =>
      .ok (o', .wrote (o.ringBytes dec data).2 enqueued :: outs.map .output)
  | .setCorrection frames => .ok (o.setCorrection frames, [])
  | .setVolume level => .ok (o.setVolume level, [])
  | .setMute muted => .ok (o.setMute muted, [])
  | .play => .ok (o.play, [])
  | .pause => .ok (o.pause, [])
  | .callback wanted =>
    let (o, out) := o.callback wanted
    .ok (o, [.output out])

/-! ## Frames offered, frames heard -/

/-- The bytes of the non-silent samples of a device buffer. -/
def heard (out : List OutSample) : List UInt8 :=
  out.flatMap fun
    | .silence => []
    | .sample bytes _ => bytes

/-- The whole frames offered to `write_audio`, in order. -/
def offeredFrames (frameBytes : Nat) (log : List Event) : List (List UInt8) :=
  log.flatMap fun
    | .wrote offered _ => frames frameBytes offered
    | .output _ => []

/-- The frames that the device received, in order. -/
def heardFrames (frameBytes : Nat) (log : List Event) : List (List UInt8) :=
  log.flatMap fun
    | .wrote _ _ => []
    | .output out => frames frameBytes (heard out)

theorem offeredFrames_append (n : Nat) (log more : List Event) :
    offeredFrames n (log ++ more) = offeredFrames n log ++ offeredFrames n more := by
  simp [offeredFrames]

theorem heardFrames_append (n : Nat) (log more : List Event) :
    heardFrames n (log ++ more) = heardFrames n log ++ heardFrames n more := by
  simp [heardFrames]

/-- A device buffer holds whole frames from its first sample on, and then
silence: no sample is on another channel than in its frame. -/
def InFrames (bps frameBytes : Nat) (out : List OutSample) : Prop :=
  frameBytes ∣ (heard out).length ∧
    ∃ vol quiet, out =
      (frames bps (heard out)).map (fun s => .sample s vol) ++ List.replicate quiet .silence

theorem heard_replicate_silence (n : Nat) : heard (List.replicate n .silence) = [] := by
  induction n with
  | zero => rfl
  | succ n ih => simp [heard, List.replicate_succ]

/-! ## A configured output -/

/-- Bytes per sample in the ring of a format. -/
def sampleBytes (format : AudioFormat) : Nat := (RingFormat.ofFormat format).bytesPerSample

/-- Bytes per frame in the ring of a format. -/
def frameSize (format : AudioFormat) (channels : UInt8) : Nat :=
  channels.toNat * sampleBytes format

/-- The output has its stream and its configuration, and the ring holds whole
frames. -/
structure Aligned (format : AudioFormat) (channels : UInt8) (o : CpalOutput) : Prop where
  channels_eq : o.channels = channels
  format_eq : o.format = format
  ringFormat_eq : o.ringFormat = .ofFormat format
  stream : ∃ st, o.stream = some st ∧ st.bps = sampleBytes format ∧
    frameSize format channels ∣ st.ring.bytes.length

/-- The bytes in the ring. -/
def inRing (o : CpalOutput) : List UInt8 :=
  match o.stream with
  | none => []
  | some st => st.ring.bytes

/-- The size of the ring, in bytes. -/
def ringSize (o : CpalOutput) : Nat :=
  match o.stream with
  | none => 0
  | some st => st.ring.capacity

section

variable {format : AudioFormat} {channels : UInt8} {o o' : CpalOutput}

theorem sampleBytes_pos (format : AudioFormat) : 0 < sampleBytes format := by
  cases format <;> decide

theorem frameSize_pos (format : AudioFormat) (hch : 1 ≤ channels.toNat) :
    0 < frameSize format channels :=
  Nat.mul_pos hch (sampleBytes_pos format)

theorem sampleBytes_dvd_frameSize : sampleBytes format ∣ frameSize format channels :=
  Nat.dvd_mul_left _ _

theorem Aligned.frameBytes (h : Aligned format channels o) (hch : 1 ≤ channels.toNat) :
    o.frameBytes = frameSize format channels := by
  rw [CpalOutput.frameBytes, h.channels_eq, h.ringFormat_eq, Nat.max_eq_left hch]
  rfl

theorem Aligned.dvd_inRing (h : Aligned format channels o) :
    frameSize format channels ∣ (inRing o).length := by
  obtain ⟨st, hst, -, hdvd⟩ := h.stream
  simpa [inRing, hst] using hdvd

/-- A configured output is aligned, and its ring is empty. -/
theorem aligned_configure {o₀ : CpalOutput} {sampleRate : UInt32} {opening : Opening}
    (h : o₀.configure format sampleRate channels opening = (o, .ok ())) :
    Aligned format channels o ∧ inRing o = [] ∧ o.samplesPlayed = 0 ∧ o.netAdjust = 0 := by
  unfold CpalOutput.configure at h
  cases hdev : opening.device with
  | error e => simp [hdev] at h
  | ok dev =>
    obtain ⟨name, support⟩ := dev
    cases hbuild : opening.build with
    | error e => simp [hdev, hbuild] at h
    | ok u =>
      simp only [hdev, hbuild, Prod.mk.injEq, and_true] at h
      subst h
      exact ⟨⟨rfl, rfl, rfl, _, rfl, rfl, Nat.dvd_zero _⟩, rfl, rfl, rfl⟩

end

/-! ## The drift correction -/

theorem frameBytes_pos (o : CpalOutput) : 0 < o.frameBytes := by
  refine Nat.mul_pos (by omega) ?_
  cases o.ringFormat <;> decide

/-- From `c` the correction moves to `c'`: towards zero, and not past it. -/
def Toward (c c' : Int) : Prop := (0 ≤ c → 0 ≤ c' ∧ c' ≤ c) ∧ (c ≤ 0 → c ≤ c' ∧ c' ≤ 0)

theorem Toward.refl (c : Int) : Toward c c := ⟨fun h => ⟨h, le_rfl⟩, fun h => ⟨le_rfl, h⟩⟩

/-- How many of `framesIn` frames are dropped: all that is due after a jump,
else at most two, and never the whole payload. -/
def drops (pending : Int) (framesIn : Nat) : Nat :=
  if pending > JUMP_THRESHOLD_FRAMES ∧ 0 < framesIn then (min pending framesIn).toNat
  else if 0 < pending ∧ 1 < framesIn then
    (min (min pending MAX_CORRECTION_FRAMES_PER_WRITE) (framesIn - 1)).toNat
  else 0

/-- How many copies of the first of `framesIn` frames are inserted. -/
def duplicates (pending : Int) (framesIn : Nat) : Nat :=
  if pending < 0 ∧ 0 < framesIn then (min (-pending) MAX_CORRECTION_FRAMES_PER_WRITE).toNat
  else 0

theorem duplicates_of_nonneg {pending : Int} (h : 0 ≤ pending) (framesIn : Nat) :
    duplicates pending framesIn = 0 := if_neg (by omega)

/-- The correction drops `dropped` frames of the payload and inserts `inserted`
copies of its first one, and accounts for both. -/
structure Corrects (o o' : CpalOutput) (bytes : List UInt8) (rest : Option (List UInt8))
    (dropped inserted : Nat) : Prop where
  state : o' = { o with
    correction := o.correction - dropped + inserted, netAdjust := o.netAdjust + dropped - inserted }
  toward : Toward o.correction o'.correction
  dropped_le : dropped ≤ (frames o.frameBytes bytes).length
  has_first : 0 < inserted → o.frameBytes ≤ bytes.length
  rest : frames o.frameBytes (rest.getD []) =
    List.replicate inserted (bytes.take o.frameBytes) ++ (frames o.frameBytes bytes).drop dropped

theorem corrects_none (o : CpalOutput) (bytes : List UInt8) :
    Corrects o o bytes (some bytes) 0 0 := by
  refine ⟨?_, Toward.refl _, Nat.zero_le _, by simp, by simp⟩
  simp

/-- Dropping frames in front. -/
theorem corrects_drop (o : CpalOutput) (bytes : List UInt8) {n : Nat}
    (hn : (n : Int) ≤ o.correction) (hle : n ≤ bytes.length / o.frameBytes) :
    Corrects o { o with correction := o.correction - n, netAdjust := o.netAdjust + n } bytes
      (some (bytes.drop (n * o.frameBytes))) n 0 := by
  refine ⟨by simp, ⟨?_, ?_⟩, by simpa using hle, by simp, ?_⟩
  · intro _
    change 0 ≤ o.correction - n ∧ o.correction - n ≤ o.correction
    omega
  · intro hc
    change o.correction ≤ o.correction - n ∧ o.correction - n ≤ 0
    omega
  · simp only [Option.getD_some, List.replicate_zero, List.nil_append]
    exact frames_drop (frameBytes_pos o) n bytes

/-- Copies of the first frame in front. -/
theorem corrects_duplicate (o : CpalOutput) (bytes : List UInt8) {n : Nat}
    (hn : (n : Int) ≤ -o.correction) (hlen : o.frameBytes ≤ bytes.length) :
    Corrects o { o with correction := o.correction + n, netAdjust := o.netAdjust - n } bytes
      (some ((List.replicate n (bytes.take o.frameBytes)).flatten ++ bytes)) 0 n := by
  refine ⟨by simp, ⟨?_, ?_⟩, Nat.zero_le _, fun _ => hlen, ?_⟩
  · intro hc
    change 0 ≤ o.correction + n ∧ o.correction + n ≤ o.correction
    omega
  · intro _
    change o.correction ≤ o.correction + n ∧ o.correction + n ≤ 0
    omega
  · have hfirst : (bytes.take o.frameBytes).length = o.frameBytes := by
      rw [List.length_take]
      omega
    rw [Option.getD_some, List.drop_zero]
    exact frames_replicate_append (frameBytes_pos o) hfirst _ bytes

/-- **The spec of the correction.** -/
theorem correct_spec {o o' : CpalOutput} {bytes : List UInt8} {rest : Option (List UInt8)}
    (h : o.correct bytes = .ok (o', rest)) :
    Corrects o o' bytes rest (drops o.correction (bytes.length / o.frameBytes))
      (duplicates o.correction (bytes.length / o.frameBytes)) := by
  have hfb := frameBytes_pos o
  generalize hn : bytes.length / o.frameBytes = n
  unfold CpalOutput.correct at h
  simp only [hn] at h
  split at h
  · -- jump resync
    rename_i hjump
    have hpos : 0 < o.correction := lt_trans (by decide) hjump.1
    have hin : 0 < n := by omega
    obtain ⟨k, hk⟩ := Int.eq_ofNat_of_zero_le (by omega : 0 ≤ min o.correction (n : Int))
    have hdrops : drops o.correction n = k := by
      rw [drops, if_pos ⟨hjump.1, hin⟩, hk, Int.toNat_natCast]
    rw [hdrops, duplicates_of_nonneg hpos.le]
    have hcorr := corrects_drop o bytes (n := k) (by omega) (by omega)
    rw [hk] at h
    split at h
    · rename_i hall
      simp only [Except.ok.injEq, Prod.mk.injEq] at h
      obtain ⟨rfl, rfl⟩ := h
      refine ⟨hcorr.state, hcorr.toward, hcorr.dropped_le, hcorr.has_first, ?_⟩
      have hkn : k = bytes.length / o.frameBytes := by omega
      rw [Option.getD_none, frames_of_lt (by simpa using hfb),
        List.drop_of_length_le (by simp [hkn])]
      rfl
    · simp only [Except.ok.injEq, Prod.mk.injEq, Int.toNat_natCast] at h
      obtain ⟨rfl, rfl⟩ := h
      exact hcorr
  · rename_i hjump
    have hjump' : ¬ (o.correction > JUMP_THRESHOLD_FRAMES ∧ 0 < n) := by
      simpa using hjump
    split at h
    · -- fine correction, at most two frames
      rename_i hfine
      have hmax : MAX_CORRECTION_FRAMES_PER_WRITE = 2 := rfl
      obtain ⟨k, hk⟩ := Int.eq_ofNat_of_zero_le
        (by omega : 0 ≤ min (min o.correction MAX_CORRECTION_FRAMES_PER_WRITE) ((n : Int) - 1))
      have hdrops : drops o.correction n = k := by
        rw [drops, if_neg hjump', if_pos ⟨hfine.1, by omega⟩, hk, Int.toNat_natCast]
      rw [hdrops, duplicates_of_nonneg hfine.1.le]
      rw [hk, if_pos (by omega)] at h
      simp only [Except.ok.injEq, Prod.mk.injEq, Int.toNat_natCast] at h
      obtain ⟨rfl, rfl⟩ := h
      exact corrects_drop o bytes (by omega) (by omega)
    · rename_i hfine
      have hdrops : drops o.correction n = 0 := by
        rw [drops, if_neg hjump', if_neg (by omega)]
      rw [hdrops]
      split at h
      · -- duplication
        rename_i hdup
        have hin : 0 < n := hn ▸ Nat.div_pos hdup.2 hfb
        have hdups : duplicates o.correction n =
            (min (-o.correction) MAX_CORRECTION_FRAMES_PER_WRITE).toNat := if_pos ⟨hdup.1, hin⟩
        have hmax : MAX_CORRECTION_FRAMES_PER_WRITE = 2 := rfl
        split at h
        · cases h
        · rw [← hdups] at h
          have hle : (duplicates o.correction n : Int) ≤ -o.correction := by
            rw [hdups]
            omega
          simp only [Except.ok.injEq, Prod.mk.injEq] at h
          obtain ⟨rfl, rfl⟩ := h
          exact corrects_duplicate o bytes hle hdup.2
      · rename_i hdup
        have hdups : duplicates o.correction n = 0 := by
          refine if_neg ?_
          rintro ⟨hneg, hin⟩
          refine hdup ⟨hneg, ?_⟩
          by_contra hlt
          rw [← hn, Nat.div_eq_of_lt (by omega)] at hin
          exact lt_irrefl _ hin
        rw [hdups]
        simp only [Except.ok.injEq, Prod.mk.injEq] at h
        obtain ⟨rfl, rfl⟩ := h
        exact corrects_none o bytes

/-! ## Device callbacks -/

/-- A device buffer is the samples popped, then silence. -/
theorem render_eq {bps : Nat} (hbps : 0 < bps) (vol wanted : Nat) (got : List UInt8)
    (h : got.length / bps ≤ wanted) :
    CpalOutput.render bps vol wanted got =
      (frames bps got).map (fun s => .sample s vol) ++
        List.replicate (wanted - got.length / bps) .silence := by
  induction wanted generalizing got with
  | zero =>
    have hlt : got.length < bps := (Nat.div_eq_zero_iff_lt hbps).mp (Nat.le_zero.mp h)
    rw [frames_of_lt hlt, Nat.zero_sub]
    rfl
  | succ wanted ih =>
    rw [CpalOutput.render]
    by_cases hle : bps ≤ got.length
    · have hdiv : got.length / bps = (got.length - bps) / bps + 1 := by
        rw [← Nat.add_div_right _ hbps]
        congr 1
        omega
      have hdrop : (got.drop bps).length / bps = (got.length - bps) / bps := by
        rw [List.length_drop]
      rw [if_pos hle, ih (got.drop bps) (by omega), frames_of_le hbps hle, hdrop, hdiv,
        Nat.add_sub_add_right]
      rfl
    · have hzero : got.length / bps = 0 := Nat.div_eq_of_lt (by omega)
      have hnil : got.drop bps = [] := List.drop_of_length_le (by omega)
      have hlen : ([] : List UInt8).length / bps = 0 := by simp
      rw [if_neg hle, hnil, ih [] (by omega), frames_of_lt (by omega : got.length < bps),
        frames_of_lt (by simpa using hbps), hzero, hlen]
      rfl

theorem heard_append (out out' : List OutSample) :
    heard (out ++ out') = heard out ++ heard out' := by
  simp [heard]

theorem heard_samples (vol : Nat) (samples : List (List UInt8)) :
    heard (samples.map fun s => .sample s vol) = samples.flatten := by
  induction samples with
  | nil => rfl
  | cons s samples ih =>
    rw [List.flatten_cons, ← ih]
    rfl

theorem heard_render {bps : Nat} (hbps : 0 < bps) (vol wanted : Nat) {got : List UInt8}
    (h : got.length / bps ≤ wanted) (hdvd : bps ∣ got.length) :
    heard (CpalOutput.render bps vol wanted got) = got := by
  rw [render_eq hbps vol wanted got h, heard_append, heard_samples, heard_replicate_silence,
    List.append_nil, flatten_frames hbps hdvd]

/-- The callbacks take whole frames off the ring and leave the rest of the
output alone. -/
structure Consumes (format : AudioFormat) (channels : UInt8) (o o' : CpalOutput)
    (outs : List (List OutSample)) : Prop where
  aligned : Aligned format channels o'
  inFrames : ∀ out ∈ outs, InFrames (sampleBytes format) (frameSize format channels) out
  ring : inRing o = outs.flatMap heard ++ inRing o'
  ringSize_eq : ringSize o' = ringSize o
  correction_eq : o'.correction = o.correction
  netAdjust_eq : o'.netAdjust = o.netAdjust
  samplesPlayed_eq :
    o'.samplesPlayed = o.samplesPlayed + (outs.flatMap heard).length / sampleBytes format

section

variable {format : AudioFormat} {channels : UInt8} {o : CpalOutput}

theorem inFrames_silence (bps n wanted : Nat) :
    InFrames bps n (List.replicate wanted .silence) := by
  refine ⟨by simp [heard_replicate_silence], 0, wanted, ?_⟩
  rw [heard_replicate_silence]
  by_cases hbps : 0 < bps
  · rw [frames_of_lt (by simpa using hbps)]
    rfl
  · obtain rfl : bps = 0 := by omega
    simp [frames, chunk]

/-- **The spec of a callback.** -/
theorem callback_spec (h : Aligned format channels o) {wanted : Nat}
    (hw : channels.toNat ∣ wanted) :
    Consumes format channels o (o.callback wanted).1 [(o.callback wanted).2] := by
  obtain ⟨st, hst, hbps, hdvd⟩ := h.stream
  have hpos := sampleBytes_pos format
  unfold CpalOutput.callback
  simp only [hst]
  split
  · refine ⟨h, ?_, ?_, rfl, rfl, rfl, ?_⟩
    · intro out hout
      rw [List.mem_singleton.mp hout]
      exact inFrames_silence _ _ _
    · simp [heard_replicate_silence]
    · simp [heard_replicate_silence]
  · -- both ends of the cut are whole frames
    have hwant : frameSize format channels ∣ wanted * st.bps := by
      rw [hbps]
      exact Nat.mul_dvd_mul_right hw _
    have htake : frameSize format channels ∣ (st.ring.bytes.take (wanted * st.bps)).length := by
      rw [List.length_take]
      rcases Nat.le_total (wanted * st.bps) st.ring.bytes.length with hle | hle
      · rwa [Nat.min_eq_left hle]
      · rwa [Nat.min_eq_right hle]
    have hdrop : frameSize format channels ∣ (st.ring.bytes.drop (wanted * st.bps)).length := by
      rw [List.length_drop]
      exact Nat.dvd_sub hdvd hwant
    have hfew : (st.ring.bytes.take (wanted * st.bps)).length / st.bps ≤ wanted := by
      refine Nat.div_le_of_le_mul ?_
      rw [List.length_take, Nat.mul_comm st.bps]
      exact Nat.min_le_left _ _
    have hsamples : st.bps ∣ (st.ring.bytes.take (wanted * st.bps)).length :=
      Nat.dvd_trans (hbps ▸ sampleBytes_dvd_frameSize) htake
    have hheard := heard_render (hbps ▸ hpos) o.volume wanted hfew hsamples
    refine ⟨⟨h.channels_eq, h.format_eq, h.ringFormat_eq, _, rfl, hbps, hdrop⟩, ?_, ?_, ?_,
      rfl, rfl, ?_⟩
    · intro out hout
      rw [List.mem_singleton.mp hout]
      refine ⟨?_, o.volume, wanted - (st.ring.bytes.take (wanted * st.bps)).length / st.bps, ?_⟩
      · simpa only [Ring.popSlice, hheard] using htake
      · simp only [Ring.popSlice, hheard]
        rw [← hbps]
        exact render_eq (hbps ▸ hpos) _ _ _ hfew
    · simp only [Ring.popSlice, List.flatMap_cons, List.flatMap_nil, List.append_nil, hheard,
        inRing, hst, List.take_append_drop]
    · simp only [ringSize, hst, Ring.popSlice]
    · simp only [Ring.popSlice, List.flatMap_cons, List.flatMap_nil, List.append_nil, hheard]
      rw [hbps]

theorem callbacks_spec (h : Aligned format channels o) {during : List Nat}
    (hw : ∀ wanted ∈ during, channels.toNat ∣ wanted) :
    Consumes format channels o (o.callbacks during).1 (o.callbacks during).2 := by
  induction during generalizing o with
  | nil =>
    refine ⟨h, ?_, rfl, rfl, rfl, rfl, ?_⟩
    · simp [CpalOutput.callbacks]
    · simp [CpalOutput.callbacks]
  | cons wanted during ih =>
    have hone := callback_spec h (hw wanted (by simp))
    have hrest := ih hone.aligned (fun w hmem => hw w (List.mem_cons_of_mem _ hmem))
    simp only [CpalOutput.callbacks]
    refine ⟨hrest.aligned, ?_, ?_, ?_, ?_, ?_, ?_⟩
    · intro out hout
      rcases List.mem_cons.mp hout with rfl | hout
      · exact hone.inFrames _ (by simp)
      · exact hrest.inFrames out hout
    · rw [hone.ring, hrest.ring]
      simp
    · rw [hrest.ringSize_eq, hone.ringSize_eq]
    · rw [hrest.correction_eq, hone.correction_eq]
    · rw [hrest.netAdjust_eq, hone.netAdjust_eq]
    · -- whole frames, so the samples add up
      have hdvd : sampleBytes format ∣ (heard (o.callback wanted).2).length :=
        Nat.dvd_trans sampleBytes_dvd_frameSize (hone.inFrames _ (by simp)).1
      have hplayed := hone.samplesPlayed_eq
      simp only [List.flatMap_cons, List.flatMap_nil, List.append_nil] at hplayed
      rw [hrest.samplesPlayed_eq, hplayed, List.flatMap_cons, List.length_append,
        Nat.add_div_of_dvd_right hdvd, Nat.add_assoc]

end

/-! ## Writes -/

/-- The frames that a payload leaves to push once `dropped` are dropped and
`inserted` copies of the first are inserted. -/
def corrected (n : Nat) (bytes : List UInt8) (dropped inserted : Nat) : List (List UInt8) :=
  List.replicate inserted (bytes.take n) ++ (frames n bytes).drop dropped

/-- What a write does: the correction drops or inserts whole frames and accounts
for them, callbacks take their share, and what fits of the rest is appended. -/
structure Writes (format : AudioFormat) (channels : UInt8) (o o' : CpalOutput)
    (bytes : List UInt8) (enqueued : Nat) (outs : List (List OutSample))
    (dropped inserted : Nat) : Prop where
  aligned : Aligned format channels o'
  inFrames : ∀ out ∈ outs, InFrames (sampleBytes format) (frameSize format channels) out
  ring : ∃ q, inRing o = outs.flatMap heard ++ q ∧
    frames (frameSize format channels) (inRing o') =
      frames (frameSize format channels) q ++
        (corrected (frameSize format channels) bytes dropped inserted).take enqueued
  ringSize_eq : ringSize o' = ringSize o
  enqueued_eq : enqueued =
    min ((ringSize o - (inRing o).length) / frameSize format channels)
      (corrected (frameSize format channels) bytes dropped inserted).length
  correction_eq : o'.correction = o.correction - dropped + inserted
  netAdjust_eq : o'.netAdjust = o.netAdjust + dropped - inserted
  toward : Toward o.correction o'.correction
  dropped_le : dropped ≤ (frames (frameSize format channels) bytes).length
  has_first : 0 < inserted → frameSize format channels ≤ bytes.length
  samplesPlayed_eq :
    o'.samplesPlayed = o.samplesPlayed + (outs.flatMap heard).length / sampleBytes format

section

variable {format : AudioFormat} {channels : UInt8} {o o' : CpalOutput}

theorem ringBytes_state (dec : Decoders) (o : CpalOutput) (data : List UInt8) :
    ∃ flac, (o.ringBytes dec data).1 = { o with flacStream := flac } := by
  unfold CpalOutput.ringBytes
  split
  · split
    · exact ⟨o.flacStream, rfl⟩
    · exact ⟨_, rfl⟩
  · exact ⟨o.flacStream, rfl⟩
  · exact ⟨o.flacStream, rfl⟩
  · exact ⟨o.flacStream, rfl⟩
  · exact ⟨o.flacStream, rfl⟩

/-- PCM passes through untouched. -/
theorem ringBytes_pcm (dec : Decoders) {o : CpalOutput} (data : List UInt8)
    (h : o.format.isPcm = true) : o.ringBytes dec data = (o, data) := by
  cases hf : o.format <;> simp_all [CpalOutput.ringBytes, AudioFormat.isPcm]

/-- What fits in the ring before the callbacks still fits after them. -/
theorem push_spec (h : Aligned format channels o) (hch : 1 ≤ channels.toNat) {st : Endpoint.Stream}
    (hst : o.stream = some st) (bytes : List UInt8) {during : List Nat}
    (hw : ∀ wanted ∈ during, channels.toNat ∣ wanted) :
    ∃ mid n, n = min ((ringSize o - (inRing o).length) / frameSize format channels)
        (bytes.length / frameSize format channels) ∧
      (o.push st bytes during).2 = (n, (o.callbacks during).2) ∧
      Consumes format channels o mid (o.callbacks during).2 ∧
      ∃ stream, (o.push st bytes during).1 = { mid with stream := some stream } ∧
        stream.bps = sampleBytes format ∧ stream.ring.capacity = ringSize mid ∧
        stream.ring.bytes = inRing mid ++ bytes.take (n * frameSize format channels) := by
  have hfb := h.frameBytes hch
  have hcons := callbacks_spec h hw
  refine ⟨(o.callbacks during).1, _, rfl, ?_, hcons, ?_⟩
  · simp only [CpalOutput.push, hfb, Ring.vacantLen, ringSize, inRing, hst]
  · obtain ⟨st', hst', hbps', -⟩ := hcons.aligned.stream
    have hfb' := hcons.aligned.frameBytes hch
    have hring := hcons.ring
    have hsize := hcons.ringSize_eq
    simp only [inRing, ringSize, hst, hst'] at hring hsize
    have hlen := congrArg List.length hring
    rw [List.length_append] at hlen
    have hfits := st'.ring.fits
    have hdiv := Nat.div_mul_le_self (st.ring.capacity - st.ring.bytes.length)
      (frameSize format channels)
    have hmin : min ((st.ring.capacity - st.ring.bytes.length) / frameSize format channels)
        (bytes.length / frameSize format channels) * frameSize format channels ≤
        (st.ring.capacity - st.ring.bytes.length) / frameSize format channels *
          frameSize format channels :=
      Nat.mul_le_mul_right _ (Nat.min_le_left _ _)
    simp only [CpalOutput.push, hfb, hfb', Ring.vacantLen, inRing, ringSize, hst, hst',
      Option.map_some]
    refine ⟨_, rfl, hbps', rfl, ?_⟩
    simp only [Ring.pushSlice, Ring.vacantLen]
    congr 1
    refine List.take_of_length_le ?_
    rw [List.length_take]
    omega

/-- The output and the payload after the correction. -/
structure Prepared (format : AudioFormat) (channels : UInt8) (o o₁ : CpalOutput)
    (bytes : List UInt8) (rest : Option (List UInt8)) (dropped inserted : Nat) : Prop where
  state : ∃ flac, o₁ = { o with
    flacStream := flac, correction := o.correction - dropped + inserted,
    netAdjust := o.netAdjust + dropped - inserted }
  toward : Toward o.correction o₁.correction
  dropped_le : dropped ≤ (frames (frameSize format channels) bytes).length
  has_first : 0 < inserted → frameSize format channels ≤ bytes.length
  rest : frames (frameSize format channels) (rest.getD []) =
    corrected (frameSize format channels) bytes dropped inserted

theorem prepared (h : Aligned format channels o) (hch : 1 ≤ channels.toNat) {dec : Decoders}
    {data : List UInt8} {o₁ : CpalOutput} {rest : Option (List UInt8)}
    (hcor : (o.ringBytes dec data).1.correct (o.ringBytes dec data).2 = .ok (o₁, rest)) :
    Prepared format channels o o₁ (o.ringBytes dec data).2 rest
      (drops o.correction ((o.ringBytes dec data).2.length / frameSize format channels))
      (duplicates o.correction ((o.ringBytes dec data).2.length / frameSize format channels)) := by
  obtain ⟨flac, hflac⟩ := ringBytes_state dec o data
  have hc := correct_spec hcor
  have hal : Aligned format channels (o.ringBytes dec data).1 := by
    rw [hflac]
    exact ⟨h.channels_eq, h.format_eq, h.ringFormat_eq, h.stream⟩
  have hpending : (o.ringBytes dec data).1.correction = o.correction := by rw [hflac]
  rw [hal.frameBytes hch, hpending] at hc
  obtain ⟨hstate, htoward, hle, hfirst, hrest⟩ := hc
  rw [hal.frameBytes hch] at hle hfirst hrest
  rw [hpending] at htoward
  refine ⟨⟨flac, ?_⟩, htoward, hle, hfirst, hrest⟩
  rw [hstate, hflac]

section

variable {o₁ : CpalOutput} {bytes : List UInt8} {rest : Option (List UInt8)}
  {dropped inserted : Nat}

theorem Prepared.aligned (hp : Prepared format channels o o₁ bytes rest dropped inserted)
    (h : Aligned format channels o) : Aligned format channels o₁ := by
  obtain ⟨flac, hstate⟩ := hp.state
  rw [hstate]
  exact ⟨h.channels_eq, h.format_eq, h.ringFormat_eq, h.stream⟩

/-- The jump drops the whole payload. -/
theorem Prepared.writes_none (hp : Prepared format channels o o₁ bytes none dropped inserted)
    (h : Aligned format channels o) (hch : 1 ≤ channels.toNat) :
    Writes format channels o o₁ bytes 0 [] dropped inserted := by
  have hal := hp.aligned h
  have hnone : corrected (frameSize format channels) bytes dropped inserted = [] := by
    rw [← hp.rest, Option.getD_none]
    exact frames_of_lt (by simpa using frameSize_pos format hch)
  obtain ⟨⟨flac, hstate⟩, htoward, hle, hfirst, -⟩ := hp
  have hring : inRing o₁ = inRing o := by rw [hstate]; rfl
  refine ⟨hal, by simp, ⟨inRing o, rfl, ?_⟩, by rw [hstate]; rfl, by simp [hnone],
    by rw [hstate], by rw [hstate], htoward, hle, hfirst, by rw [hstate]; simp⟩
  rw [hring, hnone, List.take_nil, List.append_nil]

/-- The rest is pushed, as far as there is room. -/
theorem Prepared.writes_push {pushed : List UInt8}
    (hp : Prepared format channels o o₁ bytes (some pushed) dropped inserted)
    (h : Aligned format channels o) (hch : 1 ≤ channels.toNat) {st : Endpoint.Stream}
    (hst : o.stream = some st) {during : List Nat}
    (hw : ∀ wanted ∈ during, channels.toNat ∣ wanted) :
    Writes format channels o (o₁.push st pushed during).1 bytes (o₁.push st pushed during).2.1
      (o₁.push st pushed during).2.2 dropped inserted := by
  have hpos := frameSize_pos format hch
  have hal := hp.aligned h
  have hcorrected : frames (frameSize format channels) pushed =
      corrected (frameSize format channels) bytes dropped inserted := hp.rest
  obtain ⟨⟨flac, hstate⟩, htoward, hle, hfirst, -⟩ := hp
  have hst₁ : o₁.stream = some st := by rw [hstate]; exact hst
  have hring₁ : inRing o₁ = inRing o := by rw [hstate]; rfl
  have hsize₁ : ringSize o₁ = ringSize o := by rw [hstate]; rfl
  obtain ⟨mid, n, hn, hout, hcons, stream, hpush, hsbps, hscap, hsbytes⟩ :=
    push_spec hal hch hst₁ pushed hw
  have hlenc : (corrected (frameSize format channels) bytes dropped inserted).length =
      pushed.length / frameSize format channels := by
    rw [← hcorrected, length_frames]
  have hwhole :
      frameSize format channels ∣ (pushed.take (n * frameSize format channels)).length := by
    rw [List.length_take, Nat.min_eq_left]
    · exact Nat.dvd_mul_left _ _
    · have := Nat.div_mul_le_self pushed.length (frameSize format channels)
      have := Nat.mul_le_mul_right (frameSize format channels)
        (hn ▸ Nat.min_le_right _ _ : n ≤ pushed.length / frameSize format channels)
      omega
  have hmid := hcons.aligned.dvd_inRing
  rw [hpush, hout]
  refine ⟨⟨hcons.aligned.channels_eq, hcons.aligned.format_eq, hcons.aligned.ringFormat_eq,
    stream, rfl, hsbps, ?_⟩, hcons.inFrames, ⟨inRing mid, ?_, ?_⟩, ?_, ?_, ?_, ?_, ?_, hle, hfirst,
    ?_⟩
  · rw [hsbytes, List.length_append]
    exact Nat.dvd_add hmid hwhole
  · rw [← hring₁]
    exact hcons.ring
  · change frames _ stream.ring.bytes = _
    rw [hsbytes, frames_append hpos _ hmid, frames_take hpos, hcorrected]
  · change stream.ring.capacity = _
    rw [hscap, hcons.ringSize_eq, hsize₁]
  · rw [hn, hring₁, hsize₁, hlenc]
  · change mid.correction = _
    rw [hcons.correction_eq, hstate]
  · change mid.netAdjust = _
    rw [hcons.netAdjust_eq, hstate]
  · change Toward o.correction mid.correction
    rw [hcons.correction_eq]
    exact htoward
  · change mid.samplesPlayed = _
    rw [hcons.samplesPlayed_eq, hstate]

end

/-- **The spec of a write.** -/
theorem write_spec (h : Aligned format channels o) (hch : 1 ≤ channels.toNat) {dec : Decoders}
    {data : List UInt8} {during : List Nat} (hw : ∀ wanted ∈ during, channels.toNat ∣ wanted)
    {enqueued : Nat} {outs : List (List OutSample)}
    (hrun : o.writeAudio dec data during = .ok (o', enqueued, outs)) :
    Writes format channels o o' (o.ringBytes dec data).2 enqueued outs
      (drops o.correction ((o.ringBytes dec data).2.length / frameSize format channels))
      (duplicates o.correction ((o.ringBytes dec data).2.length / frameSize format channels)) := by
  obtain ⟨st, hst, -⟩ := h.stream
  unfold CpalOutput.writeAudio at hrun
  simp only [hst] at hrun
  split at hrun
  next => cases hrun
  next o₁ hcor =>
    cases hrun
    exact (prepared h hch hcor).writes_none h hch
  next o₁ pushed hcor =>
    have hwrites := (prepared h hch hcor).writes_push h hch hst hw
    rw [Except.ok.injEq] at hrun
    rwa [hrun] at hwrites

end

/-! ## Runs -/

/-- What the operation does to the pending correction and to `net_adjust`. -/
def Adjusts (dec : Decoders) (format : AudioFormat) (channels : UInt8) (o : CpalOutput) (op : Op) :
    Prop :=
  ∀ o' events, step dec o op = .ok (o', events) →
    match op with
    | .write data _ => ∃ enqueued outs,
        events = .wrote (o.ringBytes dec data).2 enqueued :: outs.map .output ∧
        Writes format channels o o' (o.ringBytes dec data).2 enqueued outs
          (drops o.correction ((o.ringBytes dec data).2.length / frameSize format channels))
          (duplicates o.correction
            ((o.ringBytes dec data).2.length / frameSize format channels))
    | .setCorrection frames => o'.correction = frames ∧ o'.netAdjust = o.netAdjust
    | _ => o'.correction = o.correction ∧ o'.netAdjust = o.netAdjust

theorem warped_corrected {n : Nat} (hn : 0 < n) {bytes : List UInt8} {dropped inserted : Nat}
    (h : 0 < inserted → n ≤ bytes.length) :
    Warped (frames n bytes) (corrected n bytes dropped inserted) := by
  unfold corrected
  cases inserted with
  | zero => exact Warped.drop dropped _
  | succ m =>
    rw [frames_of_le hn (h (by omega))]
    cases dropped with
    | zero => exact Warped.repeatHead (m + 1) _ _
    | succ k => exact Warped.play _ m (Warped.drop k _)

/-- The frames of several device buffers, each of whole frames. -/
theorem frames_flatMap_heard {bps n : Nat} (hn : 0 < n) {outs : List (List OutSample)}
    (h : ∀ out ∈ outs, InFrames bps n out) :
    frames n (outs.flatMap heard) = outs.flatMap fun out => frames n (heard out) := by
  induction outs with
  | nil => exact frames_of_lt (by simpa using hn)
  | cons out outs ih =>
    rw [List.flatMap_cons, frames_append hn _ (h out (by simp)).1,
      ih (fun o ho => h o (List.mem_cons_of_mem _ ho)), List.flatMap_cons]

theorem dvd_flatMap_heard {bps n : Nat} {outs : List (List OutSample)}
    (h : ∀ out ∈ outs, InFrames bps n out) : n ∣ (outs.flatMap heard).length := by
  induction outs with
  | nil => exact Nat.dvd_zero n
  | cons out outs ih =>
    rw [List.flatMap_cons, List.length_append]
    exact Nat.dvd_add (h out (by simp)).1 (ih (fun o ho => h o (List.mem_cons_of_mem _ ho)))

theorem heardFrames_outputs (n : Nat) (outs : List (List OutSample)) :
    heardFrames n (outs.map .output) = outs.flatMap fun out => frames n (heard out) := by
  induction outs with
  | nil => rfl
  | cons out outs ih =>
    rw [List.map_cons, List.flatMap_cons, ← ih]
    rfl

theorem offeredFrames_outputs (n : Nat) (outs : List (List OutSample)) :
    offeredFrames n (outs.map .output) = [] := by
  simp [offeredFrames]

/-- What a run has done so far: the frames heard and those in the ring are the
frames offered, warped. -/
structure Delivers (format : AudioFormat) (channels : UInt8) (o : CpalOutput) (log : List Event) :
    Prop where
  aligned : Aligned format channels o
  inFrames : ∀ out, .output out ∈ log →
    InFrames (sampleBytes format) (frameSize format channels) out
  warped : Warped (offeredFrames (frameSize format channels) log)
    (heardFrames (frameSize format channels) log ++ frames (frameSize format channels) (inRing o))

section

variable {dec : Decoders} {format : AudioFormat} {channels : UInt8} {o o' : CpalOutput}
  {log events : List Event}

/-- An operation that leaves the stream alone. -/
theorem Delivers.of_quiet (h : Delivers format channels o log) (hal : Aligned format channels o')
    (hring : inRing o' = inRing o) : Delivers format channels o' (log ++ []) := by
  rw [List.append_nil]
  exact ⟨hal, h.inFrames, hring ▸ h.warped⟩

theorem Delivers.write (h : Delivers format channels o log) (hch : 1 ≤ channels.toNat)
    {bytes : List UInt8} {enqueued : Nat} {outs : List (List OutSample)} {dropped inserted : Nat}
    (hw : Writes format channels o o' bytes enqueued outs dropped inserted) :
    Delivers format channels o' (log ++ .wrote bytes enqueued :: outs.map .output) := by
  have hpos := frameSize_pos format hch
  obtain ⟨q, hq, hring⟩ := hw.ring
  refine ⟨hw.aligned, ?_, ?_⟩
  · intro out hout
    rcases List.mem_append.mp hout with hout | hout
    · exact h.inFrames out hout
    · obtain ⟨out', hmem, heq⟩ : ∃ out' ∈ outs, Event.output out' = .output out := by
        simpa using hout
      rw [← Event.output.inj heq]
      exact hw.inFrames out' hmem
  · have hoffered : offeredFrames (frameSize format channels)
        (log ++ .wrote bytes enqueued :: outs.map .output) =
        offeredFrames (frameSize format channels) log ++
          frames (frameSize format channels) bytes := by
      rw [offeredFrames_append, ← List.singleton_append, offeredFrames_append,
        offeredFrames_outputs]
      simp [offeredFrames]
    have hheard : heardFrames (frameSize format channels)
        (log ++ .wrote bytes enqueued :: outs.map .output) =
        heardFrames (frameSize format channels) log ++
          frames (frameSize format channels) (outs.flatMap heard) := by
      rw [heardFrames_append, ← List.singleton_append, heardFrames_append, heardFrames_outputs,
        frames_flatMap_heard hpos hw.inFrames]
      simp [heardFrames]
    -- the ring was what the callbacks took, and what they left
    have hold := h.warped
    rw [hq, frames_append hpos _ (dvd_flatMap_heard hw.inFrames), ← List.append_assoc] at hold
    rw [hoffered, hheard, hring, ← List.append_assoc]
    exact hold.append ((warped_corrected hpos hw.has_first).take enqueued)

theorem Delivers.callback (h : Delivers format channels o log) (hch : 1 ≤ channels.toNat)
    {out : List OutSample} (hc : Consumes format channels o o' [out]) :
    Delivers format channels o' (log ++ [.output out]) := by
  have hpos := frameSize_pos format hch
  have hin := hc.inFrames out (by simp)
  refine ⟨hc.aligned, ?_, ?_⟩
  · intro out' hout
    rcases List.mem_append.mp hout with hout | hout
    · exact h.inFrames out' hout
    · rw [Event.output.inj (List.mem_singleton.mp hout)]
      exact hin
  · have hold := h.warped
    have hring := hc.ring
    simp only [List.flatMap_cons, List.flatMap_nil, List.append_nil] at hring
    rw [hring, frames_append hpos _ hin.1, ← List.append_assoc] at hold
    rw [offeredFrames_append, heardFrames_append]
    simpa [offeredFrames, heardFrames] using hold

theorem play_eq (h : Aligned format channels o) : o.play = { o with playing := true } := by
  obtain ⟨st, hst, -⟩ := h.stream
  simp [CpalOutput.play, hst]

/-- **The step rule.** -/
theorem step_delivers (h : Delivers format channels o log) (hch : 1 ≤ channels.toNat) {op : Op}
    (hop : op.WholeFrames channels) (hstep : step dec o op = .ok (o', events)) :
    Delivers format channels o' (log ++ events) := by
  have hal := h.aligned
  cases op with
  | write data during =>
    simp only [step] at hstep
    split at hstep
    next => cases hstep
    next o₁ enqueued outs hw =>
      cases hstep
      exact h.write hch (write_spec hal hch hop hw)
  | callback wanted =>
    cases hstep
    exact h.callback hch (callback_spec hal hop)
  | play =>
    cases hstep
    rw [play_eq hal]
    exact h.of_quiet ⟨hal.channels_eq, hal.format_eq, hal.ringFormat_eq, hal.stream⟩ rfl
  | setCorrection _ | setVolume _ | setMute _ | pause =>
    cases hstep
    exact h.of_quiet ⟨hal.channels_eq, hal.format_eq, hal.ringFormat_eq, hal.stream⟩ rfl

theorem step_adjusts (h : Aligned format channels o) (hch : 1 ≤ channels.toNat) {op : Op}
    (hop : op.WholeFrames channels) : Adjusts dec format channels o op := by
  intro o' events hstep
  cases op with
  | write data during =>
    simp only [step] at hstep
    split at hstep
    next => cases hstep
    next o₁ enqueued outs hw =>
      cases hstep
      exact ⟨enqueued, outs, rfl, write_spec h hch hop hw⟩
  | callback wanted =>
    cases hstep
    have hc := callback_spec h hop
    exact ⟨hc.correction_eq, hc.netAdjust_eq⟩
  | play =>
    cases hstep
    rw [play_eq h]
    exact ⟨rfl, rfl⟩
  | setCorrection _ | setVolume _ | setMute _ | pause =>
    cases hstep
    exact ⟨rfl, rfl⟩

theorem run_delivers (hch : 1 ≤ channels.toNat) {ops : List Op}
    (hops : ∀ op ∈ ops, op.WholeFrames channels) (h : Delivers format channels o log)
    {t : CpalOutput} {more : List Event} (hrun : run (step dec) o ops = .ok (t, more)) :
    Delivers format channels t (log ++ more) ∧
      Along (step dec) (Adjusts dec format channels) o ops := by
  induction ops generalizing o log more with
  | nil =>
    simp only [run_nil, Except.ok.injEq, Prod.mk.injEq] at hrun
    obtain ⟨rfl, rfl⟩ := hrun
    exact ⟨by simpa using h, trivial⟩
  | cons op ops ih =>
    obtain ⟨o₁, ev, evs, hstep, hrest, rfl⟩ := run_cons_inv hrun
    have h₁ := step_delivers h hch (hops op (by simp)) hstep
    have hops' : ∀ p ∈ ops, p.WholeFrames channels :=
      fun p hp => hops p (List.mem_cons_of_mem _ hp)
    obtain ⟨hall, halong⟩ := ih hops' h₁ hrest
    refine ⟨by rwa [← List.append_assoc], ?_⟩
    rw [along_cons_iff ops hstep]
    exact ⟨step_adjusts h.aligned hch (hops op (by simp)), halong⟩

end

/-- **Frame integrity.** Take any output that was configured with at least one
channel, and any interleaving of calls with callbacks for whole frames. The
ring holds whole frames. Every device buffer is whole frames and then silence.
The frames heard so far, followed by those in the ring, are the frames offered
with some left out and some repeated in place. And every step adjusts
`net_adjust` by the frames that the correction dropped less those it inserted,
the pending correction moving by as much towards zero and not past it. -/
theorem frame_integrity {dec : Decoders} {format : AudioFormat} {sampleRate : UInt32}
    {channels : UInt8} {opening : Opening} {o₀ o : CpalOutput} (hch : 1 ≤ channels.toNat)
    (hconf : o₀.configure format sampleRate channels opening = (o, .ok ())) {ops : List Op}
    (hops : ∀ op ∈ ops, op.WholeFrames channels) {t : CpalOutput} {log : List Event}
    (hrun : run (step dec) o ops = .ok (t, log)) :
    frameSize format channels ∣ (inRing t).length ∧
    (∀ out, .output out ∈ log → InFrames (sampleBytes format) (frameSize format channels) out) ∧
    Warped (offeredFrames (frameSize format channels) log)
      (heardFrames (frameSize format channels) log ++
        frames (frameSize format channels) (inRing t)) ∧
    Along (step dec) (Adjusts dec format channels) o ops := by
  obtain ⟨hal, hempty, -, -⟩ := aligned_configure hconf
  have hstart : Delivers format channels o [] := by
    refine ⟨hal, by simp, ?_⟩
    rw [hempty, frames_of_lt (by simpa using frameSize_pos format hch)]
    exact .nil
  obtain ⟨hend, hadj⟩ := run_delivers hch hops hstart hrun
  rw [List.nil_append] at hend
  exact ⟨hend.aligned.dvd_inRing, hend.inFrames, hend.warped, hadj⟩

/-- A device that takes 16-bit samples. -/
def plainOpening : Opening :=
  { device := .ok ("default", { f32 := true, i16 := true, i32 := true }), build := .ok () }

/-- 16-bit stereo at 48 kHz. -/
def stereoOutput : CpalOutput := (CpalOutput.new.configure .pcmS16le 48000 2 plainOpening).1

/-- No other format than PCM is played. -/
def pcmOnly : Decoders :=
  { codec := { make := fun _ => .error "not FLAC", decode := fun _ _ => .error "not FLAC" }
    dsdSample := fun _ _ => 0 }

/-- A frame is repeated, then one is dropped, while the device plays. -/
def adjustedRun : List Op :=
  [.setCorrection (-1), .write [1, 0, 2, 0, 3, 0, 4, 0, 9] [], .play, .callback 4,
   .setCorrection 1, .write [5, 0, 6, 0, 7, 0, 8, 0] [2]]

/-- The first frame is heard twice, the third is dropped. -/
theorem adjustedRun_integrity :
    (run (step pcmOnly) stereoOutput adjustedRun).map
      (fun r => (heardFrames 4 r.2, inRing r.1, r.1.netAdjust)) =
        .ok ([[1, 0, 2, 0], [1, 0, 2, 0], [3, 0, 4, 0]], [7, 0, 8, 0], 0) ∧
    ∀ t log, run (step pcmOnly) stereoOutput adjustedRun = .ok (t, log) →
      Warped (offeredFrames 4 log) (heardFrames 4 log ++ frames 4 (inRing t)) := by
  refine ⟨by decide +kernel, ?_⟩
  intro t log hrun
  have hops : ∀ op ∈ adjustedRun, op.WholeFrames 2 := by
    simp [adjustedRun, Op.WholeFrames]
  have hconf : CpalOutput.new.configure .pcmS16le 48000 2 plainOpening =
      (stereoOutput, .ok ()) := rfl
  exact (frame_integrity (by decide) hconf hops hrun).2.2.1

end Oaat.Cpal
