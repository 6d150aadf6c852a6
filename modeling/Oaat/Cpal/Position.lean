/-
Oaat.Cpal.Position — the position that the drift servo compares with the clock.

`content_position()` adds up what the callback consumed and what the
correction dropped or inserted. Together with the ring it accounts for every
frame offered, as long as no frame finds the ring full (`write_audio` counts
such frames nowhere) and the sum never has to be cut off at zero (duplicates
that go out before as many frames were played). `Counted` is this account.
-/
import Oaat.Cpal.Integrity

namespace Oaat.Cpal

open Oaat.Core Oaat.Endpoint Oaat.Lib

/-- The frames that an operation offers. -/
def Op.offered (n : Nat) : Op → Nat
  | .write data _ => data.length / n
  | _ => 0

/-- The frames offered by a list of operations. -/
def totalOffered (n : Nat) (ops : List Op) : Nat := (ops.map (Op.offered n)).sum

/-- What a write has to find: room for all frames that the correction leaves,
and at least as many frames played or skipped as it inserts. -/
def Counts (format : AudioFormat) (channels : UInt8) (o : CpalOutput) : Op → Prop
  | .write data _ =>
    let framesIn := data.length / frameSize format channels
    duplicates o.correction framesIn + (framesIn - drops o.correction framesIn) ≤
        (ringSize o - (inRing o).length) / frameSize format channels ∧
      (duplicates o.correction framesIn : Int) ≤
        (o.samplesPlayed / channels.toNat : Nat) + o.netAdjust
  | _ => True

instance (format : AudioFormat) (channels : UInt8) (o : CpalOutput) (op : Op) :
    Decidable (Counts format channels o op) := by
  cases op <;> unfold Counts <;> infer_instance

/-- Of `n` frames offered so far, those that the position counts as played are
not in the ring, and all others are. -/
structure Counted (format : AudioFormat) (channels : UInt8) (o : CpalOutput) (n : Nat) : Prop where
  aligned : Aligned format channels o
  played : ∃ played : Nat, o.samplesPlayed = channels.toNat * played ∧
    0 ≤ (played : Int) + o.netAdjust ∧
    (played : Int) + o.netAdjust + ((inRing o).length / frameSize format channels : Nat) = n

section

variable {dec : Decoders} {format : AudioFormat} {channels : UInt8} {o o' : CpalOutput} {n : Nat}

theorem contentPosition_eq (hch : 1 ≤ channels.toNat) (hal : Aligned format channels o)
    {played : Nat} (hplayed : o.samplesPlayed = channels.toNat * played)
    (hpos : 0 ≤ (played : Int) + o.netAdjust) :
    o.contentPosition = some ((played : Int) + o.netAdjust).toNat := by
  have hne : ¬ o.channels = 0 := by
    intro h
    rw [hal.channels_eq] at h
    rw [h] at hch
    exact absurd hch (by decide)
  have hdiv : o.samplesPlayed / o.channels.toNat = played := by
    rw [hplayed, hal.channels_eq, Nat.mul_div_cancel_left played (by omega)]
  rw [CpalOutput.contentPosition, CpalOutput.framesPlayed, if_neg hne, hdiv, Option.map_some,
    Int.max_eq_left hpos]

/-- The account closes: position and fill level give the frames offered. -/
theorem Counted.position (h : Counted format channels o n) (hch : 1 ≤ channels.toNat) :
    ∃ pos, o.contentPosition = some pos ∧ pos + o.bufferLevel = n := by
  obtain ⟨played, hplayed, hpos, hsum⟩ := h.played
  refine ⟨_, contentPosition_eq hch h.aligned hplayed hpos, ?_⟩
  have hlevel : o.bufferLevel = (inRing o).length / frameSize format channels := by
    obtain ⟨st, hst, -, -⟩ := h.aligned.stream
    simp only [CpalOutput.bufferLevel, inRing, hst, h.aligned.frameBytes hch]
  rw [hlevel]
  omega

/-- Whole frames heard, in samples and in the ring. -/
theorem heard_frames (hch : 1 ≤ channels.toNat) {outs : List (List OutSample)}
    (hin : ∀ out ∈ outs, InFrames (sampleBytes format) (frameSize format channels) out)
    {q : List UInt8} (hring : inRing o = outs.flatMap heard ++ q) :
    ∃ k, (outs.flatMap heard).length / sampleBytes format = channels.toNat * k ∧
      (inRing o).length / frameSize format channels = k + q.length / frameSize format channels := by
  obtain ⟨k, hk⟩ := dvd_flatMap_heard hin
  refine ⟨k, ?_, ?_⟩
  · rw [hk, frameSize, Nat.mul_right_comm, Nat.mul_div_cancel _ (sampleBytes_pos format)]
  · rw [hring, List.length_append, hk, Nat.mul_add_div (frameSize_pos format hch)]

theorem Counted.callback (h : Counted format channels o n) (hch : 1 ≤ channels.toNat)
    {outs : List (List OutSample)} (hc : Consumes format channels o o' outs) :
    Counted format channels o' n := by
  obtain ⟨played, hplayed, hpos, hsum⟩ := h.played
  obtain ⟨k, hk, hlevel⟩ := heard_frames hch hc.inFrames hc.ring
  refine ⟨hc.aligned, played + k, ?_, ?_, ?_⟩
  · rw [hc.samplesPlayed_eq, hplayed, hk, Nat.mul_add]
  · rw [hc.netAdjust_eq]
    omega
  · rw [hc.netAdjust_eq]
    omega

theorem Counted.write (h : Counted format channels o n) (hch : 1 ≤ channels.toNat)
    {bytes : List UInt8} {enqueued : Nat} {outs : List (List OutSample)} {dropped inserted : Nat}
    (hw : Writes format channels o o' bytes enqueued outs dropped inserted)
    (hroom : inserted + (bytes.length / frameSize format channels - dropped) ≤
      (ringSize o - (inRing o).length) / frameSize format channels)
    (hlate : (inserted : Int) ≤ (o.samplesPlayed / channels.toNat : Nat) + o.netAdjust) :
    Counted format channels o' (n + bytes.length / frameSize format channels) := by
  obtain ⟨played, hplayed, hpos, hsum⟩ := h.played
  obtain ⟨q, hq, hring⟩ := hw.ring
  obtain ⟨k, hk, hlevel⟩ := heard_frames hch hw.inFrames hq
  rw [hplayed, Nat.mul_div_cancel_left played (by omega)] at hlate
  have hle := hw.dropped_le
  rw [length_frames] at hle
  -- all that is left of the payload is enqueued
  have hlen : (corrected (frameSize format channels) bytes dropped inserted).length =
      inserted + (bytes.length / frameSize format channels - dropped) := by
    simp [corrected]
  have hring' := congrArg List.length hring
  rw [List.length_append, length_frames, length_frames, List.length_take, hw.enqueued_eq, hlen,
    Nat.min_eq_right hroom, Nat.min_self] at hring'
  refine ⟨hw.aligned, played + k, ?_, ?_, ?_⟩
  · rw [hw.samplesPlayed_eq, hplayed, hk, Nat.mul_add]
  · rw [hw.netAdjust_eq]
    omega
  · rw [hw.netAdjust_eq]
    omega

theorem Counted.of_same (h : Counted format channels o n) (hal : Aligned format channels o')
    (hring : inRing o' = inRing o) (hplayed : o'.samplesPlayed = o.samplesPlayed)
    (hnet : o'.netAdjust = o.netAdjust) : Counted format channels o' n := by
  refine ⟨hal, ?_⟩
  rw [hring, hplayed, hnet]
  exact h.played

/-- **The step rule.** -/
theorem step_counted (h : Counted format channels o n) (hch : 1 ≤ channels.toNat)
    (hpcm : format.isPcm = true) {op : Op} (hop : op.WholeFrames channels)
    (hcount : Counts format channels o op) {events : List Event}
    (hstep : step dec o op = .ok (o', events)) :
    Counted format channels o' (n + op.offered (frameSize format channels)) := by
  have hal := h.aligned
  cases op with
  | write data during =>
    simp only [step] at hstep
    cases hw : o.writeAudio dec data during with
    | error e => simp [hw] at hstep
    | ok r =>
      obtain ⟨o₁, enqueued, outs⟩ := r
      simp only [hw, Except.ok.injEq, Prod.mk.injEq] at hstep
      obtain ⟨rfl, -⟩ := hstep
      have hwrites := write_spec hal hch hop hw
      have hbytes : (o.ringBytes dec data).2 = data := by
        rw [ringBytes_pcm dec data (by rw [hal.format_eq]; exact hpcm)]
      rw [hbytes] at hwrites
      exact h.write hch hwrites hcount.1 hcount.2
  | callback wanted =>
    simp only [step, Except.ok.injEq, Prod.mk.injEq] at hstep
    obtain ⟨rfl, -⟩ := hstep
    exact h.callback hch (callback_spec hal hop)
  | play =>
    simp only [step, Except.ok.injEq, Prod.mk.injEq] at hstep
    obtain ⟨rfl, -⟩ := hstep
    rw [play_eq hal]
    exact h.of_same ⟨hal.channels_eq, hal.format_eq, hal.ringFormat_eq, hal.stream⟩ rfl rfl rfl
  | setCorrection _ | setVolume _ | setMute _ | pause =>
    simp only [step, Except.ok.injEq, Prod.mk.injEq] at hstep
    obtain ⟨rfl, -⟩ := hstep
    exact h.of_same ⟨hal.channels_eq, hal.format_eq, hal.ringFormat_eq, hal.stream⟩ rfl rfl rfl

theorem run_counted (hch : 1 ≤ channels.toNat) (hpcm : format.isPcm = true) {ops : List Op}
    (hops : ∀ op ∈ ops, op.WholeFrames channels) (h : Counted format channels o n)
    (hcount : Along (step dec) (Counts format channels) o ops) {t : CpalOutput} {log : List Event}
    (hrun : run (step dec) o ops = .ok (t, log)) :
    Counted format channels t (n + totalOffered (frameSize format channels) ops) := by
  induction ops generalizing o n log with
  | nil =>
    simp only [run_nil, Except.ok.injEq, Prod.mk.injEq] at hrun
    obtain ⟨rfl, -⟩ := hrun
    simpa [totalOffered] using h
  | cons op ops ih =>
    obtain ⟨o₁, ev, evs, hstep, hrest, -⟩ := run_cons_inv hrun
    have h₁ := step_counted h hch hpcm (hops op (by simp)) hcount.1 hstep
    have hall := ih (fun p hp => hops p (List.mem_cons_of_mem _ hp)) h₁ (hcount.2 o₁ ev hstep) hrest
    rwa [Nat.add_assoc] at hall

end

/-- **The content position.** Take any output configured for PCM with at least
one channel, and any interleaving of calls with callbacks for whole frames.
If every write finds room for the frames that the correction leaves, and as
many frames played or skipped as it inserts, then content position and fill
level add up to the frames offered since the output was configured. -/
theorem content_position_tracks {dec : Decoders} {format : AudioFormat} {sampleRate : UInt32}
    {channels : UInt8} {opening : Opening} {o₀ o : CpalOutput} (hch : 1 ≤ channels.toNat)
    (hpcm : format.isPcm = true)
    (hconf : o₀.configure format sampleRate channels opening = (o, .ok ())) {ops : List Op}
    (hops : ∀ op ∈ ops, op.WholeFrames channels) {t : CpalOutput} {log : List Event}
    (hrun : run (step dec) o ops = .ok (t, log))
    (hcount : Along (step dec) (Counts format channels) o ops) :
    ∃ pos, t.contentPosition = some pos ∧
      pos + t.bufferLevel = totalOffered (frameSize format channels) ops := by
  obtain ⟨hal, hempty, hplayed, hnet⟩ := aligned_configure hconf
  have hstart : Counted format channels o 0 := by
    refine ⟨hal, 0, by simpa using hplayed, by simp [hnet], ?_⟩
    simp [hnet, hempty]
  have hend := run_counted hch hpcm hops hstart hcount hrun
  rw [Nat.zero_add] at hend
  exact hend.position hch

/-- Two frames play, one is repeated, two are skipped. -/
def trackedRun : List Op :=
  [.write [1, 0, 2, 0, 3, 0, 4, 0] [], .play, .callback 2, .setCorrection (-1),
   .write [5, 0, 6, 0] [2], .setCorrection 2, .write [7, 0, 8, 0, 9, 0, 1, 0, 2, 0, 3, 0] []]

/-- The next frame to be played is the third of six. -/
theorem trackedRun_position :
    (run (step pcmOnly) stereoOutput trackedRun).map
      (fun r => (r.1.contentPosition, r.1.bufferLevel)) = .ok (some 3, 3) ∧
    ∀ t log, run (step pcmOnly) stereoOutput trackedRun = .ok (t, log) →
      ∃ pos, t.contentPosition = some pos ∧ pos + t.bufferLevel = 6 := by
  refine ⟨by decide +kernel, ?_⟩
  intro t log hrun
  have hops : ∀ op ∈ trackedRun, op.WholeFrames 2 := by
    simp [trackedRun, Op.WholeFrames]
  have hconf : CpalOutput.new.configure .pcmS16le 48000 2 plainOpening =
      (stereoOutput, .ok ()) := rfl
  have hcount : Along (step pcmOnly) (Counts .pcmS16le 2) stereoOutput trackedRun := by
    decide +kernel
  exact content_position_tracks (by decide) rfl hconf hops hrun hcount

/-- With no correction pending, PCM goes to the ring as it is. -/
theorem write_uncorrected {dec : Decoders} {o : CpalOutput} {st : Endpoint.Stream}
    (hst : o.stream = some st) (hpcm : o.format.isPcm = true) (hnone : o.correction = 0)
    (data : List UInt8) (during : List Nat) :
    o.writeAudio dec data during = .ok (o.push st data during) := by
  have hcorrect : o.correct data = .ok (o, some data) := by
    simp [CpalOutput.correct, hnone, JUMP_THRESHOLD_FRAMES]
  simp only [CpalOutput.writeAudio, hst, ringBytes_pcm dec data hpcm, hcorrect]

/-- One frame more than the ring of `stereoOutput` takes. -/
theorem write_overfull {data : List UInt8} (hlen : data.length = 192004) :
    ∃ t log, run (step pcmOnly) stereoOutput [.write data []] = .ok (t, log) ∧
      t.contentPosition = some 0 ∧ t.bufferLevel = 48000 ∧
      totalOffered 4 [.write data []] = 48001 := by
  obtain ⟨st, hst, hcap, hempty⟩ :
      ∃ st, stereoOutput.stream = some st ∧ st.ring.capacity = 192000 ∧ st.ring.bytes = [] :=
    ⟨_, rfl, by decide +kernel, rfl⟩
  have hwrite : stereoOutput.writeAudio pcmOnly data [] = .ok (stereoOutput.push st data []) :=
    write_uncorrected hst rfl rfl data []
  refine ⟨_, _, run_single (by rw [step, hwrite]), ?_, ?_, ?_⟩
  · have hsame : (stereoOutput.push st data []).1.contentPosition =
        stereoOutput.contentPosition := rfl
    rw [hsame]
    decide +kernel
  · have hsame : ∀ stream, CpalOutput.frameBytes { stereoOutput with stream } = 4 := by
      intro stream
      exact (by decide +kernel : stereoOutput.frameBytes = 4)
    simp only [CpalOutput.push, CpalOutput.callbacks, CpalOutput.bufferLevel, hst,
      Option.map_some, Ring.pushSlice, Ring.vacantLen, hcap, hempty, hsame, hlen,
      List.nil_append, List.length_take, List.length_nil]
    rfl
  · simp [totalOffered, Op.offered, hlen]

/-- Without room the position counts too little: of 48001 frames the ring takes
48000, and the last is counted nowhere. Without frames played it counts too
much: the frame repeated before the first is not taken off. -/
theorem position_off :
    (∃ t log, run (step pcmOnly) stereoOutput [.write (List.replicate 192004 0) []] = .ok (t, log) ∧
      t.contentPosition = some 0 ∧ t.bufferLevel = 48000 ∧
      totalOffered 4 [.write (List.replicate 192004 0) []] = 48001) ∧
    (run (step pcmOnly) stereoOutput [.setCorrection (-1), .write [1, 0, 2, 0] []]).map
        (fun r => (r.1.contentPosition, r.1.bufferLevel)) = .ok (some 0, 2) ∧
      totalOffered 4 [.setCorrection (-1), .write [1, 0, 2, 0] []] = 1 :=
  ⟨write_overfull List.length_replicate, by decide +kernel, by decide⟩

end Oaat.Cpal
