/-
Oaat.Cpal.JumpResync — a large deficit is dropped, up to its last frames.

`write_audio` drops the whole payload while more than `JUMP_THRESHOLD_FRAMES`
are pending. Which of the two regimes applies is decided anew at each write,
from what is left, so the end of a jump falls to the fine regime, which drops
two frames of a payload and never its last one.

Which frames of a stream were enqueued is a mask (`keptFrames`): a write
enqueues the last ones of its payload.
-/
import Oaat.Cpal.Position
import Oaat.Lib.Mask

namespace Oaat.Cpal

open Oaat.Core Oaat.Endpoint Oaat.Lib

/-! ## What is offered, and what is kept -/

/-- Of the frames offered, those that are enqueued. -/
def keptFrames (n : Nat) (log : List Event) : List Bool :=
  log.flatMap fun
    | .wrote bytes enqueued => tailMask (bytes.length / n - enqueued) (bytes.length / n)
    | .output _ => []

theorem keptFrames_append (n : Nat) (log more : List Event) :
    keptFrames n (log ++ more) = keptFrames n log ++ keptFrames n more := by
  simp [keptFrames]

theorem keptFrames_outputs (n : Nat) (outs : List (List OutSample)) :
    keptFrames n (outs.map .output) = [] := by
  simp [keptFrames]

/-- The operation leaves the pending correction to the writes. -/
def Op.LeavesCorrection : Op → Prop
  | .setCorrection _ => False
  | _ => True

/-- The ring has room for what the correction leaves of a payload. -/
def Fits (format : AudioFormat) (channels : UInt8) (o : CpalOutput) : Op → Prop
  | .write data _ =>
    let framesIn := data.length / frameSize format channels
    framesIn - drops o.correction framesIn ≤
      (ringSize o - (inRing o).length) / frameSize format channels
  | _ => True

/-- With a deficit of `c` frames, the operation does not come in the fine regime
of the jump: if it brings frames while some of the deficit is left, but no more
than the threshold, then it ends the jump as the fine regime can. -/
def Lands (c n : Nat) (past : List Op) (op : Op) : Prop :=
  0 < op.offered n → totalOffered n past < c →
    (c : Int) ≤ totalOffered n past + JUMP_THRESHOLD_FRAMES →
    (c : Int) ≤ totalOffered n past + MAX_CORRECTION_FRAMES_PER_WRITE ∧
      c < totalOffered n past + op.offered n

/-! ## One operation -/

/-- Of `k` frames the jump drops what is due, exactly if it lands. -/
theorem drops_eq_min_iff {c t k : Nat} :
    drops (c - t : Nat) k = min (c - t) k ↔
      (0 < k → t < c → (c : Int) ≤ t + JUMP_THRESHOLD_FRAMES →
        (c : Int) ≤ t + MAX_CORRECTION_FRAMES_PER_WRITE ∧ c < t + k) := by
  have hmax : MAX_CORRECTION_FRAMES_PER_WRITE = 2 := rfl
  have hjump : JUMP_THRESHOLD_FRAMES = 1200 := rfl
  unfold drops
  split
  · omega
  · split <;> omega

theorem drops_le (pending : Int) (k : Nat) : drops pending k ≤ k := by
  unfold drops
  split
  · omega
  · split <;> omega

theorem drops_le_pending {pending : Int} (h : 0 ≤ pending) (k : Nat) :
    (drops pending k : Int) ≤ pending := by
  unfold drops
  split
  · omega
  · split <;> omega

section

variable {dec : Decoders} {format : AudioFormat} {channels : UInt8} {o o' t : CpalOutput}
  {events log out : List Event}

/-- An operation that brings `k` frames drops the first `dropped` of them and
enqueues the others. -/
structure Drops (format : AudioFormat) (channels : UInt8) (o o' : CpalOutput) (k dropped : Nat)
    (events : List Event) : Prop where
  aligned : Aligned format channels o'
  correction_eq : o'.correction = o.correction - dropped
  dropped_le : dropped ≤ k
  kept : keptFrames (frameSize format channels) events = tailMask dropped k
  offered : (offeredFrames (frameSize format channels) events).length = k
  ring : heardFrames (frameSize format channels) events ++
      frames (frameSize format channels) (inRing o') =
    frames (frameSize format channels) (inRing o) ++
      (offeredFrames (frameSize format channels) events).drop dropped
  ringSize_eq : ringSize o' = ringSize o

/-- An operation that brings nothing and leaves the ring alone. -/
theorem Drops.of_quiet (hal : Aligned format channels o') (hcorr : o'.correction = o.correction)
    (hring : inRing o' = inRing o) (hsize : ringSize o' = ringSize o) :
    Drops format channels o o' 0 0 [] := by
  refine ⟨hal, by simpa using hcorr, le_rfl, rfl, rfl, ?_, hsize⟩
  rw [hring]
  simp [heardFrames, offeredFrames]

theorem Drops.of_callback {wanted : List OutSample} (hch : 1 ≤ channels.toNat)
    (hc : Consumes format channels o o' [wanted]) :
    Drops format channels o o' 0 0 [.output wanted] := by
  have hpos := frameSize_pos format hch
  have hin := hc.inFrames wanted (by simp)
  refine ⟨hc.aligned, by simpa using hc.correction_eq, le_rfl, rfl, rfl, ?_, hc.ringSize_eq⟩
  have hring := hc.ring
  simp only [List.flatMap_cons, List.flatMap_nil, List.append_nil] at hring
  rw [hring, frames_append hpos _ hin.1]
  simp [heardFrames, offeredFrames]

theorem Drops.of_write (hch : 1 ≤ channels.toNat) {bytes : List UInt8} {enqueued dropped : Nat}
    {outs : List (List OutSample)}
    (hw : Writes format channels o o' bytes enqueued outs dropped 0)
    (hroom : bytes.length / frameSize format channels - dropped ≤
      (ringSize o - (inRing o).length) / frameSize format channels) :
    Drops format channels o o' (bytes.length / frameSize format channels) dropped
      (.wrote bytes enqueued :: outs.map .output) := by
  have hpos := frameSize_pos format hch
  have hle := hw.dropped_le
  rw [length_frames] at hle
  have hcorr : corrected (frameSize format channels) bytes dropped 0 =
      (frames (frameSize format channels) bytes).drop dropped := by
    rw [corrected, List.replicate_zero, List.nil_append]
  -- everything that is left is enqueued
  have henq : enqueued = bytes.length / frameSize format channels - dropped := by
    rw [hw.enqueued_eq, hcorr, List.length_drop, length_frames, Nat.min_eq_right hroom]
  obtain ⟨q, hq, hring⟩ := hw.ring
  rw [hcorr, List.take_of_length_le (by rw [List.length_drop, length_frames, henq])] at hring
  refine ⟨hw.aligned, by simpa using hw.correction_eq, hle, ?_, ?_, ?_, hw.ringSize_eq⟩
  · have hmask : bytes.length / frameSize format channels - enqueued = dropped := by omega
    rw [← List.singleton_append, keptFrames_append, keptFrames_outputs, List.append_nil]
    simp [keptFrames, hmask]
  · rw [← List.singleton_append, offeredFrames_append, offeredFrames_outputs, List.append_nil]
    simp [offeredFrames]
  · rw [← List.singleton_append, offeredFrames_append, offeredFrames_outputs, heardFrames_append,
      heardFrames_outputs, hring, hq, frames_append hpos _ (dvd_flatMap_heard hw.inFrames),
      frames_flatMap_heard hpos hw.inFrames]
    simp [heardFrames, offeredFrames]

/-- Only `-pending` can overflow. -/
theorem correct_ok (hpending : 0 ≤ o.correction) (bytes : List UInt8) :
    ∃ r, o.correct bytes = .ok r := by
  unfold CpalOutput.correct
  dsimp only
  split
  · split <;> exact ⟨_, rfl⟩
  · split
    · split <;> exact ⟨_, rfl⟩
    · rw [if_neg (by omega)]
      exact ⟨_, rfl⟩

theorem writeAudio_ok (dec : Decoders) (hal : Aligned format channels o)
    (hpcm : format.isPcm = true) (hpending : 0 ≤ o.correction) (data : List UInt8)
    (during : List Nat) :
    ∃ o' enqueued outs, o.writeAudio dec data during = .ok (o', enqueued, outs) := by
  obtain ⟨st, hst, -, -⟩ := hal.stream
  obtain ⟨⟨o₁, rest⟩, hcorr⟩ := correct_ok hpending data
  simp only [CpalOutput.writeAudio, hst, ringBytes_pcm dec data (hal.format_eq ▸ hpcm), hcorr]
  cases rest with
  | none => exact ⟨_, _, _, rfl⟩
  | some bytes => exact ⟨_, _, _, rfl⟩

/-- **The step rule.** -/
theorem step_drops (dec : Decoders) (hal : Aligned format channels o) (hch : 1 ≤ channels.toNat)
    (hpcm : format.isPcm = true) (hpending : 0 ≤ o.correction) {op : Op}
    (hop : op.WholeFrames channels) (hleaves : op.LeavesCorrection)
    (hfits : Fits format channels o op) :
    ∃ o' events, step dec o op = .ok (o', events) ∧
      Drops format channels o o' (op.offered (frameSize format channels))
        (drops o.correction (op.offered (frameSize format channels))) events := by
  have hno : drops o.correction 0 = 0 := Nat.le_zero.mp (drops_le o.correction 0)
  cases op with
  | write data during =>
    obtain ⟨o', enqueued, outs, hok⟩ := writeAudio_ok dec hal hpcm hpending data during
    have hwrites := write_spec hal hch hop hok
    have hbytes : (o.ringBytes dec data).2 = data := by
      rw [ringBytes_pcm dec data (hal.format_eq ▸ hpcm)]
    rw [hbytes, duplicates_of_nonneg hpending] at hwrites
    refine ⟨o', _, by simp only [step, hok, hbytes]; rfl, ?_⟩
    exact .of_write hch hwrites hfits
  | callback wanted =>
    refine ⟨_, _, rfl, ?_⟩
    change Drops format channels o _ 0 (drops o.correction 0) _
    rw [hno]
    exact .of_callback hch (callback_spec hal hop)
  | setCorrection frames => cases hleaves
  | play =>
    refine ⟨_, _, rfl, ?_⟩
    change Drops format channels o _ 0 (drops o.correction 0) _
    rw [hno, play_eq hal]
    exact .of_quiet ⟨hal.channels_eq, hal.format_eq, hal.ringFormat_eq, hal.stream⟩ rfl rfl rfl
  | setVolume _ | setMute _ | pause =>
    refine ⟨_, _, rfl, ?_⟩
    change Drops format channels o _ 0 (drops o.correction 0) _
    rw [hno]
    exact .of_quiet ⟨hal.channels_eq, hal.format_eq, hal.ringFormat_eq, hal.stream⟩ rfl rfl rfl

end

/-! ## Runs -/

section

variable {dec : Decoders} {format : AudioFormat} {channels : UInt8} {o t : CpalOutput}
  {ops past : List Op} {log out : List Event}

/-- An operation that a jump may meet. -/
structure Op.Streams (channels : UInt8) (op : Op) : Prop where
  wholeFrames : op.WholeFrames channels
  leavesCorrection : op.LeavesCorrection

/-- What a run delivers is what its mask keeps. -/
structure Selects (format : AudioFormat) (channels : UInt8) (o t : CpalOutput) (offered : Nat)
    (log : List Event) : Prop where
  aligned : Aligned format channels t
  pending : 0 ≤ t.correction
  kept_length : (keptFrames (frameSize format channels) log).length = offered
  offered_length : (offeredFrames (frameSize format channels) log).length = offered
  ring : heardFrames (frameSize format channels) log ++
      frames (frameSize format channels) (inRing t) =
    frames (frameSize format channels) (inRing o) ++
      select (keptFrames (frameSize format channels) log)
        (offeredFrames (frameSize format channels) log)

theorem totalOffered_cons (n : Nat) (op : Op) (ops : List Op) :
    totalOffered n (op :: ops) = op.offered n + totalOffered n ops := by
  rw [totalOffered, List.map_cons, List.sum_cons, totalOffered]

theorem totalOffered_append (n : Nat) (ops more : List Op) :
    totalOffered n (ops ++ more) = totalOffered n ops + totalOffered n more := by
  rw [totalOffered, List.map_append, List.sum_append, totalOffered, totalOffered]

theorem Drops.pending {o' : CpalOutput} {k : Nat} {events : List Event}
    (hd : Drops format channels o o' k (drops o.correction k) events) (h : 0 ≤ o.correction) :
    0 ≤ o'.correction := by
  have hle := drops_le_pending h k
  rw [hd.correction_eq]
  omega

/-- One more operation in front. -/
theorem Selects.cons {o' : CpalOutput} {k dropped rest : Nat} {events : List Event}
    (hd : Drops format channels o o' k dropped events)
    (hs : Selects format channels o' t rest log) :
    Selects format channels o t (k + rest) (events ++ log) := by
  have hlen : (keptFrames (frameSize format channels) events).length = k := by
    rw [hd.kept, length_tailMask hd.dropped_le]
  refine ⟨hs.aligned, hs.pending, ?_, ?_, ?_⟩
  · rw [keptFrames_append, List.length_append, hlen, hs.kept_length]
  · rw [offeredFrames_append, List.length_append, hd.offered, hs.offered_length]
  · have hselect : select (keptFrames (frameSize format channels) events)
        (offeredFrames (frameSize format channels) events) =
        (offeredFrames (frameSize format channels) events).drop dropped := by
      rw [hd.kept, ← hd.offered]
      exact select_tailMask (hd.offered ▸ hd.dropped_le)
    rw [heardFrames_append, keptFrames_append, offeredFrames_append,
      select_append (hlen.trans hd.offered.symm), hselect, List.append_assoc, hs.ring,
      ← List.append_assoc, hd.ring, List.append_assoc]

theorem run_selects (hch : 1 ≤ channels.toNat) (hpcm : format.isPcm = true)
    (hops : ∀ op ∈ ops, op.Streams channels) (hal : Aligned format channels o)
    (hpending : 0 ≤ o.correction) (hfits : Along (step dec) (Fits format channels) o ops) :
    ∃ t log, run (step dec) o ops = .ok (t, log) ∧
      Selects format channels o t (totalOffered (frameSize format channels) ops) log := by
  induction ops generalizing o with
  | nil =>
    refine ⟨o, [], rfl, hal, hpending, rfl, rfl, ?_⟩
    simp [heardFrames, offeredFrames, keptFrames, select]
  | cons op ops ih =>
    obtain ⟨hwhole, hleaves⟩ := hops op (by simp)
    obtain ⟨o', events, hstep, hd⟩ := step_drops dec hal hch hpcm hpending hwhole hleaves hfits.1
    obtain ⟨t, log, hrun, hs⟩ := ih (fun p hp => hops p (List.mem_cons_of_mem _ hp)) hd.aligned
      (hd.pending hpending) (hfits.2 o' events hstep)
    refine ⟨t, events ++ log, run_cons_ok hstep hrun, ?_⟩
    rw [totalOffered_cons]
    exact .cons hd hs

/-- With `past` offered and dropped as a jump of `c` frames does it, the rest of the
run goes on so exactly if every operation lands. -/
theorem run_lands {c : Nat} (hch : 1 ≤ channels.toNat) (hpcm : format.isPcm = true)
    (hops : ∀ op ∈ ops, op.Streams channels) (hal : Aligned format channels o)
    (hpending : o.correction = (c - totalOffered (frameSize format channels) past : Nat))
    (hfits : Along (step dec) (Fits format channels) o ops)
    (hpast : KeepsFrom c (keptFrames (frameSize format channels) log))
    (hlen : (keptFrames (frameSize format channels) log).length =
      totalOffered (frameSize format channels) past)
    (hrun : run (step dec) o ops = .ok (t, out)) :
    (KeepsFrom c (keptFrames (frameSize format channels) (log ++ out)) ↔
      Each (fun before op => Lands c (frameSize format channels) (past ++ before) op) ops) ∧
    (KeepsFrom c (keptFrames (frameSize format channels) (log ++ out)) →
      t.correction = (c - totalOffered (frameSize format channels) (past ++ ops) : Nat)) := by
  induction ops generalizing o past log out with
  | nil =>
    simp only [run_nil, Except.ok.injEq, Prod.mk.injEq] at hrun
    obtain ⟨rfl, rfl⟩ := hrun
    simp only [List.append_nil, each_nil, iff_true]
    exact ⟨hpast, fun _ => hpending⟩
  | cons op ops ih =>
    obtain ⟨hwhole, hleaves⟩ := hops op (by simp)
    obtain ⟨o', events, rest, hstep, hrest, rfl⟩ := run_cons_inv hrun
    obtain ⟨o₁, events₁, hstep₁, hd⟩ :=
      step_drops dec hal hch hpcm (by omega) hwhole hleaves hfits.1
    obtain ⟨rfl, rfl⟩ : o₁ = o' ∧ events₁ = events := by simpa using hstep₁.symm.trans hstep
    have hmask : KeepsFrom c (keptFrames (frameSize format channels) (log ++ events₁)) ↔
        Lands c (frameSize format channels) past op := by
      rw [keptFrames_append, hd.kept, keepsFrom_append_tailMask hd.dropped_le, hlen, hpending]
      exact (and_iff_right hpast).trans drops_eq_min_iff
    simp only [each_cons, List.append_nil]
    rw [← List.append_assoc]
    by_cases hlands : Lands c (frameSize format channels) past op
    case pos =>
      -- the deficit goes down by what was due
      have hdue : drops o.correction (op.offered (frameSize format channels)) =
          min (c - totalOffered (frameSize format channels) past)
            (op.offered (frameSize format channels)) := by
        rw [hpending]
        exact drops_eq_min_iff.mpr hlands
      have hmore : totalOffered (frameSize format channels) (past ++ [op]) =
          totalOffered (frameSize format channels) past +
            op.offered (frameSize format channels) := by
        rw [totalOffered_append]
        rfl
      have hleft : o₁.correction =
          (c - totalOffered (frameSize format channels) (past ++ [op]) : Nat) := by
        rw [hd.correction_eq, hdue, hpending, hmore]
        omega
      have hlen' : (keptFrames (frameSize format channels) (log ++ events₁)).length =
          totalOffered (frameSize format channels) (past ++ [op]) := by
        rw [keptFrames_append, List.length_append, hlen, hd.kept, length_tailMask hd.dropped_le,
          hmore]
      have hall := ih (fun p hp => hops p (List.mem_cons_of_mem _ hp)) hd.aligned hleft
        (hfits.2 o₁ events₁ hstep) (hmask.mpr hlands) hlen' hrest
      simpa only [List.append_assoc, List.singleton_append, hlands, true_and] using hall
    case neg =>
      have hno :
          ¬ KeepsFrom c (keptFrames (frameSize format channels) (log ++ events₁ ++ rest)) := by
        intro h
        rw [keptFrames_append] at h
        exact hlands (hmask.mp h.of_append)
      exact ⟨⟨fun h => absurd h hno, fun h => absurd h.1 hlands⟩, fun h => absurd h hno⟩

/-- A ring with room for all frames has room for each payload. -/
theorem fits_of_room (dec : Decoders) (hch : 1 ≤ channels.toNat) (hpcm : format.isPcm = true)
    (hops : ∀ op ∈ ops, op.Streams channels) (hal : Aligned format channels o)
    (hpending : 0 ≤ o.correction)
    (hroom : totalOffered (frameSize format channels) ops * frameSize format channels +
      (inRing o).length ≤ ringSize o) :
    Along (step dec) (Fits format channels) o ops := by
  have hpos := frameSize_pos format hch
  induction ops generalizing o with
  | nil => exact trivial
  | cons op ops ih =>
    obtain ⟨hwhole, hleaves⟩ := hops op (by simp)
    rw [totalOffered_cons, Nat.add_mul] at hroom
    have hfits : Fits format channels o op := by
      cases op with
      | write data during =>
        refine (Nat.sub_le _ _).trans ((Nat.le_div_iff_mul_le hpos).mpr ?_)
        simp only [Op.offered] at hroom
        omega
      | _ => exact trivial
    refine ⟨hfits, ?_⟩
    intro o' events hstep
    obtain ⟨o₁, events₁, hstep₁, hd⟩ := step_drops dec hal hch hpcm hpending hwhole hleaves hfits
    obtain ⟨rfl, rfl⟩ : o₁ = o' ∧ events₁ = events := by simpa using hstep₁.symm.trans hstep
    refine ih (fun p hp => hops p (List.mem_cons_of_mem _ hp)) hd.aligned (hd.pending hpending) ?_
    -- the ring grew by no more than what was offered
    have hframes := congrArg List.length hd.ring
    rw [List.length_append, List.length_append, List.length_drop, length_frames, length_frames,
      hd.offered] at hframes
    have hgrown : (inRing o₁).length / frameSize format channels ≤
        (inRing o).length / frameSize format channels +
          op.offered (frameSize format channels) := by omega
    have hbytes := Nat.mul_le_mul_right (frameSize format channels) hgrown
    rw [Nat.add_mul, Nat.div_mul_cancel hd.aligned.dvd_inRing,
      Nat.div_mul_cancel hal.dvd_inRing] at hbytes
    rw [hd.ringSize_eq]
    omega

end

/-- **The jump.** Let a deficit of `c` frames be pending on a PCM output, and payloads
with at least `c` whole frames come, none of which finds the ring full. What is
heard and what is in the ring is what the mask of the frames enqueued keeps. This
mask leaves out exactly the first `c` frames, with no correction pending at the
end, if and only if every payload lands: none comes while at most the threshold is
left of the deficit, unless that is at most two frames and not the whole payload. -/
theorem jump_resync_iff {dec : Decoders} {format : AudioFormat} {channels : UInt8}
    {o : CpalOutput} {c : Nat} {ops : List Op} (hch : 1 ≤ channels.toNat)
    (hpcm : format.isPcm = true) (hal : Aligned format channels o) (hpending : o.correction = c)
    (hops : ∀ op ∈ ops, op.Streams channels)
    (hfits : Along (step dec) (Fits format channels) o ops)
    (hall : c ≤ totalOffered (frameSize format channels) ops) :
    ∃ t log, run (step dec) o ops = .ok (t, log) ∧
      (keptFrames (frameSize format channels) log).length =
        (offeredFrames (frameSize format channels) log).length ∧
      heardFrames (frameSize format channels) log ++
          frames (frameSize format channels) (inRing t) =
        frames (frameSize format channels) (inRing o) ++
          select (keptFrames (frameSize format channels) log)
            (offeredFrames (frameSize format channels) log) ∧
      (KeepsFrom c (keptFrames (frameSize format channels) log) ∧ t.correction = 0 ↔
        Each (Lands c (frameSize format channels)) ops) := by
  obtain ⟨t, log, hrun, hs⟩ := run_selects hch hpcm hops hal (by omega) hfits
  refine ⟨t, log, hrun, hs.kept_length.trans hs.offered_length.symm, hs.ring, ?_⟩
  have hpending' : o.correction =
      (c - totalOffered (frameSize format channels) [] : Nat) := by
    simpa [totalOffered] using hpending
  have hnone : KeepsFrom c (keptFrames (frameSize format channels) []) := keepsFrom_nil c
  obtain ⟨hiff, hleft⟩ := run_lands hch hpcm hops hal hpending' hfits hnone rfl hrun
  simp only [List.nil_append] at hiff hleft
  rw [← hiff]
  refine ⟨fun h => h.1, fun h => ⟨h, ?_⟩⟩
  rw [hleft h]
  omega

/-! ### Two payloads -/

/-- 16-bit stereo with `c` frames to drop. -/
def laggingOutput (c : Nat) : CpalOutput := stereoOutput.setCorrection c

/-- Two payloads of so many frames of silence. -/
def twoPayloads (j k : Nat) : List Op :=
  [.write (List.replicate (j * 4) 0) [], .write (List.replicate (k * 4) 0) []]

theorem aligned_lagging (c : Nat) : Aligned .pcmS16le 2 (laggingOutput c) := by
  have hconf : CpalOutput.new.configure .pcmS16le 48000 2 plainOpening =
      (stereoOutput, .ok ()) := rfl
  obtain ⟨hal, -⟩ := aligned_configure hconf
  exact ⟨hal.channels_eq, hal.format_eq, hal.ringFormat_eq, hal.stream⟩

theorem twoPayloads_streams (j k : Nat) : ∀ op ∈ twoPayloads j k, op.Streams 2 := by
  intro op hop
  rcases List.mem_pair.mp hop with rfl | rfl
  · exact ⟨by simp [Op.WholeFrames], trivial⟩
  · exact ⟨by simp [Op.WholeFrames], trivial⟩

theorem totalOffered_twoPayloads (j k : Nat) : totalOffered 4 (twoPayloads j k) = j + k := by
  simp [totalOffered, twoPayloads, Op.offered]

theorem twoPayloads_fit {c j k : Nat} (h : j + k ≤ 48000) :
    Along (step pcmOnly) (Fits .pcmS16le 2) (laggingOutput c) (twoPayloads j k) := by
  have hsize : ringSize (laggingOutput c) = 192000 := by
    have hstereo : ringSize stereoOutput = 192000 := by decide +kernel
    exact hstereo
  refine fits_of_room pcmOnly (by decide) rfl (twoPayloads_streams j k) (aligned_lagging c)
    (Int.natCast_nonneg c) ?_
  change totalOffered 4 (twoPayloads j k) * 4 + 0 ≤ _
  rw [totalOffered_twoPayloads, hsize]
  omega

theorem twoPayloads_land_iff {c j k : Nat} :
    Each (Lands c 4) (twoPayloads j k) ↔
      (0 < j → 0 < c → c ≤ 1200 → c ≤ 2 ∧ c < j) ∧
        (0 < k → j < c → c ≤ j + 1200 → c ≤ j + 2 ∧ c < j + k) := by
  have hmax : MAX_CORRECTION_FRAMES_PER_WRITE = 2 := rfl
  have hjump : JUMP_THRESHOLD_FRAMES = 1200 := rfl
  simp only [twoPayloads, each_cons, each_nil, and_true, Lands, totalOffered, Op.offered,
    List.length_replicate, List.map_nil, List.map_cons, List.sum_nil, List.sum_cons,
    Nat.mul_div_cancel _ (by decide : 0 < 4), hmax, hjump]
  omega

/-- Of 1202 frames the first payload takes all but two, and the second has more. -/
theorem jump_resync_iff_landing :
    ∃ t log, run (step pcmOnly) (laggingOutput 1202) (twoPayloads 1200 1300) = .ok (t, log) ∧
      KeepsFrom 1202 (keptFrames 4 log) ∧ t.correction = 0 := by
  have hall : 1202 ≤ totalOffered (frameSize .pcmS16le 2) (twoPayloads 1200 1300) :=
    (totalOffered_twoPayloads 1200 1300).symm ▸ by decide
  obtain ⟨t, log, hrun, -, -, hiff⟩ :=
    jump_resync_iff (by decide) rfl (aligned_lagging 1202) rfl (twoPayloads_streams 1200 1300)
      (twoPayloads_fit (by decide)) hall
  exact ⟨t, log, hrun, hiff.mpr (twoPayloads_land_iff.mpr (by decide))⟩

/-- Of 1201 frames the first payload takes one. The second meets the fine regime,
which drops two frames of it. -/
theorem jump_cut_short :
    1201 ≤ totalOffered 4 (twoPayloads 1 2000) ∧
    Along (step pcmOnly) (Fits .pcmS16le 2) (laggingOutput 1201) (twoPayloads 1 2000) ∧
    ∃ t log, run (step pcmOnly) (laggingOutput 1201) (twoPayloads 1 2000) = .ok (t, log) ∧
      ¬ (KeepsFrom 1201 (keptFrames 4 log) ∧ t.correction = 0) := by
  have hfits : Along (step pcmOnly) (Fits .pcmS16le 2) (laggingOutput 1201) (twoPayloads 1 2000) :=
    twoPayloads_fit (by decide)
  refine ⟨by rw [totalOffered_twoPayloads]; decide, hfits, ?_⟩
  have hstreams := twoPayloads_streams 1 2000
  have hal := aligned_lagging 1201
  obtain ⟨t, log, hrun, -⟩ := run_selects (by decide) rfl hstreams hal (by decide) hfits
  refine ⟨t, log, hrun, ?_⟩
  rintro ⟨hkept, -⟩
  have hpending : (laggingOutput 1201).correction =
      (1201 - totalOffered (frameSize .pcmS16le 2) [] : Nat) := rfl
  have hnone : KeepsFrom 1201 (keptFrames (frameSize .pcmS16le 2) []) := keepsFrom_nil 1201
  obtain ⟨hiff, -⟩ := run_lands (by decide) rfl hstreams hal hpending hfits hnone rfl hrun
  have hland : Each (Lands 1201 4) (twoPayloads 1 2000) := hiff.mp hkept
  exact absurd (twoPayloads_land_iff.mp hland) (by decide)

end Oaat.Cpal
