/-
Oaat.Cli.Tracking — the drift tracker and the output it belongs to.

The servo compares the output's position with the tracker, so both must be of
one configuration. FormatProposed, Stop, Pause, Seek and release drop the
tracker; the next track's format configures the output and drops nothing, and
leaves `stream_sample_rate` as it is. The log tells what happened last: the
tracker was set, or the output was configured.
-/
import Oaat.Cli.Playback

namespace Oaat.Cli

open Oaat.Core Oaat.Endpoint Oaat.Lib

/-! ## What holds in any case -/

/-- The tracker has the stream's rate, and there is none on a released output. -/
structure Coherent {B : Backend} (s : Endpoint B) : Prop where
  rate : ∀ t, s.tracker = some t → t.sampleRate = s.streamSampleRate
  released : s.released = true → NotPlaying s ∧ s.tracker = none

section

variable {B : Backend} {build : Build} {s s' : Endpoint B} {effects : List Effect} {a : Action B}

theorem Coherent.of_untracked (htracker : s.tracker = none)
    (hrel : s.released = true → NotPlaying s) : Coherent s := by
  refine ⟨?_, fun h => ⟨hrel h, htracker⟩⟩
  intro t ht
  rw [htracker] at ht
  cases ht

theorem step_coherent (hs : Coherent s) (hstep : s.step build a = .ok (s', effects)) :
    Coherent s' := by
  have hrel' := step_released (fun h => (hs.released h).1) hstep
  cases step_inv hstep with
  | ticks w inUse idle audio tracker drift stats hserved =>
    refine ⟨?_, fun h => ⟨hrel' h, ?_⟩⟩
    · intro t ht
      rcases hserved.tracker_eq with rfl | ⟨-, t₀, startNs, -, rfl⟩
      · exact hs.rate t ht
      · cases ht
        rfl
    · rcases hserved.tracker_eq with rfl | ⟨-, t₀, startNs, ht₀, -⟩
      · exact (hs.released h).2
      · rw [(hs.released h).2] at ht₀
        cases ht₀
  | packetStarts header payload w h audio wrote head hw hyes =>
    obtain ⟨-, hreleased, hrate, ⟨startNs, htracker⟩, -⟩ := deferredStart_frame
      { s with packetCount := s.packetCount + 1, totalBytes := s.totalBytes + payload.length,
               audio } w head
    refine ⟨?_, ?_⟩
    · intro t ht
      rw [htracker] at ht
      cases ht
      exact hrate.symm
    · intro h
      rw [(hs.released (hreleased.symm.trans h)).1.1] at hyes
      cases hyes
  | plays streamId w h audio reopened hre =>
    obtain ⟨-, hreleased, htracker, hrate, -⟩ :=
      begin_frame { s with released := false, audio, outputInUse := true }
    refine ⟨?_, ?_⟩
    · intro t ht
      rw [htracker] at ht
      rw [hrate]
      exact hs.rate t ht
    · intro h
      rw [hreleased] at h
      cases h
  | proposes | pauses | stops | seeks | releases => exact .of_untracked rfl hrel'
  | disconnects => exact ⟨hs.rate, nofun⟩
  | starts w startAt hd => exact ⟨hs.rate, fun h => ⟨hrel' h, (hs.released h).2⟩⟩
  | connects | packet | reformatIgnored | reformats | volumes | reports | errs | switches | hosts =>
    exact ⟨hs.rate, hs.released⟩

end

/-! ## The tracker and the output -/

/-- The output has not been configured since the tracker was last set. -/
def SinceTracked (log : List Effect) : Prop :=
  ∃ before after, log = before ++ .tracked :: after ∧ .configured ∉ after

theorem SinceTracked.append {log more : List Effect} (h : SinceTracked log)
    (hmore : .configured ∉ more) : SinceTracked (log ++ more) := by
  obtain ⟨before, after, rfl, hafter⟩ := h
  exact ⟨before, after ++ more, by simp, by simp [hafter, hmore]⟩

theorem sinceTracked_tracked (log : List Effect) : SinceTracked (log ++ [.tracked]) :=
  ⟨log, [], rfl, by simp⟩

/-- Once the output is configured, a tracker set before is of an earlier
configuration. -/
theorem not_sinceTracked_configured (log : List Effect) (opened : Bool) :
    ¬ SinceTracked (log ++ .configured :: Endpoint.openedIf opened) := by
  rintro ⟨before, after, hsplit, hafter⟩
  -- what follows the tracker's setting reaches over the configuration
  have htail : .tracked ∉ (.configured :: Endpoint.openedIf opened : List Effect) := by
    cases opened <;> simp [Endpoint.openedIf]
  rcases List.append_eq_append_iff.mp hsplit with ⟨mid, -, hmid⟩ | ⟨mid, -, hmid⟩
  · exact htail (hmid ▸ by simp)
  · cases mid with
    | nil =>
      rw [List.nil_append] at hmid
      cases hmid
    | cons e mid =>
      rw [List.cons_append] at hmid
      cases hmid
      exact hafter (by simp)

section

variable {dec : Decoders} {build : Build} {s s' : Endpoint (cpalBackend dec)}
  {effects log : List Effect} {a : Action (cpalBackend dec)}

/-- The tracker is of the output's configuration. -/
def Matches (s : Endpoint (cpalBackend dec)) (log : List Effect) : Prop :=
  ∀ t, s.tracker = some t → t.sampleRate = CpalOutput.sampleRate s.audio ∧ SinceTracked log

/-- The next track's format comes while there is no tracker, or is ignored; and
a stream starts at the rate that the output is configured with. -/
def Tracks (s : Endpoint (cpalBackend dec)) : Action (cpalBackend dec) → Prop
  | .event (.control (.nextTrackReformat _ _ _)) _ _ => s.released = true ∨ s.tracker = none
  | .event (.audioPacket _ _) _ _ =>
    s.armed = true → s.started = false → s.streamSampleRate = CpalOutput.sampleRate s.audio
  | _ => True

theorem Matches.of_untracked (htracker : s.tracker = none) : Matches s log := by
  intro t ht
  rw [htracker] at ht
  cases ht

/-- Nothing but the output's position and the log moved on. -/
theorem Matches.of_same (hs : Matches s log) (htracker : s'.tracker = s.tracker)
    (hrate : CpalOutput.sampleRate s'.audio = CpalOutput.sampleRate s.audio)
    (hlog : .configured ∉ effects) : Matches s' (log ++ effects) := by
  intro t ht
  obtain ⟨hold, hsince⟩ := hs t (htracker.symm.trans ht)
  exact ⟨hold.trans hrate.symm, hsince.append hlog⟩

theorem play_sampleRate (o : CpalOutput) : o.play.sampleRate = o.sampleRate := by
  unfold CpalOutput.play
  split <;> rfl

theorem Wrote.sampleRate {header : AudioPacketHeader} {payload : List UInt8}
    {h : (cpalBackend dec).Host} {audio : (cpalBackend dec).State}
    (hw : Wrote s header payload h audio effects) :
    CpalOutput.sampleRate audio = CpalOutput.sampleRate s.audio ∧ .configured ∉ effects := by
  cases hw with
  | ignored => exact ⟨rfl, by simp⟩
  | written _ opened _ _ hwrite =>
    refine ⟨?_, by cases opened <;> simp [Endpoint.openedIf]⟩
    simp only [cpalBackend] at hwrite
    split at hwrite
    next => cases hwrite
    next o pushed outs hok =>
      cases hwrite
      exact (writeAudio_same hok).sampleRate

theorem Served.sampleRate {audio : (cpalBackend dec).State} {tracker : Option PtsTracker}
    (hserved : Served s audio tracker) :
    CpalOutput.sampleRate audio = CpalOutput.sampleRate s.audio := by
  rcases hserved.audio_eq with rfl | ⟨-, -, c, rfl⟩
  · rfl
  · rfl

theorem Reopened.kept_of_released {audio : (cpalBackend dec).State} {h : (cpalBackend dec).Host}
    (hre : Reopened s h audio effects) (hrel : s.released = false) :
    audio = s.audio ∧ effects = [] := by
  cases hre with
  | kept => exact ⟨rfl, rfl⟩
  | unknown hyes =>
    rw [hrel] at hyes
    cases hyes
  | configured _ _ _ _ hyes =>
    rw [hrel] at hyes
    cases hyes

theorem Regulated.sampleRate {audio : (cpalBackend dec).State} (hreg : Regulated s audio) :
    CpalOutput.sampleRate audio = CpalOutput.sampleRate s.audio := by
  cases hreg <;> rfl

/-- The deferred start tracks the output exactly when the output is configured
at the stream's rate. -/
theorem deferredStart_matches (s : Endpoint (cpalBackend dec)) (w : World) (head : UInt64)
    (log wrote : List Effect) :
    Matches (s.deferredStart w head) (log ++ (wrote ++ [.tracked])) ↔
      s.streamSampleRate = CpalOutput.sampleRate s.audio := by
  obtain ⟨-, -, -, ⟨startNs, htracker⟩, haudio⟩ := deferredStart_frame s w head
  have hrate : CpalOutput.sampleRate (s.deferredStart w head).audio =
      CpalOutput.sampleRate s.audio := by
    rcases haudio with haudio | haudio
    · rw [haudio]
    · rw [haudio]
      exact play_sampleRate _
  constructor
  · intro hmatch
    exact (hmatch _ htracker).1.trans hrate
  · intro hstream t ht
    rw [htracker] at ht
    cases ht
    refine ⟨hstream.trans hrate.symm, ?_⟩
    rw [← List.append_assoc]
    exact sinceTracked_tracked _

/-- A pass keeps the tracker on the output's configuration exactly when
`Tracks` holds of it. -/
theorem step_matches (hcoh : Coherent s) (hs : Matches s log)
    (hstep : s.step build a = .ok (s', effects)) : Matches s' (log ++ effects) ↔ Tracks s a := by
  have hsame : s'.tracker = s.tracker →
      CpalOutput.sampleRate s'.audio = CpalOutput.sampleRate s.audio → .configured ∉ effects →
      (Matches s' (log ++ effects) ↔ True) :=
    fun htracker hrate hlog => iff_true_intro (hs.of_same htracker hrate hlog)
  cases step_inv hstep with
  | starts w startAt hd => exact hsame rfl (play_sampleRate s.audio) (by simp)
  | ticks w inUse idle audio tracker drift stats hserved _ hstats =>
    have hlog : .configured ∉ (if inUse = s.outputInUse then [] else [.hook .stop]) ++ stats := by
      rcases hstats with rfl | ⟨-, ss, rfl⟩ <;> split <;> simp
    rcases hserved.tracker_eq with rfl | ⟨-, t₀, startNs, ht₀, rfl⟩
    · exact hsame rfl hserved.sampleRate hlog
    · -- rebased, at the stream's rate, which is that of the tracker before
      refine iff_true_intro ?_
      intro t ht
      cases ht
      obtain ⟨hold, hsince⟩ := hs t₀ ht₀
      refine ⟨?_, hsince.append hlog⟩
      exact (hcoh.rate t₀ ht₀).symm.trans (hold.trans hserved.sampleRate.symm)
  | packet header payload w h audio wrote hw hidle =>
    obtain ⟨hrate, hlog⟩ := hw.sampleRate
    rw [hsame rfl hrate hlog]
    simp only [Tracks, true_iff]
    intro hyes hno
    rw [hidle hyes] at hno
    cases hno
  | packetStarts header payload w h audio wrote head hw hyes hno =>
    obtain ⟨hrate, -⟩ := hw.sampleRate
    refine (deferredStart_matches _ w head log wrote).trans ?_
    change s.streamSampleRate = CpalOutput.sampleRate audio ↔ _
    rw [hrate]
    exact ⟨fun hstream _ _ => hstream, fun htracks => htracks hyes hno⟩
  | plays streamId w h audio reopened hre =>
    obtain ⟨-, -, htracker, -, haudio⟩ :=
      begin_frame { s with released := false, audio, outputInUse := true }
    cases hrel : s.released with
    | true =>
      refine iff_true_intro (Matches.of_untracked ?_)
      exact htracker.trans (hcoh.released hrel).2
    | false =>
      obtain ⟨rfl, rfl⟩ := hre.kept_of_released hrel
      refine hsame htracker ?_ (by split <;> simp)
      rcases haudio with haudio | haudio
      · rw [haudio]
      · rw [haudio]
        exact play_sampleRate _
  | reformats streamId format sampleRate w h audio opened r hrel hc =>
    simp only [Tracks, hrel, Bool.false_eq_true, false_or]
    constructor
    · intro hmatch
      cases ht : s.tracker with
      | none => rfl
      | some t => exact absurd (hmatch t ht).2 (not_sinceTracked_configured log opened)
    · intro hnone
      exact Matches.of_untracked hnone
  | reformatIgnored streamId format sampleRate w h hrel =>
    simp only [Tracks, hrel, true_or]
    exact hsame rfl rfl (by simp)
  | proposes | pauses | stops | seeks | releases =>
    exact iff_true_intro (Matches.of_untracked rfl)
  | volumes cmd w h audio hreg => exact hsame rfl hreg.sampleRate (by simp)
  | reports e w h he =>
    have hother : Tracks s (.event (.control e) w h) ↔ True := by
      cases e with
      | nextTrackReformat => cases he
      | _ => exact Iff.rfl
    rw [hother]
    exact hsame rfl rfl (by simp)
  | disconnects w h audio opened hstop =>
    cases hstop
    refine hsame rfl rfl ?_
    cases s.outputInUse <;> simp [Endpoint.openedIf]
  | hosts h audio opened hh =>
    cases hh
    exact hsame rfl (callbacks_same s.audio h.callbacks).sampleRate (by simp [Endpoint.openedIf])
  | connects | errs | switches => exact hsame rfl rfl (by simp)

/-- A servo tick that sets a correction has a tracker for it. -/
theorem Matches.servo (hs : Matches s log) {w : World}
    (hok : s.servoTick build w = .ok (s', effects)) (hcorrects : s'.audio ≠ s.audio) :
    ∃ t, s.tracker = some t ∧ t.sampleRate = CpalOutput.sampleRate s.audio ∧
      SinceTracked log := by
  cases servoTick_inv hok with
  | ticks _ inUse idle audio tracker drift stats hserved =>
    rcases hserved.audio_eq with rfl | ⟨-, hsome, -⟩
    · exact absurd rfl hcorrects
    · obtain ⟨t, ht⟩ := Option.isSome_iff_exists.mp hsome
      exact ⟨t, ht, hs t ht⟩

/-- **The tracker matches the output**, exactly when the next track's format only
comes while there is no tracker and a stream starts at the output's rate: then,
and only then, in every state of the run a tracker has the rate that the output
is configured with, and the output has not been configured since it was set. In
such a state the servo corrects by that tracker only. -/
theorem tracker_matches_output {mixer : Bool} {device : Option (List Char)}
    {acts : List (Action (cpalBackend dec))} {t : Endpoint (cpalBackend dec)}
    (hrun : run (Endpoint.step build) (.new _ mixer device) acts = .ok (t, log)) :
    (Throughout (Endpoint.step build) Matches (.new _ mixer device) acts ↔
      Along (Endpoint.step build) Tracks (.new _ mixer device) acts) ∧
    ∀ (s s' : Endpoint (cpalBackend dec)) (before effects : List Effect) (w : World),
      Matches s before → s.servoTick build w = .ok (s', effects) → s'.audio ≠ s.audio →
      ∃ t, s.tracker = some t ∧ t.sampleRate = CpalOutput.sampleRate s.audio ∧
        SinceTracked before := by
  refine ⟨?_, fun s s' before effects w hs hok hcorrects => hs.servo hok hcorrects⟩
  have hnew : Coherent (Endpoint.new (cpalBackend dec) mixer device) := .of_untracked rfl nofun
  refine throughout_iff_along_of acts Matches _ t log ?_ hnew (fun _ _ => trivial)
    (.of_untracked rfl) hrun
  intro r before a r' o hr _ hmatch hstep
  exact ⟨step_matches hr hmatch hstep, fun _ => step_coherent hr hstep⟩

end

/-! ### Two runs -/

def nextTrack44 : Action (cpalBackend Cpal.pcmOnly) :=
  cpalEvent (.control (.nextTrackReformat "n" .pcmS16le 44100))

/-- The next track is at another rate than the tracker. -/
theorem tracker_after_reformat :
    (run (Endpoint.step .release) cpalEndpoint (playing ++ [silentPacket, nextTrack44])).map
      (fun r => (r.1.tracker.map (·.sampleRate), CpalOutput.sampleRate r.1.audio)) =
      .ok (some 48000, 44100) ∧
    ∀ t log, run (Endpoint.step .release) cpalEndpoint (playing ++ [silentPacket, nextTrack44]) =
      .ok (t, log) → ¬ Matches t log := by
  have hrun : (run (Endpoint.step .release) cpalEndpoint
      (playing ++ [silentPacket, nextTrack44])).map
      (fun r => (r.1.tracker.map (·.sampleRate), CpalOutput.sampleRate r.1.audio)) =
      .ok (some 48000, 44100) := by decide +kernel
  refine ⟨hrun, ?_⟩
  intro t log ht hmatch
  rw [ht] at hrun
  simp only [Except.map, Except.ok.injEq, Prod.mk.injEq, Option.map_eq_some_iff] at hrun
  obtain ⟨⟨tr, htr, hold⟩, hnew⟩ := hrun
  have hrate := (hmatch tr htr).1
  rw [hold, hnew] at hrate
  exact absurd hrate (by decide)

instance (s : Endpoint (cpalBackend dec)) (a : Action (cpalBackend dec)) :
    Decidable (Tracks s a) := by
  unfold Tracks
  split <;> infer_instance

/-- The controller stops the stream and proposes the next track's format. -/
def properNextTrack : List (Action (cpalBackend Cpal.pcmOnly)) :=
  playing ++ [silentPacket, .servoTick (localWorld 0 0),
    cpalEvent (.control (.playback (.stop "s"))), nextTrack44,
    cpalEvent (.control (.formatProposed (stereoProposal "n" 44100))),
    cpalEvent (.control (.playback (.play "n"))), silentPacket]

theorem properNextTrack_matches :
    (run (Endpoint.step .release) cpalEndpoint properNextTrack).map
      (fun r => (r.1.tracker.map (·.sampleRate), CpalOutput.sampleRate r.1.audio)) =
      .ok (some 44100, 44100) ∧
    ∀ t log, run (Endpoint.step .release) cpalEndpoint properNextTrack = .ok (t, log) →
      Throughout (Endpoint.step .release) Matches cpalEndpoint properNextTrack := by
  refine ⟨by decide +kernel, ?_⟩
  intro t log hrun
  exact (tracker_matches_output hrun).1.mpr (by decide +kernel)

end Oaat.Cli
