/-
Oaat.Cli.Hooks — the hooks, and whether the output plays.

The hooks tell the host when the endpoint starts and stops using the output.
`output_in_use` makes them alternate in every run (`hooks_step`). The output can
play without being in use: `flush` plays after any Seek, and a start that was
armed or scheduled stays so when the controller leaves or when the loop finds the
device closed. The main theorem says that these are the only ways.
-/
import Mathlib.Data.List.Chain
import Oaat.Cli.Released

namespace Oaat.Cli

open Oaat.Core Oaat.Endpoint Oaat.Lib

/-- The hooks that are fired. -/
def hooksIn (log : List Effect) : List Hook :=
  log.filterMap fun
    | .hook h => some h
    | _ => none

/-- The hooks alternate, and the first is `start`: as if a `stop` came before. -/
def Alternate (hooks : List Hook) : Prop := (Hook.stop :: hooks).IsChain (· ≠ ·)

/-- The hook that was fired last says whether the output is in use. -/
def Told {B : Backend} (s : Endpoint B) (log : List Effect) : Prop :=
  Alternate (hooksIn log) ∧
    (Hook.stop :: hooksIn log).getLast? = some (if s.outputInUse then .start else .stop)

/-- While the output plays, the last hook is `start`. -/
def Mirrors {B : Backend} (s : Endpoint B) (log : List Effect) : Prop :=
  Alternate (hooksIn log) ∧
    (B.isPlaying s.audio = true → (hooksIn log).getLast? = some .start)

/-- The lead that a start is scheduled with. -/
def isScheduled (w : World) (head : UInt64) : Bool :=
  let leadNs := (w.clock.controllerToLocal head).toNat - w.now.toNat
  w.clock.bootstrapped && leadNs > 0 && leadNs < 5_000_000_000

/-- The packet starts an armed output at once. -/
def startsNow {B : Backend} (build : Build) (s : Endpoint B) (w : World)
    (header : AudioPacketHeader) : Bool :=
  s.armed && !s.started &&
    match s.headPtsNs build header (B.bufferLevel s.audio) with
    | .ok head => !isScheduled w head
    | .error _ => false

/-- The pass makes the output play, other than by Play: the start timer, a packet
that starts an armed output at once, and the `flush` of a Seek. -/
def startsOutput (output : Output) (build : Build) (s : Endpoint output.backend) :
    Action output.backend → Bool
  | .startTimer _ => output.backend.isPlaying (output.backend.play s.audio)
  | .event (.audioPacket header _) w _ =>
    startsNow build s w header && output.backend.isPlaying (output.backend.play s.audio)
  | .event (.control (.playback (.seek _ _))) _ h => flushPlays output h
  | _ => false

/-- Whatever makes the output play finds it in use. -/
def InUse (output : Output) (build : Build) (s : Endpoint output.backend)
    (a : Action output.backend) : Prop :=
  startsOutput output build s a = true → s.outputInUse = true

/-! ## The hooks of a pass -/

section

variable {B : Backend} {build : Build} {s s' : Endpoint B} {a : Action B} {effects : List Effect}

theorem hooksIn_append (l₁ l₂ : List Effect) : hooksIn (l₁ ++ l₂) = hooksIn l₁ ++ hooksIn l₂ :=
  List.filterMap_append

theorem hooksIn_eq_nil {l : List Effect} (hnone : ∀ e ∈ l, ∀ hook, e ≠ .hook hook) :
    hooksIn l = [] := by
  refine List.filterMap_eq_nil_iff.mpr ?_
  intro e he
  cases e with
  | hook hook => exact absurd rfl (hnone _ he hook)
  | _ => rfl

theorem hooksIn_openedIf (opened : Bool) : hooksIn (Endpoint.openedIf opened) = [] := by
  refine hooksIn_eq_nil ?_
  rintro e he hook rfl
  cases eq_of_mem_openedIf he

theorem hooksIn_stop (b : Bool) :
    hooksIn (if b then [.hook .stop] else []) = if b then [.stop] else [] := by
  cases b <;> rfl

theorem Wrote.hooksIn {header : AudioPacketHeader} {payload : List UInt8} {h : B.Host}
    {audio : B.State} (hwrote : Wrote s header payload h audio effects) :
    Cli.hooksIn effects = [] := by
  refine hooksIn_eq_nil ?_
  rintro e he hook rfl
  rcases hwrote.effect he with he | he <;> cases he

theorem Reopened.hooksIn {h : B.Host} {audio : B.State}
    (hre : Reopened s h audio effects) : Cli.hooksIn effects = [] := by
  refine hooksIn_eq_nil ?_
  rintro e he hook rfl
  rcases hre.effect he with he | he <;> cases he

theorem begin_outputInUse (s : Endpoint B) : s.begin.outputInUse = s.outputInUse := by
  unfold Endpoint.begin
  split
  next => rfl
  next => split <;> rfl

/-- What the deferred start does to the output. -/
theorem deferredStart_eq (s : Endpoint B) (w : World) (head : UInt64) :
    (s.deferredStart w head).outputInUse = s.outputInUse ∧
      (s.deferredStart w head).audio =
        if isScheduled w head then s.audio else B.play s.audio := by
  unfold Endpoint.deferredStart isScheduled
  dsimp only
  split <;> exact ⟨rfl, rfl⟩

/-- **The hooks of a pass**: `start` or `stop` when the output comes into use or goes
out of it, and no other. -/
theorem hooks_step (hstep : s.step build a = .ok (s', effects)) :
    hooksIn effects =
      if s'.outputInUse = s.outputInUse then []
      else if s'.outputInUse then [.start] else [.stop] := by
  -- most passes fire none and leave the flag alone
  have hnone (hflag : s'.outputInUse = s.outputInUse) (hooks : hooksIn effects = []) :
      hooksIn effects = if s'.outputInUse = s.outputInUse then []
        else if s'.outputInUse then [.start] else [.stop] := by
    rw [hooks, if_pos hflag]
  -- these end the use of the output
  have hleave (hflag : s'.outputInUse = false)
      (hooks : hooksIn effects = if s.outputInUse then [.stop] else []) :
      hooksIn effects = if s'.outputInUse = s.outputInUse then []
        else if s'.outputInUse then [.start] else [.stop] := by
    rw [hooks, hflag]
    cases s.outputInUse <;> rfl
  cases step_inv hstep with
  | ticks w inUse ticks audio tracker lastDrift stats hserved hinUse hstats =>
    have hsilent : hooksIn stats = [] := by
      rcases hstats with rfl | ⟨-, ss, rfl⟩ <;> rfl
    rw [hooksIn_append, hsilent, List.append_nil]
    rcases hinUse with rfl | ⟨huse, rfl, -, -⟩
    · simp [hooksIn]
    · simp [hooksIn, huse]
  | proposes fp w h audio opened r verdict =>
    refine hnone rfl ?_
    rw [hooksIn_append, ← List.singleton_append, hooksIn_append, hooksIn_openedIf]
    rfl
  | packet header payload w h audio wrote hwrote => exact hnone rfl hwrote.hooksIn
  | packetStarts header payload w h audio wrote head hwrote =>
    refine hnone (deferredStart_eq _ w head).1 ?_
    rw [hooksIn_append, hwrote.hooksIn]
    rfl
  | plays streamId w h audio reopened hre =>
    rw [hooksIn_append, hre.hooksIn, begin_outputInUse]
    cases s.outputInUse <;> rfl
  | stops streamId w h audio opened =>
    refine hleave rfl ?_
    rw [hooksIn_append, hooksIn_openedIf, hooksIn_stop, List.nil_append]
  | disconnects w h audio opened =>
    refine hleave rfl ?_
    rw [hooksIn_append, hooksIn_openedIf, hooksIn_stop, List.nil_append]
  | releases h audio opened told hrel htold =>
    have hsilent : hooksIn told = [] := by
      rcases htold with rfl | ⟨-, er, rfl⟩ <;> rfl
    refine hleave rfl ?_
    rw [hooksIn_append, hooksIn_append, hooksIn_openedIf, hsilent, hooksIn_stop]
    rfl
  | seeks streamId positionMs w h audio opened => exact hnone rfl (hooksIn_openedIf opened)
  | reformats streamId format sampleRate w h audio opened =>
    exact hnone rfl (hooksIn_openedIf opened)
  | hosts h audio opened => exact hnone rfl (hooksIn_openedIf opened)
  | _ => exact hnone rfl rfl

/-- One more hook, other than the last. -/
theorem alternate_concat {hooks : List Hook} {last next : Hook}
    (halternate : (Hook.stop :: hooks).IsChain (· ≠ ·))
    (hlast : (Hook.stop :: hooks).getLast? = some last) (hne : last ≠ next) :
    (Hook.stop :: hooks ++ [next]).IsChain (· ≠ ·) := by
  refine halternate.append (.singleton next) ?_
  intro x hx y hy
  obtain rfl : last = x := Option.some.inj (hlast.symm.trans hx)
  obtain rfl : next = y := Option.some.inj hy
  exact hne

theorem told_step {log : List Effect} (htold : Told s log)
    (hstep : s.step build a = .ok (s', effects)) : Told s' (log ++ effects) := by
  obtain ⟨halternate, hlast⟩ := htold
  unfold Told Alternate
  rw [hooksIn_append, hooks_step hstep, ← List.cons_append]
  split
  next hflag =>
    rw [List.append_nil, hflag]
    exact ⟨halternate, hlast⟩
  next hflag =>
    cases hbefore : s.outputInUse with
    | false =>
      have hafter : s'.outputInUse = true := by simpa [hbefore] using hflag
      rw [hbefore] at hlast
      rw [hafter]
      exact ⟨alternate_concat halternate hlast (by decide), List.getLast?_concat⟩
    | true =>
      have hafter : s'.outputInUse = false := by simpa [hbefore] using hflag
      rw [hbefore] at hlast
      rw [hafter]
      exact ⟨alternate_concat halternate hlast (by decide), List.getLast?_concat⟩

theorem told_new (mixer : Bool) (device : Option (List Char)) :
    Told (Endpoint.new B mixer device) [] := ⟨.singleton _, rfl⟩

/-- The last hook is `start` exactly while the output is in use. -/
theorem Told.last_iff {log : List Effect} (htold : Told s log) :
    (hooksIn log).getLast? = some .start ↔ s.outputInUse = true := by
  have hlast := htold.2
  rw [List.getLast?_cons] at hlast
  cases huse : s.outputInUse <;> cases hhooks : (hooksIn log).getLast? <;>
    simp_all

theorem Told.mirrors_iff {log : List Effect} (htold : Told s log) :
    Mirrors s log ↔ (B.isPlaying s.audio = true → s.outputInUse = true) := by
  rw [Mirrors, htold.last_iff]
  exact and_iff_right htold.1

end

/-! ## What makes the output play -/

section

variable {output : Output} {build : Build} {s s' : Endpoint output.backend}
  {a : Action output.backend} {effects : List Effect}

theorem SameStream.playable {o o' : CpalOutput} (hsame : SameStream o o') :
    o'.play.playing = o.play.playing := by
  have hplay : ∀ o : CpalOutput, o.play.playing = (o.stream.isSome || o.playing) := by
    intro o
    unfold CpalOutput.play
    cases o.stream <;> rfl
  rw [hplay, hplay, hsame.playing, hsame.isSome_stream]

/-- Writing a packet does not change whether `play` would start the output. -/
theorem Wrote.playable {header : AudioPacketHeader} {payload : List UInt8}
    {h : output.backend.Host} {audio : output.backend.State}
    (hwrote : Wrote s header payload h audio effects) :
    output.backend.isPlaying (output.backend.play audio) =
      output.backend.isPlaying (output.backend.play s.audio) := by
  cases hwrote with
  | ignored => rfl
  | written audio opened hpayload hrel hok =>
    cases output with
    | alsa conv => rfl
    | cpal dec =>
      simp only [Output.backend, cpalBackend] at hok
      split at hok
      next => cases hok
      next o pushed outs hwrite =>
        cases hok
        exact (writeAudio_same hwrite).playable

theorem packet_playing {header : AudioPacketHeader} {payload : List UInt8} {w : World}
    {h : output.backend.Host}
    (hstep : s.step build (.event (.audioPacket header payload) w h) = .ok (s', effects)) :
    s'.outputInUse = s.outputInUse ∧
      output.backend.isPlaying s'.audio =
        if startsNow build s w header then
          output.backend.isPlaying (output.backend.play s.audio)
        else output.backend.isPlaying s.audio := by
  have hB := playsOnly output
  simp only [Endpoint.step, Endpoint.event, Endpoint.audioPacket] at hstep
  obtain ⟨⟨s₁, wrote⟩, hwrite, hstep⟩ := bind_eq_ok.mp hstep
  obtain ⟨audio, hwrote, rfl⟩ := writePacket_inv hwrite
  have hwrote' : Wrote s header payload h audio wrote := by
    cases hwrote with
    | ignored hskip => exact .ignored hskip
    | written _ opened hp hrel hw => exact .written _ opened hp hrel hw
  dsimp only at hstep
  unfold startsNow
  split at hstep
  next harmed =>
    have harmed' : (s.armed && !s.started) = true := harmed
    obtain ⟨head, hhead, hstep⟩ := bind_eq_ok.mp hstep
    cases hstep
    have hsame : s.headPtsNs build header (output.backend.bufferLevel s.audio) = .ok head := hhead
    obtain ⟨hflag, haudio⟩ := deferredStart_eq _ w head
    refine ⟨hflag, ?_⟩
    rw [haudio, harmed', hsame, Bool.true_and]
    dsimp only
    by_cases hsched : isScheduled w head = true
    · rw [if_pos hsched, if_neg (by simp [hsched])]
      exact hwrote'.isPlaying hB
    · rw [if_neg hsched, if_pos (by simp [hsched])]
      exact hwrote'.playable
  next harmed =>
    cases hstep
    have harmed' : (s.armed && !s.started) = false := by simpa using harmed
    refine ⟨rfl, ?_⟩
    rw [harmed', Bool.false_and]
    exact hwrote'.isPlaying hB

theorem packet_playing_iff {header : AudioPacketHeader} {payload : List UInt8} {w : World}
    {h : output.backend.Host}
    (hplays : output.backend.isPlaying s.audio = true → s.outputInUse = true)
    (hstep : s.step build (.event (.audioPacket header payload) w h) = .ok (s', effects)) :
    (output.backend.isPlaying s'.audio = true → s'.outputInUse = true) ↔
      InUse output build s (.event (.audioPacket header payload) w h) := by
  obtain ⟨hflag, hplaying⟩ := packet_playing hstep
  rw [hflag, hplaying]
  change _ ↔ ((startsNow build s w header && _) = true → _)
  cases startsNow build s w header with
  | true => exact Iff.rfl
  | false => exact iff_of_true hplays nofun

theorem inUse_of_not (hother : startsOutput output build s a = false) : InUse output build s a := by
  intro hyes
  rw [hother] at hyes
  cases hyes

/-- **One pass.** -/
theorem playing_step_iff (hplays : output.backend.isPlaying s.audio = true → s.outputInUse = true)
    (hstep : s.step build a = .ok (s', effects)) :
    (output.backend.isPlaying s'.audio = true → s'.outputInUse = true) ↔
      InUse output build s a := by
  have hB := playsOnly output
  -- a pass that leaves the output silent
  have hsilent (hother : startsOutput output build s a = false)
      (hno : output.backend.isPlaying s'.audio = false) :
      (output.backend.isPlaying s'.audio = true → s'.outputInUse = true) ↔
        InUse output build s a := by
    refine iff_of_true ?_ (inUse_of_not hother)
    intro hyes
    rw [hno] at hyes
    cases hyes
  -- a pass that leaves it as it was
  have hsame (hother : startsOutput output build s a = false)
      (hplaying : output.backend.isPlaying s'.audio = output.backend.isPlaying s.audio)
      (hflag : s'.outputInUse = s.outputInUse) :
      (output.backend.isPlaying s'.audio = true → s'.outputInUse = true) ↔
        InUse output build s a := by
    refine iff_of_true ?_ (inUse_of_not hother)
    rw [hplaying, hflag]
    exact hplays
  cases step_inv hstep with
  | starts w startAt => exact Iff.rfl
  | ticks w inUse ticks audio tracker lastDrift stats hserved hinUse hstats =>
    rcases hinUse with rfl | ⟨-, -, hno, -⟩
    · exact hsame rfl (hserved.isPlaying hB) rfl
    · exact hsilent rfl ((hserved.isPlaying hB).trans hno)
  | proposes fp w h audio opened r verdict hok =>
    exact hsilent rfl (hB.configure _ _ _ _ _ _ hok)
  | packet header payload w h => exact packet_playing_iff hplays hstep
  | packetStarts header payload w h => exact packet_playing_iff hplays hstep
  | plays streamId w h audio reopened hre =>
    refine iff_of_true ?_ (inUse_of_not rfl)
    intro _
    exact begin_outputInUse _
  | pauses streamId w h => exact hsilent rfl ((hB.setCorrection _ _).trans (hB.pause _))
  | stops streamId w h audio opened hok => exact hsilent rfl (hB.stop _ _ _ _ hok)
  | seeks streamId positionMs w h audio opened hok =>
    rw [show output.backend.isPlaying _ = flushPlays output h from
      (hB.setCorrection _ _).trans (flush_playing output hok).1]
    exact Iff.rfl
  | reformats streamId format sampleRate w h audio opened r hrel hok =>
    exact hsilent rfl (hB.configure _ _ _ _ _ _ hok)
  | volumes cmd w h audio hreg => exact hsame rfl (hreg.isPlaying hB) rfl
  | disconnects w h audio opened hok => exact hsilent rfl (hB.stop _ _ _ _ hok)
  | releases h audio opened told hok => exact hsilent rfl (hB.release _ _ _ _ hok)
  | hosts h audio opened hok => exact hsame rfl (hB.host _ _ _ _ hok) rfl
  | reports e w h hreport =>
    cases e <;> first | exact hsame rfl rfl rfl | cases hreport
  | _ => exact hsame rfl rfl rfl

end

/-! ## Every run -/

/-- **The hooks mirror the output**, exactly when whatever makes it play finds it
in use. That they alternate holds in every run. -/
theorem hooks_mirror_iff (output : Output) {build : Build} {mixer : Bool}
    {device : Option (List Char)} {acts : List (Action output.backend)}
    {s : Endpoint output.backend} {log : List Effect}
    (hrun : run (Endpoint.step build) (.new _ mixer device) acts = .ok (s, log)) :
    (Throughout (Endpoint.step build) Mirrors (.new output.backend mixer device) acts ↔
      Along (Endpoint.step build) (InUse output build) (.new _ mixer device) acts) ∧
    Throughout (Endpoint.step build) (fun _ log => Alternate (hooksIn log))
      (.new output.backend mixer device) acts := by
  have hnew : Told (Endpoint.new output.backend mixer device) [] := told_new mixer device
  have htold : Throughout (Endpoint.step build) Told (.new output.backend mixer device) acts :=
    throughout_of_step (fun _ _ _ _ _ => told_step) hnew acts
  -- the hooks tell `output_in_use`, so the rest is about that flag
  have hstep : ∀ (s : Endpoint output.backend) log a s' o, Told s log ∧ Mirrors s log →
      s.step build a = .ok (s', o) →
      (Told s' (log ++ o) ∧ Mirrors s' (log ++ o) ↔ InUse output build s a) := by
    rintro s log a s' o ⟨hs, hmirrors⟩ ha
    have hs' := told_step hs ha
    rw [and_iff_right hs', hs'.mirrors_iff]
    exact playing_step_iff (hs.mirrors_iff.mp hmirrors) ha
  have hstart : Mirrors (Endpoint.new output.backend mixer device) [] := by
    refine hnew.mirrors_iff.mpr ?_
    cases output <;> nofun
  refine ⟨?_, fun pre post t p hsplit hpre => (htold pre post t p hsplit hpre).1⟩
  rw [← throughout_iff_along acts (fun s log => Told s log ∧ Mirrors s log) _ s log hstep
    ⟨hnew, hstart⟩ hrun]
  constructor
  · intro hall pre post t p hsplit hpre
    exact ⟨htold pre post t p hsplit hpre, hall pre post t p hsplit hpre⟩
  · intro hall pre post t p hsplit hpre
    exact (hall pre post t p hsplit hpre).2

/-! ### Two runs on cpal -/

/-- The hooks that a run from the start fires, and whether the output plays at its
end. -/
def firedBy (acts : List (Action (Output.cpal Cpal.pcmOnly).backend)) :
    Option (List Hook × Bool) :=
  viewRun (Endpoint.step .release)
    (fun s log => (hooksIn log, (cpalBackend Cpal.pcmOnly).isPlaying s.audio))
    (.new (Output.cpal Cpal.pcmOnly).backend false none) acts

instance (output : Output) (build : Build) (s : Endpoint output.backend)
    (a : Action output.backend) : Decidable (InUse output build s a) :=
  inferInstanceAs (Decidable (_ = true → _ = true))

/-- The stream plays, is sought in, stopped and played again. -/
def playedTwice : List (Action (Output.cpal Cpal.pcmOnly).backend) :=
  playing ++ [silentPacket, cpalEvent (.control (.playback (.seek "s" 1000))),
    cpalEvent (.control (.playback (.stop "s"))), cpalEvent (.control (.playback (.play "s")))]

theorem hooks_mirror_twice :
    firedBy playedTwice = some ([.start, .stop, .start], false) ∧
      Throughout (Endpoint.step .release) Mirrors
        (.new (Output.cpal Cpal.pcmOnly).backend false none) playedTwice := by
  have hfired : firedBy playedTwice = some ([.start, .stop, .start], false) := by decide +kernel
  obtain ⟨s, log, hrun, -⟩ := run_of_viewRun hfired
  refine ⟨hfired, (hooks_mirror_iff (.cpal Cpal.pcmOnly) hrun).1.mpr ?_⟩
  decide +kernel

/-- The controller seeks after it has stopped the stream. -/
def stopThenSeek : List (Action (Output.cpal Cpal.pcmOnly).backend) :=
  playing ++ [cpalEvent (.control (.playback (.stop "s"))),
    cpalEvent (.control (.playback (.seek "s" 1000)))]

/-- The output plays, and the last hook is `stop`. -/
theorem plays_after_stop_hook :
    firedBy stopThenSeek = some ([.start, .stop], true) ∧
      ¬ Throughout (Endpoint.step .release) Mirrors
        (.new (Output.cpal Cpal.pcmOnly).backend false none) stopThenSeek := by
  have hfired : firedBy stopThenSeek = some ([.start, .stop], true) := by decide +kernel
  refine ⟨hfired, ?_⟩
  intro hall
  obtain ⟨s, log, hrun, hview⟩ := run_of_viewRun hfired
  obtain ⟨hhooks, hplays⟩ := Prod.mk.inj hview
  have hmirrors : Mirrors s log := hall _ [] s log (List.append_nil _).symm hrun
  have hlast := hmirrors.2 hplays
  rw [hhooks] at hlast
  cases hlast

end Oaat.Cli
