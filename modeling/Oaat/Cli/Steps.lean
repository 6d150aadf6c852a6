/-
Oaat.Cli.Steps — the passes of the application's loop, one by one.

`Stepped` lists every pass with the state that it leaves, up to the counters
that no result is about. `step_inv` is the one place that unfolds the handlers.
-/
import Oaat.Cli.RunEndpoint
import Oaat.Lib.Run

namespace Oaat.Cli

open Oaat.Core Oaat.Endpoint Oaat.Lib

variable {B : Backend} {build : Build} {s s' : Endpoint B} {effects : List Effect} {w : World}
  {h : B.Host}

/-! ## The parts of a pass -/

/-- What `write_audio` is called with, and what it leaves. -/
inductive Wrote (s : Endpoint B) (header : AudioPacketHeader) (payload : List UInt8) (h : B.Host) :
    B.State → List Effect → Prop where
  | ignored : payload = [] ∨ s.released = true → Wrote s header payload h s.audio []
  | written (audio : B.State) (opened : Bool) : payload ≠ [] → s.released = false →
      B.writeAudio s.audio payload h = .ok (audio, opened) →
      Wrote s header payload h audio (.write header payload :: Endpoint.openedIf opened)

/-- What Play does to a released output. -/
inductive Reopened (s : Endpoint B) (h : B.Host) : B.State → List Effect → Prop where
  | kept : s.released = false → Reopened s h s.audio []
  | unknown : s.released = true → s.lastFormat = none → Reopened s h s.audio []
  | configured (fp : FormatPropose) (audio : B.State) (opened : Bool) (r : Except String Unit) :
      s.released = true → s.lastFormat = some fp →
      B.configure s.audio (s.proposedConfig fp) h = .ok (audio, opened, r) →
      Reopened s h audio (.configured :: Endpoint.openedIf opened)

/-- What the servo leaves of the output and the tracker. -/
structure Served (s : Endpoint B) (audio : B.State) (tracker : Option PtsTracker) : Prop where
  audio_eq : audio = s.audio ∨
    s.started = true ∧ s.tracker.isSome = true ∧ ∃ c, audio = B.setCorrection s.audio c
  tracker_eq : tracker = s.tracker ∨
    s.started = true ∧ ∃ t startNs, s.tracker = some t ∧
      tracker = some { startNs, sampleRate := s.streamSampleRate }

/-- What a volume command leaves of the output. -/
inductive Regulated (s : Endpoint B) : B.State → Prop where
  | kept : Regulated s s.audio
  | volume (level : UInt8) : Regulated s (B.setVolume s.audio level)
  | mute (muted : Bool) : Regulated s (B.setMute s.audio muted)

/-- The events that the loop only reports. -/
def isReport : EndpointEvent → Bool
  | .formatAccepted _ | .formatRejected _ _ | .metadata _ | .nextTrackReady _ | .zoneAssigned _
  | .zoneUpdated _ _ | .zoneReleased _ => true
  | _ => false

/-! ### Their effects -/

theorem eq_of_mem_openedIf {e : Effect} {opened : Bool} (he : e ∈ Endpoint.openedIf opened) :
    e = .opened := by
  cases opened with
  | false => cases he
  | true => exact List.mem_singleton.mp he

theorem Wrote.effect {header : AudioPacketHeader} {payload : List UInt8} {audio : B.State}
    (hwrote : Wrote s header payload h audio effects) {e : Effect} (he : e ∈ effects) :
    e = .write header payload ∨ e = .opened := by
  cases hwrote with
  | ignored => cases he
  | written audio opened =>
    rcases List.mem_cons.mp he with rfl | he
    · exact .inl rfl
    · exact .inr (eq_of_mem_openedIf he)

theorem Reopened.effect {audio : B.State} (hre : Reopened s h audio effects) {e : Effect}
    (he : e ∈ effects) : e = .configured ∨ e = .opened := by
  cases hre with
  | kept => cases he
  | unknown => cases he
  | configured fp audio opened =>
    rcases List.mem_cons.mp he with rfl | he
    · exact .inl rfl
    · exact .inr (eq_of_mem_openedIf he)

/-! ### The flag of the hooks -/

theorem leaveOutput_eq (s : Endpoint B) :
    s.leaveOutput =
      ({ s with outputInUse := false }, if s.outputInUse then [.hook .stop] else []) := by
  unfold Endpoint.leaveOutput
  cases hu : s.outputInUse with
  | true => rfl
  | false =>
    obtain ⟨⟩ := s
    simp_all

theorem useOutput_eq (s : Endpoint B) :
    s.useOutput =
      ({ s with outputInUse := true }, if s.outputInUse then [] else [.hook .start]) := by
  unfold Endpoint.useOutput
  cases hu : s.outputInUse with
  | false => rfl
  | true =>
    obtain ⟨⟩ := s
    simp_all

theorem writePacket_inv {header : AudioPacketHeader} {payload : List UInt8}
    (hok : s.writePacket header payload h = .ok (s', effects)) :
    ∃ audio, Wrote s header payload h audio effects ∧ s' = { s with audio } := by
  unfold Endpoint.writePacket at hok
  split at hok
  next hwrite =>
    simp only [Bool.and_eq_true, Bool.not_eq_true', List.isEmpty_eq_false_iff] at hwrite
    split at hok
    next => cases hok
    next audio opened hw =>
      cases hok
      exact ⟨audio, .written audio opened hwrite.1 hwrite.2 hw, rfl⟩
  next hskip =>
    cases hok
    refine ⟨s.audio, .ignored ?_, rfl⟩
    by_cases hp : payload = []
    · exact .inl hp
    · right
      simpa [hp] using hskip

theorem reopen_inv (hok : s.reopen h = .ok (s', effects)) :
    ∃ audio, Reopened s h audio effects ∧ s' = { s with released := false, audio } := by
  unfold Endpoint.reopen at hok
  split at hok
  next hrel =>
    dsimp only at hok
    split at hok
    next hnone =>
      cases hok
      exact ⟨s.audio, .unknown hrel hnone, rfl⟩
    next fp hfp =>
      split at hok
      next => cases hok
      next audio opened r hc =>
        cases hok
        exact ⟨audio, .configured fp audio opened r hrel hfp hc, rfl⟩
  next hrel =>
    rw [Bool.not_eq_true] at hrel
    cases hok
    refine ⟨s.audio, .kept hrel, ?_⟩
    obtain ⟨⟩ := s
    simp_all

theorem volume_inv (s : Endpoint B) (cmd : VolumeCommand) :
    ∃ audio, Regulated s audio ∧ s.volume cmd = { s with audio } := by
  unfold Endpoint.volume
  split
  next level =>
    split
    next => exact ⟨s.audio, .kept, rfl⟩
    next => exact ⟨_, .volume level, rfl⟩
  next => exact ⟨s.audio, .kept, rfl⟩
  next muted =>
    split
    next => exact ⟨s.audio, .kept, rfl⟩
    next => exact ⟨_, .mute muted, rfl⟩

/-- What Play leaves alone. -/
theorem begin_frame (s : Endpoint B) :
    s.begin.connected = s.connected ∧ s.begin.released = s.released ∧
      s.begin.tracker = s.tracker ∧ s.begin.streamSampleRate = s.streamSampleRate ∧
      (s.begin.audio = s.audio ∨ s.begin.audio = B.play s.audio) := by
  unfold Endpoint.begin
  split
  · exact ⟨rfl, rfl, rfl, rfl, .inr rfl⟩
  · split
    · exact ⟨rfl, rfl, rfl, rfl, .inl rfl⟩
    · exact ⟨rfl, rfl, rfl, rfl, .inr rfl⟩

/-- What the deferred start leaves alone, and the tracker at the stream's rate. -/
theorem deferredStart_frame (s : Endpoint B) (w : World) (head : UInt64) :
    (s.deferredStart w head).connected = s.connected ∧
      (s.deferredStart w head).released = s.released ∧
      (s.deferredStart w head).streamSampleRate = s.streamSampleRate ∧
      (∃ startNs, (s.deferredStart w head).tracker =
        some { startNs, sampleRate := s.streamSampleRate }) ∧
      ((s.deferredStart w head).audio = s.audio ∨
        (s.deferredStart w head).audio = B.play s.audio) := by
  unfold Endpoint.deferredStart
  dsimp only
  split
  · exact ⟨rfl, rfl, rfl, ⟨_, rfl⟩, .inl rfl⟩
  · exact ⟨rfl, rfl, rfl, ⟨_, rfl⟩, .inr rfl⟩

theorem driftServo_inv (hok : s.driftServo build w = .ok s') :
    ∃ audio tracker lastDrift, Served s audio tracker ∧
      s' = { s with audio, tracker, lastDrift } := by
  unfold Endpoint.driftServo at hok
  have hsame : ∃ audio tracker lastDrift, Served s audio tracker ∧
      s = { s with audio, tracker, lastDrift } :=
    ⟨s.audio, s.tracker, s.lastDrift, ⟨.inl rfl, .inl rfl⟩, rfl⟩
  split at hok
  next t frames ht _ =>
    have hsome : s.tracker.isSome = true := by rw [ht]; rfl
    split at hok
    next hstarted =>
      obtain ⟨drift, -, hok⟩ := bind_eq_ok.mp hok
      obtain ⟨progress, -, hok⟩ := bind_eq_ok.mp hok
      split at hok
      next =>
        obtain ⟨scaled, -, hok⟩ := bind_eq_ok.mp hok
        obtain ⟨start, -, hok⟩ := bind_eq_ok.mp hok
        cases hok
        exact ⟨_, _, _, ⟨.inr ⟨hstarted, hsome, 0, rfl⟩, .inr ⟨hstarted, t, _, ht, rfl⟩⟩, rfl⟩
      next =>
        obtain ⟨size, -, hok⟩ := bind_eq_ok.mp hok
        split at hok
        next =>
          cases hok
          exact ⟨_, s.tracker, _, ⟨.inr ⟨hstarted, hsome, _, rfl⟩, .inl rfl⟩, rfl⟩
        next =>
          cases hok
          exact ⟨_, s.tracker, _, ⟨.inr ⟨hstarted, hsome, 0, rfl⟩, .inl rfl⟩, rfl⟩
    next =>
      cases hok
      exact hsame
  next =>
    cases hok
    exact hsame

/-- A report is sent only while the output is started. -/
theorem streamStats_inv (hok : s.streamStats build w = .ok effects) :
    effects = [] ∨ s.started = true ∧ ∃ ss, effects = [.send (.streamStats ss)] := by
  unfold Endpoint.streamStats at hok
  split at hok
  next hstats =>
    simp only [Bool.and_eq_true] at hstats
    obtain ⟨drift, -, hok⟩ := bind_eq_ok.mp hok
    obtain ⟨net, -, hok⟩ := bind_eq_ok.mp hok
    cases hok
    exact .inr ⟨hstats.1.1, _, rfl⟩
  next =>
    cases hok
    exact .inl rfl

/-! ## The passes -/

/-- A pass through the loop, by its arm. -/
inductive Stepped (build : Build) (s : Endpoint B) :
    Action B → Endpoint B → List Effect → Prop where
  | starts (w : World) (startAt : Nat) : s.startDeadline = some startAt →
      Stepped build s (.startTimer w)
        { s with startDeadline := none, started := true, audio := B.play s.audio } []
  | ticks (w : World) (outputInUse : Bool) (outputIdleTicks : Nat) (audio : B.State)
      (tracker : Option PtsTracker) (lastDrift : Int) (stats : List Effect) :
      Served s audio tracker →
      (outputInUse = s.outputInUse ∨ s.outputInUse = true ∧ outputInUse = false ∧
        B.isPlaying s.audio = false ∧ B.deviceOpen s.audio = false) →
      (stats = [] ∨ s.started = true ∧ ∃ ss, stats = [.send (.streamStats ss)]) →
      Stepped build s (.servoTick w)
        { s with servoTicks := s.servoTicks + 1, outputInUse, outputIdleTicks, audio, tracker,
                 lastDrift }
        ((if outputInUse = s.outputInUse then [] else [.hook .stop]) ++ stats)
  | connects (controllerId controllerName : String) (w : World) (h : B.Host) :
      Stepped build s (.event (.connected controllerId controllerName) w h)
        { s with connected := true } []
  | proposes (fp : FormatPropose) (w : World) (h : B.Host) (audio : B.State) (opened : Bool)
      (r : Except String Unit) (verdict : Message) :
      B.configure s.audio (s.proposedConfig fp) h = .ok (audio, opened, r) →
      Stepped build s (.event (.control (.formatProposed fp)) w h)
        { s.resetStream with
          streamSampleRate := fp.sampleRate, currentStreamId := fp.streamId, released := false,
          lastFormat := some fp, audio }
        (.configured :: Endpoint.openedIf opened ++ [.send verdict])
  | packet (header : AudioPacketHeader) (payload : List UInt8) (w : World) (h : B.Host)
      (audio : B.State) (wrote : List Effect) : Wrote s header payload h audio wrote →
      (s.armed = true → s.started = true) →
      Stepped build s (.event (.audioPacket header payload) w h)
        { s with packetCount := s.packetCount + 1, totalBytes := s.totalBytes + payload.length,
                 audio } wrote
  | packetStarts (header : AudioPacketHeader) (payload : List UInt8) (w : World) (h : B.Host)
      (audio : B.State) (wrote : List Effect) (head : UInt64) :
      Wrote s header payload h audio wrote → s.armed = true → s.started = false →
      Stepped build s (.event (.audioPacket header payload) w h)
        ({ s with packetCount := s.packetCount + 1, totalBytes := s.totalBytes + payload.length,
                  audio }.deferredStart w head) (wrote ++ [.tracked])
  | plays (streamId : String) (w : World) (h : B.Host) (audio : B.State) (reopened : List Effect) :
      Reopened s h audio reopened →
      Stepped build s (.event (.control (.playback (.play streamId))) w h)
        { s with released := false, audio, outputInUse := true }.begin
        (reopened ++ if s.outputInUse then [] else [.hook .start])
  | pauses (streamId : String) (w : World) (h : B.Host) :
      Stepped build s (.event (.control (.playback (.pause streamId))) w h) s.pause.1 []
  | stops (streamId : String) (w : World) (h : B.Host) (audio : B.State) (opened : Bool) :
      B.stop s.audio h = .ok (audio, opened) →
      Stepped build s (.event (.control (.playback (.stop streamId))) w h)
        { s.resetStream with audio, outputInUse := false }
        (Endpoint.openedIf opened ++ if s.outputInUse then [.hook .stop] else [])
  | seeks (streamId : String) (positionMs : UInt64) (w : World) (h : B.Host) (audio : B.State)
      (opened : Bool) : B.flush s.audio h = .ok (audio, opened) →
      Stepped build s (.event (.control (.playback (.seek streamId positionMs))) w h)
        { s with audio := B.setCorrection audio 0, tracker := none }
        (.configured :: Endpoint.openedIf opened)
  | reformatIgnored (streamId : String) (format : AudioFormat) (sampleRate : UInt32) (w : World)
      (h : B.Host) : s.released = true →
      Stepped build s (.event (.control (.nextTrackReformat streamId format sampleRate)) w h) s []
  | reformats (streamId : String) (format : AudioFormat) (sampleRate : UInt32) (w : World)
      (h : B.Host) (audio : B.State) (opened : Bool) (r : Except String Unit) :
      s.released = false →
      B.configure s.audio
        { format, sampleRate, channels := 2, device := s.currentAudioDevice } h =
          .ok (audio, opened, r) →
      Stepped build s (.event (.control (.nextTrackReformat streamId format sampleRate)) w h)
        { s with audio } (.configured :: Endpoint.openedIf opened)
  | volumes (cmd : VolumeCommand) (w : World) (h : B.Host) (audio : B.State) :
      Regulated s audio →
      Stepped build s (.event (.control (.volume cmd)) w h) { s with audio } []
  | reports (e : EndpointEvent) (w : World) (h : B.Host) : isReport e = true →
      Stepped build s (.event (.control e) w h) s []
  | disconnects (w : World) (h : B.Host) (audio : B.State) (opened : Bool) :
      B.stop s.audio h = .ok (audio, opened) →
      Stepped build s (.event .disconnected w h)
        { s with audio, connected := false, released := false, outputInUse := false,
                 packetCount := 0, totalBytes := 0 }
        (Endpoint.openedIf opened ++ if s.outputInUse then [.hook .stop] else [])
  | errs (e : OaatError) (w : World) (h : B.Host) : Stepped build s (.event (.error e) w h) s []
  | releases (h : B.Host) (audio : B.State) (opened : Bool) (told : List Effect) :
      B.release s.audio h = .ok (audio, opened) →
      (told = [] ∨ s.connected = true ∧ ∃ er, told = [.send (.endpointRelease er)]) →
      Stepped build s (.release h)
        { s.resetStream with audio, released := true, outputInUse := false }
        (Endpoint.openedIf opened ++ told ++ if s.outputInUse then [.hook .stop] else [])
  | switches (name : List Char) :
      Stepped build s (.switchDevice name) { s with currentAudioDevice := some name } []
  | hosts (h : B.Host) (audio : B.State) (opened : Bool) : B.host s.audio h = .ok (audio, opened) →
      Stepped build s (.host h) { s with audio } (Endpoint.openedIf opened)

theorem idleTick_inv (s : Endpoint B) :
    ∃ outputInUse outputIdleTicks hooks,
      s.idleTick = ({ s with outputInUse, outputIdleTicks }, hooks) ∧
      (outputInUse = s.outputInUse ∨ s.outputInUse = true ∧ outputInUse = false ∧
        B.isPlaying s.audio = false ∧ B.deviceOpen s.audio = false) ∧
      hooks = if outputInUse = s.outputInUse then [] else [.hook .stop] := by
  unfold Endpoint.idleTick
  split
  next hidle =>
    simp only [Bool.and_eq_true, Bool.not_eq_true'] at hidle
    obtain ⟨⟨hu, hp⟩, hd⟩ := hidle
    split
    next => exact ⟨false, 0, _, rfl, .inr ⟨hu, rfl, hp, hd⟩, by simp [hu]⟩
    next => exact ⟨s.outputInUse, _, _, rfl, .inl rfl, by simp⟩
  next => exact ⟨s.outputInUse, _, _, rfl, .inl rfl, by simp⟩

theorem servoTick_inv (hok : s.servoTick build w = .ok (s', effects)) :
    Stepped build s (.servoTick w) s' effects := by
  unfold Endpoint.servoTick at hok
  obtain ⟨inUse, ticks, hooks, hidle, hinUse, hhooks⟩ :=
    idleTick_inv { s with servoTicks := s.servoTicks + 1 }
  rw [hidle] at hok
  obtain ⟨stats, hstats, hok⟩ := bind_eq_ok.mp hok
  obtain ⟨s₁, hservo, hok⟩ := bind_eq_ok.mp hok
  cases hok
  obtain ⟨audio, tracker, lastDrift, hserved, rfl⟩ := driftServo_inv hservo
  have hsent := streamStats_inv hstats
  rw [hhooks]
  exact .ticks w inUse ticks audio tracker lastDrift stats
    ⟨hserved.audio_eq, hserved.tracker_eq⟩ hinUse hsent

theorem audioPacket_inv {header : AudioPacketHeader} {payload : List UInt8}
    (hok : s.audioPacket build header payload w h = .ok (s', effects)) :
    Stepped build s (.event (.audioPacket header payload) w h) s' effects := by
  unfold Endpoint.audioPacket at hok
  obtain ⟨⟨s₁, wrote⟩, hwrite, hok⟩ := bind_eq_ok.mp hok
  obtain ⟨audio, hwrote, rfl⟩ := writePacket_inv hwrite
  have hwrote' : Wrote s header payload h audio wrote := by
    cases hwrote with
    | ignored hskip => exact .ignored hskip
    | written _ opened hp hrel hw => exact .written _ opened hp hrel hw
  dsimp only at hok
  split at hok
  next hstart =>
    simp only [Bool.and_eq_true, Bool.not_eq_true'] at hstart
    obtain ⟨head, -, hok⟩ := bind_eq_ok.mp hok
    cases hok
    exact .packetStarts header payload w h audio _ head hwrote' hstart.1 hstart.2
  next hstart =>
    cases hok
    refine .packet header payload w h audio _ hwrote' ?_
    intro harmed
    simpa [harmed] using hstart

theorem control_inv {e : EndpointEvent} (hok : s.control h e = .ok (s', effects)) :
    Stepped build s (.event (.control e) w h) s' effects := by
  cases e with
  | formatProposed fp =>
    simp only [Endpoint.control, Endpoint.formatProposed] at hok
    split at hok
    next => cases hok
    next audio opened r hc =>
      cases hok
      exact .proposes fp w h audio opened r _ hc
  | playback cmd =>
    cases cmd with
    | play streamId =>
      simp only [Endpoint.control, Endpoint.play] at hok
      obtain ⟨⟨s₁, reopened⟩, hre, hok⟩ := bind_eq_ok.mp hok
      obtain ⟨audio, hreopened, rfl⟩ := reopen_inv hre
      rw [useOutput_eq] at hok
      cases hok
      exact .plays streamId w h audio reopened hreopened
    | pause streamId =>
      cases hok
      exact .pauses streamId w h
    | stop streamId =>
      simp only [Endpoint.control, Endpoint.stop] at hok
      split at hok
      next => cases hok
      next audio opened hstop =>
        rw [leaveOutput_eq] at hok
        cases hok
        exact .stops streamId w h audio opened hstop
    | seek streamId positionMs =>
      simp only [Endpoint.control, Endpoint.seek] at hok
      split at hok
      next => cases hok
      next audio opened hflush =>
        cases hok
        exact .seeks streamId positionMs w h audio opened hflush
  | nextTrackReformat streamId format sampleRate =>
    simp only [Endpoint.control, Endpoint.nextTrackReformat] at hok
    split at hok
    next hrel =>
      cases hok
      exact .reformatIgnored streamId format sampleRate w h hrel
    next hrel =>
      split at hok
      next => cases hok
      next audio opened r hc =>
        cases hok
        exact .reformats streamId format sampleRate w h audio opened r (by simpa using hrel) hc
  | volume cmd =>
    cases hok
    obtain ⟨audio, hreg, hv⟩ := volume_inv s cmd
    rw [hv]
    exact .volumes cmd w h audio hreg
  | formatAccepted _ | formatRejected _ _ | metadata _ | nextTrackReady _ | zoneAssigned _
  | zoneUpdated _ _ | zoneReleased _ =>
    cases hok
    exact .reports _ w h rfl

/-- **Inversion.** The loop takes no other passes. -/
theorem step_inv {a : Action B} (hok : s.step build a = .ok (s', effects)) :
    Stepped build s a s' effects := by
  cases a with
  | startTimer w =>
    simp only [Endpoint.step, Endpoint.startTimer] at hok
    split at hok
    next => cases hok
    next startAt hd =>
      split at hok
      next => cases hok; exact .starts w startAt hd
      next => cases hok
  | servoTick w => exact servoTick_inv hok
  | event e w h =>
    cases e with
    | connected controllerId controllerName =>
      cases hok
      exact .connects controllerId controllerName w h
    | control e => exact control_inv hok
    | audioPacket header payload => exact audioPacket_inv hok
    | disconnected =>
      simp only [Endpoint.step, Endpoint.event, Endpoint.disconnected] at hok
      split at hok
      next => cases hok
      next audio opened hstop =>
        rw [leaveOutput_eq] at hok
        cases hok
        exact .disconnects w h audio opened hstop
    | error e =>
      cases hok
      exact .errs e w h
  | release h =>
    simp only [Endpoint.step, Endpoint.release] at hok
    split at hok
    next => cases hok
    next audio opened hrel =>
      rw [leaveOutput_eq] at hok
      cases hok
      refine .releases h audio opened _ hrel ?_
      split
      next hc => exact .inr ⟨hc, _, rfl⟩
      next => exact .inl rfl
  | switchDevice name =>
    cases hok
    exact .switches name
  | host h =>
    simp only [Endpoint.step] at hok
    split at hok
    next => cases hok
    next audio opened hh =>
      cases hok
      exact .hosts h audio opened hh

end Oaat.Cli
