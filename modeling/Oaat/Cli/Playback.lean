/-
Oaat.Cli.Playback — when playback starts, and what ends it.

Between Play and the first sound the intent to play is in `armed`, in
`start_deadline` or in `started`, one after the other. A disconnect clears none
of them and a pause only stops the output, so both are right exactly when
there is nothing to clear.
-/
import Oaat.Cli.Outputs

namespace Oaat.Cli

open Oaat.Core Oaat.Endpoint Oaat.Lib

variable {B : Backend} {build : Build} {s s' : Endpoint B} {effects : List Effect} {a : Action B}

/-! ## Without a controller -/

/-- Nothing is armed, started or scheduled. -/
def NotPlaying (s : Endpoint B) : Prop :=
  s.armed = false ∧ s.started = false ∧ s.startDeadline = none

/-- Without a controller, nothing is armed, started or scheduled. -/
def Rests (s : Endpoint B) : Prop := s.connected = false → NotPlaying s

/-- The controller leaves only when nothing is armed, started or scheduled, and
Play comes from a controller that is connected. -/
def Orderly (s : Endpoint B) : Action B → Prop
  | .event .disconnected _ _ => NotPlaying s
  | .event (.control (.playback (.play _))) _ _ => s.connected = true
  | _ => True

/-- Play that is not a resume arms the stream or starts it. -/
theorem begin_playing (hno : s.started = false) : ¬ NotPlaying s.begin := by
  rintro ⟨harmed, hstarted, -⟩
  unfold Endpoint.begin at harmed hstarted
  rw [hno] at harmed hstarted
  by_cases hpos : (B.framesPlayed s.audio).isSome = true
  · simp [hpos] at harmed
  · simp [hpos] at hstarted

/-- A pass keeps the rest without a controller exactly when it is orderly. -/
theorem step_rests (hrests : Rests s) (hstep : s.step build a = .ok (s', effects)) :
    Rests s' ↔ Orderly s a := by
  -- with a controller there is nothing to show
  have hvacuous : s'.connected = true → (Rests s' ↔ True) := by
    intro hc
    simp [Rests, hc]
  have hsame : s'.connected = s.connected → s'.armed = s.armed → s'.started = s.started →
      s'.startDeadline = s.startDeadline → (Rests s' ↔ True) := by
    intro hc ha hs hd
    simp only [iff_true]
    intro hno
    have hrest := hrests (hc ▸ hno)
    rw [NotPlaying, ha, hs, hd]
    exact hrest
  cases step_inv hstep with
  | starts w startAt hd =>
    refine hvacuous ?_
    cases hc : s.connected with
    | true => rfl
    | false =>
      have hnone := (hrests hc).2.2
      rw [hd] at hnone
      cases hnone
  | packetStarts header payload w h audio wrote head hw harmed =>
    refine hvacuous ?_
    rw [(deferredStart_frame _ w head).1]
    cases hc : s.connected with
    | true => rfl
    | false =>
      have hno := (hrests hc).1
      rw [harmed] at hno
      cases hno
  | connects => exact hvacuous rfl
  | proposes | stops | releases =>
    simp only [Orderly, iff_true]
    intro _
    exact ⟨rfl, rfl, rfl⟩
  | plays streamId w h audio reopened hre =>
    cases hc : s.connected with
    | true =>
      refine ⟨fun _ => hc, ?_⟩
      intro _ hno
      rw [(begin_frame _).1] at hno
      cases hno
    | false =>
      refine ⟨?_, fun horder => absurd (hc.symm.trans horder) (by decide)⟩
      intro hrests'
      have hno := (hrests hc).2.1
      refine absurd (hrests' ?_) (begin_playing hno)
      rw [(begin_frame _).1]
  | disconnects w h audio opened hstop =>
    simp only [Rests, Orderly, true_imp_iff]
    rfl
  | reports e w h he =>
    have hother : Orderly s (.event (.control e) w h) ↔ True := by
      cases e with
      | playback => cases he
      | _ => exact Iff.rfl
    rw [hother]
    exact hsame rfl rfl rfl rfl
  | ticks | packet | pauses | seeks | reformatIgnored | reformats | volumes | errs | switches
  | hosts => exact hsame rfl rfl rfl rfl

/-- At rest no start fires, no report is sent, a packet starts nothing and Play
is that of a fresh stream. -/
structure Fresh (build : Build) (s : Endpoint B) : Prop where
  noStart : ∀ w, s.startTimer w = .error .blocked
  noReport : ∀ w s' effects, s.servoTick build w = .ok (s', effects) → ∀ m, .send m ∉ effects
  packet : ∀ header payload w h s' effects,
    s.audioPacket build header payload w h = .ok (s', effects) → NotPlaying s'
  play : s.begin = if (B.framesPlayed s.audio).isSome then { s with armed := true }
    else { s with started := true, audio := B.play s.audio }

theorem NotPlaying.fresh (hs : NotPlaying s) : Fresh build s := by
  obtain ⟨harmed, hstarted, hdeadline⟩ := hs
  refine ⟨?_, ?_, ?_, ?_⟩
  · intro w
    rw [Endpoint.startTimer, hdeadline]
  · intro w s' effects hok m hm
    cases servoTick_inv hok with
    | ticks _ inUse _ _ _ _ stats _ _ hstats =>
      rcases hstats with rfl | ⟨hyes, -⟩
      · split at hm <;> simp at hm
      · rw [hstarted] at hyes
        cases hyes
  · intro header payload w h s' effects hok
    cases audioPacket_inv hok with
    | packet => exact ⟨harmed, hstarted, hdeadline⟩
    | packetStarts _ _ _ _ _ _ _ _ hyes =>
      rw [harmed] at hyes
      cases hyes
  · rw [Endpoint.begin, hstarted]
    rfl

/-- **No playback machinery survives a disconnect**, exactly when every
controller leaves at rest and Play comes from a connected one: then, and only
then, nothing is armed, started or scheduled in any state of the run without a
controller. Such a state is as good as fresh. -/
theorem rests_without_controller {mixer : Bool} {device : Option (List Char)}
    {acts : List (Action B)} {t : Endpoint B} {log : List Effect}
    (hrun : run (Endpoint.step build) (.new B mixer device) acts = .ok (t, log)) :
    (Throughout (Endpoint.step build) (fun s _ => Rests s) (.new B mixer device) acts ↔
      Along (Endpoint.step build) Orderly (.new B mixer device) acts) ∧
    ∀ s : Endpoint B, Rests s → s.connected = false → Fresh build s := by
  refine ⟨?_, fun s hs hno => (hs hno).fresh⟩
  refine throughout_iff_along acts _ _ t log ?_ ?_ hrun
  · intro s _ a s' o hs hstep
    exact step_rests hs hstep
  · intro _
    exact ⟨rfl, rfl, rfl⟩

/-! ### Two runs on cpal -/

/-- Nothing is known of the controller's clock. -/
def localWorld (now : UInt64) (instant : Nat) : World :=
  { now, instant, clock := .new, packetsLost := 0, packetsRecovered := 0 }

/-- The output's device opens. -/
def willing : CpalHost := { opening := Cpal.plainOpening, callbacks := [] }

/-- An event of the controller on a cpal output. -/
def cpalEvent (e : Event) : Action (cpalBackend Cpal.pcmOnly) :=
  .event e (localWorld 0 0) willing

def stereoProposal (streamId : String) (sampleRate : UInt32) : FormatPropose :=
  { streamId, format := .pcmS16le, sampleRate, channels := 2, channelLayout := .stereo,
    bitsPerSample := 16, dsdRate := none }

/-- A controller connects, proposes a format and plays. -/
def playing : List (Action (cpalBackend Cpal.pcmOnly)) :=
  [cpalEvent (.connected "c" "controller"),
   cpalEvent (.control (.formatProposed (stereoProposal "s" 48000))),
   cpalEvent (.control (.playback (.play "s")))]

/-- The loop on a cpal output at its start. -/
def cpalEndpoint : Endpoint (cpalBackend Cpal.pcmOnly) := .new _ false none

/-- The controller leaves before the first packet: the stream stays armed. -/
theorem armed_after_disconnect :
    (run (Endpoint.step .release) cpalEndpoint (playing ++ [cpalEvent .disconnected])).map
      (fun r => (r.1.connected, r.1.armed)) = .ok (false, true) ∧
    ∀ t log, run (Endpoint.step .release) cpalEndpoint (playing ++ [cpalEvent .disconnected]) =
      .ok (t, log) → ¬ Rests t := by
  have hrun : (run (Endpoint.step .release) cpalEndpoint (playing ++ [cpalEvent .disconnected])).map
      (fun r => (r.1.connected, r.1.armed)) = .ok (false, true) := by decide +kernel
  refine ⟨hrun, ?_⟩
  intro t log ht hrests
  rw [ht] at hrun
  simp only [Except.map, Except.ok.injEq, Prod.mk.injEq] at hrun
  have hno := (hrests hrun.1).1
  rw [hrun.2] at hno
  cases hno

instance (s : Endpoint B) : Decidable (NotPlaying s) := inferInstanceAs (Decidable (_ ∧ _))

instance (s : Endpoint B) (a : Action B) : Decidable (Orderly s a) := by
  unfold Orderly
  split <;> infer_instance

/-- The controller stops the stream before it leaves. -/
def stopAndLeave : List (Action (cpalBackend Cpal.pcmOnly)) :=
  playing ++ [cpalEvent (.control (.playback (.stop "s"))), cpalEvent .disconnected]

theorem stopAndLeave_rests :
    (run (Endpoint.step .release) cpalEndpoint stopAndLeave).map (fun r => r.1.connected) =
      .ok false ∧
    ∀ t log, run (Endpoint.step .release) cpalEndpoint stopAndLeave = .ok (t, log) →
      Throughout (Endpoint.step .release) (fun s _ => Rests s) cpalEndpoint stopAndLeave := by
  refine ⟨by decide +kernel, ?_⟩
  intro t log hrun
  exact (rests_without_controller hrun).1.mpr (by decide +kernel)

/-! ## After a pause -/

/-- Play and Seek. -/
def resumes : Action B → Bool
  | .event (.control (.playback (.play _))) _ _ => true
  | .event (.control (.playback (.seek _ _))) _ _ => true
  | _ => false

/-- No start is pending: none is scheduled, and no stream waits for its first
packet. -/
def Unscheduled (s : Endpoint B) : Prop :=
  s.startDeadline = none ∧ (s.armed = true → s.started = true)

/-- The output is silent, and nothing is going to start it. -/
def Quiet (s : Endpoint B) : Prop := B.isPlaying s.audio = false ∧ Unscheduled s

theorem Wrote.isPlaying (hB : PlaysOnly B) {header : AudioPacketHeader} {payload : List UInt8}
    {h : B.Host} {audio : B.State} (hw : Wrote s header payload h audio effects) :
    B.isPlaying audio = B.isPlaying s.audio := by
  cases hw with
  | ignored => rfl
  | written _ opened _ _ hwrite => exact hB.writeAudio _ _ _ _ _ hwrite

theorem Served.isPlaying (hB : PlaysOnly B) {audio : B.State} {tracker : Option PtsTracker}
    (hserved : Served s audio tracker) : B.isPlaying audio = B.isPlaying s.audio := by
  rcases hserved.audio_eq with rfl | ⟨-, -, c, rfl⟩
  · rfl
  · exact hB.setCorrection s.audio c

theorem Regulated.isPlaying (hB : PlaysOnly B) {audio : B.State} (hreg : Regulated s audio) :
    B.isPlaying audio = B.isPlaying s.audio := by
  cases hreg with
  | kept => rfl
  | volume level => exact hB.setVolume s.audio level
  | mute muted => exact hB.setMute s.audio muted

/-- All but Play and Seek leave a quiet output quiet. -/
theorem step_quiet (hB : PlaysOnly B) (hs : Quiet s) (ha : resumes a = false)
    (hstep : s.step build a = .ok (s', effects)) : Quiet s' := by
  obtain ⟨hsilent, hdeadline, harmed⟩ := hs
  have hsame : ∀ audio, B.isPlaying audio = B.isPlaying s.audio → Quiet { s with audio } := by
    intro audio haudio
    exact ⟨haudio.trans hsilent, hdeadline, harmed⟩
  cases step_inv hstep with
  | starts w startAt hd =>
    rw [hdeadline] at hd
    cases hd
  | ticks w inUse idle audio tracker drift stats hserved =>
    exact ⟨(hserved.isPlaying hB).trans hsilent, hdeadline, harmed⟩
  | proposes fp w h audio opened r verdict hc =>
    exact ⟨hB.configure _ _ _ _ _ _ hc, rfl, nofun⟩
  | packet header payload w h audio wrote hw =>
    exact ⟨(hw.isPlaying hB).trans hsilent, hdeadline, harmed⟩
  | packetStarts header payload w h audio wrote head hw hyes hno =>
    rw [harmed hyes] at hno
    cases hno
  | plays | seeks => cases ha
  | pauses => exact ⟨(hB.setCorrection _ _).trans (hB.pause _), hdeadline, harmed⟩
  | stops streamId w h audio opened hstop => exact ⟨hB.stop _ _ _ _ hstop, rfl, nofun⟩
  | reformats streamId format sampleRate w h audio opened r _ hc =>
    exact ⟨hB.configure _ _ _ _ _ _ hc, hdeadline, harmed⟩
  | volumes cmd w h audio hreg => exact hsame audio (hreg.isPlaying hB)
  | disconnects w h audio opened hstop => exact ⟨hB.stop _ _ _ _ hstop, hdeadline, harmed⟩
  | releases h audio opened told hrel => exact ⟨hB.release _ _ _ _ hrel, rfl, nofun⟩
  | hosts h audio opened hh => exact hsame audio (hB.host _ _ _ _ hh)
  | connects | reformatIgnored | reports | errs | switches => exact ⟨hsilent, hdeadline, harmed⟩

/-- Nothing is armed, started or scheduled on a released output. -/
theorem step_released (hs : s.released = true → NotPlaying s)
    (hstep : s.step build a = .ok (s', effects)) : s'.released = true → NotPlaying s' := by
  cases step_inv hstep with
  | starts w startAt hd =>
    intro hrel
    rw [(hs hrel).2.2] at hd
    cases hd
  | packetStarts header payload w h audio wrote head hw hyes =>
    intro hrel
    rw [(deferredStart_frame _ w head).2.1] at hrel
    rw [(hs hrel).1] at hyes
    cases hyes
  | plays =>
    intro hrel
    rw [(begin_frame _).2.1] at hrel
    cases hrel
  | proposes | disconnects =>
    intro hrel
    cases hrel
  | stops | releases => exact fun _ => ⟨rfl, rfl, rfl⟩
  | ticks | connects | packet | pauses | seeks | reformatIgnored | reformats | volumes | reports
  | errs | switches | hosts => exact hs

/-- ALSA has no position, so nothing is ever armed or scheduled on it. -/
theorem step_alsa {conv : Conversions} {s s' : Endpoint (alsaBackend conv)}
    {a : Action (alsaBackend conv)} (hs : s.armed = false ∧ s.startDeadline = none)
    (hstep : s.step build a = .ok (s', effects)) : s'.armed = false ∧ s'.startDeadline = none := by
  cases step_inv hstep with
  | starts => exact ⟨hs.1, rfl⟩
  | packetStarts header payload w h audio wrote head hw hyes =>
    rw [hs.1] at hyes
    cases hyes
  | plays streamId w h audio reopened hre =>
    unfold Endpoint.begin
    split
    next => exact hs
    next =>
      split
      next hpos => cases hpos
      next => exact hs
  | proposes | stops | releases => exact ⟨rfl, rfl⟩
  | ticks | connects | packet | pauses | seeks | reformatIgnored | reformats | volumes | reports
  | disconnects | errs | switches | hosts => exact hs

theorem run_released {mixer : Bool} {device : Option (List Char)} {acts : List (Action B)}
    {log : List Effect}
    (hrun : run (Endpoint.step build) (.new B mixer device) acts = .ok (s, log)) :
    s.released = true → NotPlaying s := by
  have hkeep : ∀ (r : Endpoint B) a r' o, (r.released = true → NotPlaying r) →
      r.step build a = .ok (r', o) → r'.released = true → NotPlaying r' :=
    fun r a r' o hr hstep => step_released hr hstep
  exact run_stays hkeep (fun hrel => Bool.noConfusion hrel) hrun

theorem run_alsa {conv : Conversions} {mixer : Bool} {device : Option (List Char)}
    {acts : List (Action (alsaBackend conv))} {s : Endpoint (alsaBackend conv)} {log : List Effect}
    (hrun : run (Endpoint.step build) (.new _ mixer device) acts = .ok (s, log)) :
    s.armed = false ∧ s.startDeadline = none := by
  have hkeep : ∀ (r : Endpoint (alsaBackend conv)) a r' o,
      r.armed = false ∧ r.startDeadline = none → r.step build a = .ok (r', o) →
      r'.armed = false ∧ r'.startDeadline = none :=
    fun r a r' o hr hstep => step_alsa hr hstep
  exact run_stays hkeep ⟨rfl, rfl⟩ hrun

/-! ### A pending start comes -/

section

variable {dec : Decoders} {s : Endpoint (cpalBackend dec)}

/-- The next track's format, on a device that opens. -/
def nextTrack (dec : Decoders) : Action (cpalBackend dec) :=
  .event (.control (.nextTrackReformat "" .pcmS16le 48000)) (localWorld 0 0) willing

/-- The output that the next track's format leaves. -/
def reconfigured (o : CpalOutput) : CpalOutput :=
  (o.configure .pcmS16le 48000 2 Cpal.plainOpening).1

theorem play_reconfigured (o : CpalOutput) : (reconfigured o).play.playing = true := rfl

theorem bufferLevel_reconfigured (o : CpalOutput) : (reconfigured o).bufferLevel = 0 := by
  simp [reconfigured, CpalOutput.configure, Cpal.plainOpening, CpalOutput.bufferLevel, Ring.new]

theorem step_nextTrack (build : Build) (hrel : s.released = false) :
    ∃ r effects, s.step build (nextTrack dec) = .ok (r, effects) ∧
      r.audio = reconfigured s.audio ∧ r.armed = s.armed ∧ r.started = s.started ∧
      r.startDeadline = s.startDeadline := by
  simp only [nextTrack, Endpoint.step, Endpoint.event, Endpoint.control,
    Endpoint.nextTrackReformat, hrel]
  exact ⟨_, _, rfl, rfl, rfl, rfl, rfl⟩

/-- The scheduled start comes. -/
def due (startAt : Nat) : Action (cpalBackend dec) := .startTimer (localWorld 0 startAt)

/-- The header of a packet of silence at time 0. -/
def someHeader : AudioPacketHeader :=
  { version := 1, flags := .empty, format := .pcmS16le, sequence := 0, streamId := 0, ptsNs := 0,
    sampleOffset := 0, payloadLen := 0, fecGroupSize := 0, fecIndex := 0, fecLenXor := 0 }

/-- A packet without audio comes. -/
def emptyPacket (header : AudioPacketHeader) : Action (cpalBackend dec) :=
  .event (.audioPacket header []) (localWorld 0 0) willing

theorem step_due (build : Build) {startAt : Nat} (hd : s.startDeadline = some startAt) :
    s.step build (due startAt) =
      .ok ({ s with startDeadline := none, started := true, audio := CpalOutput.play s.audio },
        []) := by
  simp only [due, Endpoint.step, Endpoint.startTimer, hd]
  exact if_pos le_rfl

/-- Without the controller's clock, the deferred start is at once. -/
theorem deferredStart_local (s : Endpoint B) (head : UInt64) :
    (s.deferredStart (localWorld 0 0) head).audio = B.play s.audio := by
  have hno : (localWorld 0 0).clock.bootstrapped = false := rfl
  unfold Endpoint.deferredStart
  simp only [hno, Bool.false_and, Bool.false_eq_true, if_false]

theorem headPtsNs_empty (build : Build) (s : Endpoint B) (header : AudioPacketHeader) :
    ∃ head, s.headPtsNs build header 0 = .ok head := by
  have hzero : Endpoint.checked (build.u64 0) = .ok 0 := by
    rw [build.u64_of_fits (by decide)]
    rfl
  rw [Endpoint.headPtsNs, Nat.zero_mul]
  exact ⟨_, bind_of_ok _ hzero⟩

theorem step_emptyPacket (build : Build) (harmed : s.armed = true) (hstarted : s.started = false)
    (hempty : CpalOutput.bufferLevel s.audio = 0) (header : AudioPacketHeader) :
    ∃ t effects, s.step build (emptyPacket header) = .ok (t, effects) ∧
      t.audio = CpalOutput.play s.audio := by
  have hlevel : (cpalBackend dec).bufferLevel s.audio = 0 := hempty
  have hskip : ∀ r : Endpoint (cpalBackend dec), r.writePacket header [] willing = .ok (r, []) :=
    fun _ => rfl
  obtain ⟨head, hhead⟩ := headPtsNs_empty build
    { s with packetCount := s.packetCount + 1, totalBytes := s.totalBytes + 0 } header
  have hstep : s.step build (emptyPacket header) =
      .ok ({ s with packetCount := s.packetCount + 1,
                    totalBytes := s.totalBytes + 0 }.deferredStart (localWorld 0 0) head,
        [.tracked]) := by
    simp only [emptyPacket, Endpoint.step, Endpoint.event, Endpoint.audioPacket, hskip, hlevel,
      List.length_nil]
    rw [bind_of_ok _ rfl, if_pos (by simp [harmed, hstarted]), bind_of_ok _ hhead]
    rfl
  exact ⟨_, _, hstep, deferredStart_local _ _⟩

/-- A pending start starts the output, unless Play or Seek comes first. -/
theorem pending_plays (build : Build) (hrel : s.released = false) (hno : ¬ Unscheduled s) :
    ∃ mid t log, (∀ a ∈ mid, resumes a = false) ∧
      run (Endpoint.step build) s mid = .ok (t, log) ∧
      (cpalBackend dec).isPlaying t.audio = true := by
  obtain ⟨r, effects, hnext, haudio, harmed, hstarted, hdeadline⟩ :=
    step_nextTrack build hrel
  cases hd : s.startDeadline with
  | some startAt =>
    have hdue := step_due build (hdeadline.trans hd)
    refine ⟨[nextTrack dec, due startAt], _, _, ?_, run_cons_ok hnext (run_single hdue), ?_⟩
    · simp [nextTrack, due, resumes]
    · change (CpalOutput.play r.audio).playing = true
      rw [haudio]
      exact play_reconfigured _
  | none =>
    obtain ⟨hyes, hnot⟩ : s.armed = true ∧ s.started = false := by
      by_contra hcon
      refine hno ⟨hd, ?_⟩
      intro hyes
      simpa [hyes] using hcon
    obtain ⟨t, more, hpacket, hplay⟩ := step_emptyPacket build (harmed.trans hyes)
      (hstarted.trans hnot) (by rw [haudio]; exact bufferLevel_reconfigured _) someHeader
    refine ⟨[nextTrack dec, emptyPacket someHeader], t, _, ?_,
      run_cons_ok hnext (run_single hpacket), ?_⟩
    · simp [nextTrack, emptyPacket, resumes]
    · change CpalOutput.playing t.audio = true
      rw [hplay, haudio]
      exact play_reconfigured _

end

/-- **Pause is respected**, exactly when no start is pending at it: then, and
only then, the output stays silent whatever comes, until Play or Seek. -/
theorem paused_until_play (output : Output) {s s₁ : Endpoint output.backend} {mixer : Bool}
    {device : Option (List Char)} {acts : List (Action output.backend)} {log out : List Effect}
    {streamId : String} {w : World} {h : output.backend.Host}
    (hrun : run (Endpoint.step build) (.new output.backend mixer device) acts = .ok (s, log))
    (hpause : s.step build (.event (.control (.playback (.pause streamId))) w h) = .ok (s₁, out)) :
    (∀ mid t more, (∀ a ∈ mid, resumes a = false) →
      run (Endpoint.step build) s₁ mid = .ok (t, more) →
      output.backend.isPlaying t.audio = false) ↔
    Unscheduled s := by
  cases hpause
  have hplays := playsOnly output
  constructor
  · intro hsilent
    cases output with
    | alsa conv =>
      obtain ⟨harmed, hdeadline⟩ := run_alsa hrun
      refine ⟨hdeadline, ?_⟩
      intro hyes
      rw [harmed] at hyes
      cases hyes
    | cpal dec =>
      by_contra hno
      have hrel : s.released = false := by
        cases hrel : s.released with
        | false => rfl
        | true =>
          obtain ⟨harmed, -, hdeadline⟩ := run_released hrun hrel
          refine absurd ⟨hdeadline, ?_⟩ hno
          intro hyes
          rw [harmed] at hyes
          cases hyes
      obtain ⟨mid, t, more, hmid, hruns, hplaying⟩ :=
        pending_plays build (s := s.pause.1) hrel hno
      exact absurd ((hsilent mid t more hmid hruns).symm.trans hplaying) (by decide)
  · intro hsched mid t more hmid hruns
    have hquiet : Quiet s.pause.1 :=
      ⟨(hplays.setCorrection _ _).trans (hplays.pause _), hsched⟩
    have hstep : ∀ r a r' o, Quiet r → resumes a = false → Endpoint.step build r a = .ok (r', o) →
        Quiet r' ∧ ∀ x ∈ o, True :=
      fun r a r' o hr ha hstep => ⟨step_quiet hplays hr ha hstep, fun _ _ => trivial⟩
    exact (run_keeps hstep hquiet (along_of_forall fun a ha _ => hmid a ha) hruns).1.1

/-- A packet of four frames of silence. -/
def silentPacket : Action (cpalBackend Cpal.pcmOnly) :=
  cpalEvent (.audioPacket someHeader (List.replicate 16 0))

def pauses : Action (cpalBackend Cpal.pcmOnly) := cpalEvent (.control (.playback (.pause "s")))

/-- The controller pauses before the first packet, and the packet starts the
output. -/
theorem plays_after_pause :
    resumes silentPacket = false ∧
    (run (Endpoint.step .release) cpalEndpoint (playing ++ [pauses])).map
      (fun r => r.1.audio.playing) = .ok false ∧
    (run (Endpoint.step .release) cpalEndpoint (playing ++ [pauses, silentPacket])).map
      (fun r => r.1.audio.playing) = .ok true := by
  refine ⟨rfl, ?_, ?_⟩ <;> decide +kernel

/-- The controller pauses after the first packet. -/
theorem pause_after_start :
    (run (Endpoint.step .release) cpalEndpoint (playing ++ [silentPacket])).map
      (fun r => (r.1.audio.playing, r.1.started)) = .ok (true, true) ∧
    ∀ s log, run (Endpoint.step .release) cpalEndpoint (playing ++ [silentPacket]) =
        .ok (s, log) →
      ∀ mid t more, (∀ a ∈ mid, resumes a = false) →
        run (Endpoint.step .release) s.pause.1 mid = .ok (t, more) →
        (cpalBackend Cpal.pcmOnly).isPlaying t.audio = false := by
  have hstate : (run (Endpoint.step .release) cpalEndpoint (playing ++ [silentPacket])).map
      (fun r => (r.1.startDeadline, r.1.started)) = .ok (none, true) := by decide +kernel
  refine ⟨by decide +kernel, ?_⟩
  intro s log hrun
  rw [hrun] at hstate
  simp only [Except.map, Except.ok.injEq, Prod.mk.injEq] at hstate
  have hpause : s.step .release pauses = .ok (s.pause.1, []) := rfl
  exact (paused_until_play (.cpal Cpal.pcmOnly) hrun hpause).mpr ⟨hstate.1, fun _ => hstate.2⟩

end Oaat.Cli
