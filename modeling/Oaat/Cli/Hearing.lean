/-
Oaat.Cli.Hearing — what the listener hears of a run of the application.

Between two configurations the application loop uses a cpal output through its
operations only (`step_drives`): a pass writes the payload that it brings, lets
the callbacks run, or makes calls that are not heard. So what is known of any
sequence of operations holds of the loop: whatever the servo, the timers and the
controls do in between, the frames heard and those in the ring are the frames
that the packets brought, in their order, with some left out and some repeated.
And when no correction is pending and the ring has room, they are those frames.
-/
import Oaat.Cli.Outputs
import Oaat.Cli.ScheduledStart

namespace Oaat.Cli

open Oaat.Core Oaat.Endpoint Oaat.Lib

/-! ## What a pass lets be heard -/

section

variable {dec : Decoders}

/-- The operations of a pass that write or are heard. -/
def heardOps (s : Endpoint (cpalBackend dec)) : Action (cpalBackend dec) → List Cpal.Op
  | .event (.audioPacket _ payload) _ h =>
    if !payload.isEmpty && !s.released then [.write payload h.callbacks] else []
  | .host h => h.callbacks.map .callback
  | _ => []

/-- What the output reports of them: the bytes written, and the device buffers. -/
def sounds (s : Endpoint (cpalBackend dec)) (a : Action (cpalBackend dec)) : List Cpal.Event :=
  match run (Cpal.step dec) s.audio (heardOps s a) with
  | .error _ => []
  | .ok (_, events) => events

/-- A pass, with what is heard of it. -/
def sounding (build : Build) (s : Endpoint (cpalBackend dec)) (a : Action (cpalBackend dec)) :
    Except Halt (Endpoint (cpalBackend dec) × List Cpal.Event) :=
  (s.step build a).map fun r => (r.1, sounds s a)

/-- A call that neither writes nor is heard. -/
def Unheard : Cpal.Op → Prop
  | .write _ _ | .callback _ => False
  | _ => True

/-- The callbacks of a pass ask for whole frames. -/
def WholeCallbacks (channels : UInt8) : Action (cpalBackend dec) → Prop
  | .event _ _ h | .release h | .host h => ∀ wanted ∈ h.callbacks, channels.toNat ∣ wanted
  | _ => True

end

/-! ## The loop drives the output -/

section

variable {dec : Decoders} {build : Build} {s s' : Endpoint (cpalBackend dec)}
  {a : Action (cpalBackend dec)} {effects : List Effect}

theorem run_callbacks (dec : Decoders) (o : CpalOutput) (wanted : List Nat) :
    run (Cpal.step dec) o (wanted.map .callback) =
      .ok ((o.callbacks wanted).1, (o.callbacks wanted).2.map .output) := by
  induction wanted generalizing o with
  | nil => rfl
  | cons w wanted ih =>
    have hone : Cpal.step dec o (.callback w) =
        .ok ((o.callback w).1, [.output (o.callback w).2]) := rfl
    exact run_cons_ok hone (ih (o.callback w).1)

theorem sounds_of_run {o : CpalOutput} {events : List Cpal.Event}
    (h : run (Cpal.step dec) s.audio (heardOps s a) = .ok (o, events)) : sounds s a = events := by
  simp only [sounds, h]

/-- The pass is a run of the output: what is heard first, and then quiet calls. -/
structure Drives (s : Endpoint (cpalBackend dec)) (a : Action (cpalBackend dec))
    (s' : Endpoint (cpalBackend dec)) : Prop where
  released : s'.released = false
  runs : ∃ ops, (∀ op ∈ ops, Unheard op) ∧
    run (Cpal.step dec) s.audio (heardOps s a ++ ops) = .ok (s'.audio, sounds s a)

/-- A pass with nothing to be heard. -/
theorem Drives.quiet (ops : List Cpal.Op) (hnone : heardOps s a = [])
    (hreleased : s'.released = false) (hunheard : ∀ op ∈ ops, Unheard op)
    (hrun : run (Cpal.step dec) s.audio ops = .ok (s'.audio, [])) : Drives s a s' := by
  have hsounds : sounds s a = [] := sounds_of_run (by rw [hnone]; rfl)
  refine ⟨hreleased, ops, hunheard, ?_⟩
  rw [hnone, hsounds]
  exact hrun

/-- A packet's write, and what the loop does after it. -/
theorem Drives.packet {header : AudioPacketHeader} {payload : List UInt8} {w : World}
    {h : (cpalBackend dec).Host} {audio : (cpalBackend dec).State} {wrote : List Effect}
    (hreleased : s.released = false) (hwrote : Wrote s header payload h audio wrote)
    (ops : List Cpal.Op) (hunheard : ∀ op ∈ ops, Unheard op) (hreleased' : s'.released = false)
    (hrun : run (Cpal.step dec) audio ops = .ok (s'.audio, [])) :
    Drives s (.event (.audioPacket header payload) w h) s' := by
  cases hwrote with
  | ignored hskip =>
    have hempty : payload = [] := hskip.resolve_right (by simp [hreleased])
    exact .quiet ops (by simp [heardOps, hempty]) hreleased' hunheard hrun
  | written _ opened hne hrel hw =>
    have hops : heardOps s (.event (.audioPacket header payload) w h) =
        [.write payload h.callbacks] := by
      have hsome : payload.isEmpty = false := by simp [hne]
      simp [heardOps, hsome, hrel]
    obtain ⟨enqueued, outs, hwrite⟩ : ∃ enqueued outs,
        CpalOutput.writeAudio dec s.audio payload h.callbacks = .ok (audio, enqueued, outs) := by
      simp only [cpalBackend] at hw
      split at hw
      next => cases hw
      next o' enqueued outs hok =>
        cases hw
        exact ⟨enqueued, outs, hok⟩
    have hone : run (Cpal.step dec) s.audio
          (heardOps s (.event (.audioPacket header payload) w h)) =
        .ok (audio, .wrote (CpalOutput.ringBytes dec s.audio payload).2 enqueued ::
          outs.map .output) := by
      rw [hops]
      exact run_single (by simp only [Cpal.step, hwrite])
    refine ⟨hreleased', ops, hunheard, ?_⟩
    rw [sounds_of_run hone]
    simpa using run_append_ok hone hrun

/-- What the backend calls, as a run of the output. -/
theorem run_one (o : CpalOutput) (op : Cpal.Op) {o' : CpalOutput}
    (h : Cpal.step dec o op = .ok (o', [])) : run (Cpal.step dec) o [op] = .ok (o', []) :=
  run_single h

/-- The loop plays the output, or leaves it. -/
theorem play_or_leave (dec : Decoders) {o o' : CpalOutput} (h : o' = o ∨ o' = o.play) :
    ∃ ops, (∀ op ∈ ops, Unheard op) ∧ run (Cpal.step dec) o ops = .ok (o', []) := by
  rcases h with rfl | rfl
  · exact ⟨[], by simp, rfl⟩
  · exact ⟨[.play], by simp [Unheard], run_one o .play rfl⟩

/-- **One pass.** -/
theorem step_drives (hkeeps : KeepsRing a) (hreleased : s.released = false)
    (hstep : s.step build a = .ok (s', effects)) : Drives s a s' := by
  cases step_inv hstep with
  | proposes | stops | seeks | reformats | reformatIgnored | disconnects | releases => cases hkeeps
  | connects | reports | errs | switches => exact .quiet [] rfl hreleased (by simp) rfl
  | starts w startAt hd =>
    exact .quiet [.play] rfl hreleased (by simp [Unheard]) (run_one _ .play rfl)
  | pauses streamId w h =>
    exact .quiet [.pause, .setCorrection 0] rfl hreleased (by simp [Unheard])
      (run_cons_ok (o := []) rfl (run_one _ (.setCorrection 0) rfl))
  | ticks w inUse idle audio tracker drift stats hserved =>
    rcases hserved.audio_eq with rfl | ⟨-, -, c, rfl⟩
    · exact .quiet [] rfl hreleased (by simp) rfl
    · exact .quiet [.setCorrection c] rfl hreleased (by simp [Unheard])
        (run_one _ (.setCorrection c) rfl)
  | volumes cmd w h audio hreg =>
    cases hreg with
    | kept => exact .quiet [] rfl hreleased (by simp) rfl
    | volume level =>
      exact .quiet [.setVolume level] rfl hreleased (by simp [Unheard])
        (run_one _ (.setVolume level) rfl)
    | mute muted =>
      exact .quiet [.setMute muted] rfl hreleased (by simp [Unheard])
        (run_one _ (.setMute muted) rfl)
  | hosts h audio opened hhost =>
    cases hhost
    have hrun := run_callbacks dec s.audio h.callbacks
    refine ⟨hreleased, [], by simp, ?_⟩
    rw [List.append_nil, sounds_of_run hrun]
    exact hrun
  | plays streamId w h audio reopened hre =>
    have haudio : audio = s.audio := by
      cases hre with
      | kept => rfl
      | unknown => rfl
      | configured fp audio opened r hrel =>
        rw [hreleased] at hrel
        cases hrel
    obtain ⟨-, hrel, -, -, hbegin⟩ :=
      begin_frame { s with released := false, audio, outputInUse := true }
    rw [haudio] at hbegin
    obtain ⟨ops, hunheard, hrun⟩ := play_or_leave dec hbegin
    rw [haudio]
    exact .quiet ops rfl (by rw [← haudio, hrel]) hunheard hrun
  | packet header payload w h audio wrote hw =>
    exact .packet hreleased hw [] (by simp) hreleased rfl
  | packetStarts header payload w h audio wrote head hw =>
    obtain ⟨-, hrel, -, -, hstart⟩ := deferredStart_frame
      { s with packetCount := s.packetCount + 1, totalBytes := s.totalBytes + payload.length,
               audio } w head
    obtain ⟨ops, hunheard, hrun⟩ := play_or_leave dec hstart
    exact .packet hreleased hw ops hunheard (hrel.trans hreleased) hrun

theorem sounding_inv {events : List Cpal.Event} (h : sounding build s a = .ok (s', events)) :
    (∃ effects, s.step build a = .ok (s', effects)) ∧ events = sounds s a := by
  unfold sounding at h
  cases hstep : s.step build a with
  | error e =>
    rw [hstep] at h
    cases h
  | ok r =>
    rw [hstep] at h
    cases h
    exact ⟨⟨r.2, rfl⟩, rfl⟩

/-- What is offered to the output is what the pass brings. -/
theorem Drives.offered {format : AudioFormat} {channels : UInt8} (hd : Drives s a s')
    (hal : Cpal.Aligned format channels s.audio) (hpcm : format.isPcm = true)
    (hreleased : s.released = false) (n : Nat) :
    Cpal.offeredFrames n (sounds s a) = frames n (payloadOf a) := by
  have hnil : frames n ([] : List UInt8) = [] := by simp [frames, chunk]
  obtain ⟨ops, -, hrun⟩ := hd.runs
  cases a with
  | startTimer | servoTick | release | switchDevice => exact hnil.symm
  | host host =>
    rw [sounds_of_run (run_callbacks dec s.audio host.callbacks), Cpal.offeredFrames_outputs]
    exact hnil.symm
  | event e w host =>
    cases e with
    | audioPacket header payload =>
      by_cases hempty : payload = []
      · have hops : heardOps s (.event (.audioPacket header payload) w host) = [] := by
          simp [heardOps, hempty]
        have hsilent : sounds s (.event (.audioPacket header payload) w host) = [] :=
          sounds_of_run (by rw [hops]; rfl)
        rw [hsilent, payloadOf, hempty]
        exact hnil.symm
      · have hops : heardOps s (.event (.audioPacket header payload) w host) =
            [.write payload host.callbacks] := by
          have hsome : payload.isEmpty = false := by simp [hempty]
          simp [heardOps, hsome, hreleased]
        rw [hops] at hrun
        obtain ⟨o, ev, evs, hwrite, -, -⟩ := run_cons_inv hrun
        have hev : sounds s (.event (.audioPacket header payload) w host) = ev :=
          sounds_of_run (by rw [hops]; exact run_single hwrite)
        have hring : (CpalOutput.ringBytes dec s.audio payload).2 = payload :=
          congrArg Prod.snd (Cpal.ringBytes_pcm dec payload (hal.format_eq ▸ hpcm))
        rw [hev]
        simp only [Cpal.step] at hwrite
        split at hwrite
        next => cases hwrite
        next o' enqueued outs hok =>
          cases hwrite
          rw [hring, ← List.singleton_append, Cpal.offeredFrames_append,
            Cpal.offeredFrames_outputs, List.append_nil]
          simp [Cpal.offeredFrames, payloadOf]
    | _ => exact hnil.symm

end

/-! ## Runs -/

section

variable {dec : Decoders} {build : Build} {s s' t : Endpoint (cpalBackend dec)}
  {a : Action (cpalBackend dec)} {acts : List (Action (cpalBackend dec))} {format : AudioFormat}
  {channels : UInt8} {log events : List Cpal.Event}

theorem wholeFrames_of_unheard {op : Cpal.Op} (h : Unheard op) : op.WholeFrames channels := by
  cases op with
  | write | callback => cases h
  | setCorrection | setVolume | setMute | play | pause => trivial

theorem wholeFrames_heardOps (h : WholeCallbacks channels a) :
    ∀ op ∈ heardOps s a, op.WholeFrames channels := by
  intro op hop
  cases a with
  | startTimer | servoTick | release | switchDevice => cases hop
  | host host =>
    obtain ⟨wanted, hmem, rfl⟩ := List.mem_map.mp hop
    exact h wanted hmem
  | event e w host =>
    cases e with
    | audioPacket header payload =>
      simp only [heardOps] at hop
      split at hop
      next =>
        rw [List.mem_singleton.mp hop]
        exact h
      next => cases hop
    | _ => cases hop

/-- **One pass keeps what was delivered.** -/
theorem Drives.delivers (hd : Drives s a s') (hch : 1 ≤ channels.toNat)
    (hwhole : WholeCallbacks channels a) (h : Cpal.Delivers format channels s.audio log) :
    Cpal.Delivers format channels s'.audio (log ++ sounds s a) := by
  obtain ⟨ops, hunheard, hrun⟩ := hd.runs
  refine (Cpal.run_delivers hch ?_ h hrun).1
  intro op hop
  rcases List.mem_append.mp hop with hop | hop
  · exact wholeFrames_heardOps hwhole op hop
  · exact wholeFrames_of_unheard (hunheard op hop)

/-- The frames that the passes bring. -/
def broughtFrames (n : Nat) (acts : List (Action (cpalBackend dec))) : List (List UInt8) :=
  acts.flatMap fun a => frames n (payloadOf a)

/-- **A run of the loop.** What a pass keeps of the output and the log, the run
keeps, and it offers the output what its packets bring. -/
theorem run_drives (Inv : CpalOutput → List Cpal.Event → Prop)
    (P : Endpoint (cpalBackend dec) → Action (cpalBackend dec) → Prop)
    (haligned : ∀ {o log}, Inv o log → Cpal.Aligned format channels o)
    (hpass : ∀ {s a s' log}, Drives s a s' → WholeCallbacks channels a → P s a →
      Inv s.audio log → Inv s'.audio (log ++ sounds s a))
    (hpcm : format.isPcm = true) (hkeeps : ∀ a ∈ acts, KeepsRing a)
    (hwhole : ∀ a ∈ acts, WholeCallbacks channels a) (halong : Along (sounding build) P s acts)
    (hreleased : s.released = false) (h : Inv s.audio log)
    (hrun : run (sounding build) s acts = .ok (t, events)) :
    Inv t.audio (log ++ events) ∧
      Cpal.offeredFrames (Cpal.frameSize format channels) events =
        broughtFrames (Cpal.frameSize format channels) acts := by
  induction acts generalizing s log events with
  | nil =>
    simp only [run_nil, Except.ok.injEq, Prod.mk.injEq] at hrun
    obtain ⟨rfl, rfl⟩ := hrun
    exact ⟨by simpa using h, rfl⟩
  | cons a acts ih =>
    obtain ⟨s₁, ev, evs, hstep, hrest, rfl⟩ := run_cons_inv hrun
    rw [along_cons_iff acts hstep] at halong
    obtain ⟨⟨effects, hdone⟩, rfl⟩ := sounding_inv hstep
    have hd := step_drives (hkeeps a (by simp)) hreleased hdone
    obtain ⟨hall, hoffered⟩ := ih (fun b hb => hkeeps b (List.mem_cons_of_mem _ hb))
      (fun b hb => hwhole b (List.mem_cons_of_mem _ hb)) halong.2 hd.released
      (hpass hd (hwhole a (by simp)) halong.1 h) hrest
    refine ⟨by rwa [← List.append_assoc], ?_⟩
    rw [Cpal.offeredFrames_append, hd.offered (haligned h) hpcm hreleased, hoffered]
    rfl

/-- The output is configured, and its ring is empty. -/
structure Primed (o : CpalOutput) : Prop where
  aligned : Cpal.Aligned o.format o.channels o
  empty : Cpal.inRing o = []

theorem Primed.play {o : CpalOutput} (h : Primed o) : Primed o.play := by
  rw [Cpal.play_eq h.aligned]
  exact ⟨⟨rfl, rfl, h.aligned.ringFormat_eq, h.aligned.stream⟩, h.empty⟩

theorem Primed.setCorrection {o : CpalOutput} (h : Primed o) (frames : Int) :
    Primed (o.setCorrection frames) :=
  ⟨⟨rfl, rfl, h.aligned.ringFormat_eq, h.aligned.stream⟩, h.empty⟩

/-- A configuration that leaves a stream has succeeded. -/
theorem primed_of_configure {o o' : CpalOutput} {sampleRate : UInt32} {opening : Opening}
    {r : Except String Unit} (h : o.configure format sampleRate channels opening = (o', r))
    (hopen : o'.deviceOpen = true) : Primed o' := by
  cases r with
  | ok u =>
    obtain ⟨hal, hempty, -, -⟩ := Cpal.aligned_configure h
    obtain rfl := hal.format_eq
    obtain rfl := hal.channels_eq
    exact ⟨hal, hempty⟩
  | error e =>
    have hclosed : o'.deviceOpen = false := by
      unfold CpalOutput.configure at h
      cases hdev : opening.device with
      | error e =>
        simp only [hdev, Prod.mk.injEq] at h
        rw [← h.1]
        rfl
      | ok dev =>
        cases hbuild : opening.build with
        | error e =>
          simp only [hdev, hbuild, Prod.mk.injEq] at h
          rw [← h.1]
          rfl
        | ok u => simp [hdev, hbuild] at h
    rw [hclosed] at hopen
    cases hopen

theorem configure_primed {o o' : CpalOutput} {cfg : Config} {host : CpalHost}
    {r : Except String Unit}
    (h : (cpalBackend dec).configure o cfg host = .ok (o', true, r)) : Primed o' := by
  obtain ⟨rfl, hopen, -⟩ : (o.configure cfg.format cfg.sampleRate cfg.channels host.opening).1 = o' ∧
      (o.configure cfg.format cfg.sampleRate cfg.channels host.opening).1.deviceOpen = true ∧
      (o.configure cfg.format cfg.sampleRate cfg.channels host.opening).2 = r := by
    simpa [cpalBackend] using h
  exact primed_of_configure rfl hopen

theorem flush_primed {o o' : CpalOutput} {host : CpalHost}
    (h : (cpalBackend dec).flush o host = .ok (o', true)) : Primed o' := by
  obtain ⟨rfl, hopen⟩ : o.flush host.opening = o' ∧ (o.flush host.opening).deviceOpen = true := by
    simpa [cpalBackend] using h
  refine (primed_of_configure rfl ?_).play
  unfold CpalOutput.flush CpalOutput.play at hopen
  split at hopen
  next hsome => exact hsome
  next => exact hopen

theorem writeAudio_closed {o o' : CpalOutput} {data : List UInt8} {host : CpalHost} {opened : Bool}
    (h : (cpalBackend dec).writeAudio o data host = .ok (o', opened)) : opened = false := by
  simp only [cpalBackend] at h
  split at h
  next => cases h
  next =>
    cases h
    rfl

theorem mem_openedIf {opened : Bool} :
    Effect.opened ∈ Endpoint.openedIf opened ↔ opened = true := by
  cases opened <;> simp [Endpoint.openedIf]

/-- Whatever pass opened a device, a proposal, Play, Seek or a next track, has left the
output configured, with an empty ring. -/
theorem primed_of_opened (hstep : s.step build a = .ok (s', effects))
    (hopened : .opened ∈ effects) : Primed s'.audio := by
  cases step_inv hstep with
  | proposes fp w h audio opened r verdict hconf =>
    have htrue : opened = true := by simpa [mem_openedIf] using hopened
    exact configure_primed (htrue ▸ hconf)
  | reformats streamId format sampleRate w h audio opened r hrel hconf =>
    have htrue : opened = true := by simpa [mem_openedIf] using hopened
    exact configure_primed (htrue ▸ hconf)
  | seeks streamId positionMs w h audio opened hflush =>
    have htrue : opened = true := by simpa [mem_openedIf] using hopened
    exact (flush_primed (htrue ▸ hflush)).setCorrection 0
  | plays streamId w h audio reopened hre =>
    have hprimed : Primed audio := by
      cases hre with
      | kept | unknown => split at hopened <;> simp at hopened
      | configured fp audio opened r hrel hfp hconf =>
        have htrue : opened = true := by
          split at hopened <;> simpa [mem_openedIf] using hopened
        exact configure_primed (htrue ▸ hconf)
    obtain ⟨-, -, -, -, haudio | haudio⟩ :=
      begin_frame { s with released := false, audio, outputInUse := true }
    · rw [haudio]
      exact hprimed
    · rw [haudio]
      exact hprimed.play
  | ticks w inUse ticks audio tracker lastDrift stats hserved huse hstats =>
    rcases hstats with rfl | ⟨-, ss, rfl⟩ <;> split at hopened <;> simp at hopened
  | packet header payload w h audio wrote hwrote =>
    cases hwrote with
    | ignored => cases hopened
    | written audio opened hne hrel hw =>
      obtain rfl := writeAudio_closed hw
      simp [Endpoint.openedIf] at hopened
  | packetStarts header payload w h audio wrote head hwrote =>
    cases hwrote with
    | ignored => simp at hopened
    | written audio opened hne hrel hw =>
      obtain rfl := writeAudio_closed hw
      simp [Endpoint.openedIf] at hopened
  | stops streamId w h audio opened hstop | disconnects w h audio opened hstop =>
    cases hstop
    split at hopened <;> simp [Endpoint.openedIf] at hopened
  | releases h audio opened told hrelease htold =>
    cases hrelease
    rcases htold with rfl | ⟨-, er, rfl⟩ <;> split at hopened <;>
      simp [Endpoint.openedIf] at hopened
  | hosts h audio opened hhost =>
    cases hhost
    cases hopened
  | _ => cases hopened

/-- A cpal endpoint has just opened a device for PCM, and its loop has run on from
`s₀` without configuring or emptying the output again. -/
structure Listening (build : Build) (format : AudioFormat) (channels : UInt8)
    (s₀ : Endpoint (cpalBackend dec)) (acts : List (Action (cpalBackend dec)))
    (t : Endpoint (cpalBackend dec)) (events : List Cpal.Event) : Prop where
  pcm : format.isPcm = true
  one_le : 1 ≤ channels.toNat
  opened : ∃ s a effects, Endpoint.step build s a = .ok (s₀, effects) ∧ .opened ∈ effects
  unreleased : s₀.released = false
  format_eq : s₀.audio.format = format
  channels_eq : s₀.audio.channels = channels
  keeps : ∀ a ∈ acts, KeepsRing a
  whole : ∀ a ∈ acts, WholeCallbacks channels a
  ran : run (sounding build) s₀ acts = .ok (t, events)

/-- Where such a run starts. -/
theorem Listening.primed {s₀ : Endpoint (cpalBackend dec)}
    (h : Listening build format channels s₀ acts t events) :
    Cpal.Aligned format channels s₀.audio ∧ Cpal.inRing s₀.audio = [] := by
  obtain ⟨s, a, effects, hstep, hopened⟩ := h.opened
  obtain ⟨hal, hempty⟩ := primed_of_opened hstep hopened
  exact ⟨h.format_eq ▸ h.channels_eq ▸ hal, hempty⟩

theorem Listening.delivers {s₀ : Endpoint (cpalBackend dec)}
    (h : Listening build format channels s₀ acts t events) :
    Cpal.Delivers format channels t.audio events ∧
      Cpal.offeredFrames (Cpal.frameSize format channels) events =
        broughtFrames (Cpal.frameSize format channels) acts := by
  obtain ⟨hal, hempty⟩ := h.primed
  have hstart : Cpal.Delivers format channels s₀.audio [] := by
    refine ⟨hal, by simp, ?_⟩
    rw [hempty, frames_of_lt (by simpa using Cpal.frameSize_pos format h.one_le)]
    exact .nil
  exact run_drives (Cpal.Delivers format channels) (fun _ _ => True)
    Cpal.Delivers.aligned (fun hd hw _ hdel => hd.delivers h.one_le hw hdel) h.pcm h.keeps
    h.whole (along_of_forall fun _ _ _ => trivial) h.unreleased hstart h.ran

/-- **What a run of the application does to a stream.** Whatever the loop does until
it configures or empties the output again, timers, servo corrections, pauses and
volume included, every device buffer is whole frames and then silence, and the
frames heard, followed by those in the ring, are the frames of the packets with
some left out and some repeated in place. -/
theorem app_frame_integrity {s₀ : Endpoint (cpalBackend dec)}
    (h : Listening build format channels s₀ acts t events) :
    (∀ out, .output out ∈ events →
      Cpal.InFrames (Cpal.sampleBytes format) (Cpal.frameSize format channels) out) ∧
    Warped (broughtFrames (Cpal.frameSize format channels) acts)
      (Cpal.heardFrames (Cpal.frameSize format channels) events ++
        frames (Cpal.frameSize format channels) (Cpal.inRing t.audio)) := by
  have hend := h.delivers
  exact ⟨hend.1.inFrames, hend.2 ▸ hend.1.warped⟩

/-- A packet of two frames, as it comes. -/
def framesPacket (payload : List UInt8) : Action (cpalBackend Cpal.pcmOnly) :=
  .event (.audioPacket someHeader payload) (localWorld 0 0) willing

/-- The device takes one frame. -/
def oneFrame : Action (cpalBackend Cpal.pcmOnly) :=
  .host { opening := Cpal.plainOpening, callbacks := [2] }

/-- The application configures its output for 16-bit stereo. -/
def proposedEndpoint : Endpoint (cpalBackend Cpal.pcmOnly) :=
  { cpalEndpoint with
    audio := Cpal.stereoOutput, streamSampleRate := 48000, currentStreamId := "s",
    lastFormat := some (stereoProposal "s" 48000) }

theorem proposedEndpoint_opened : ∃ s a effects,
    Endpoint.step .release s a = .ok (proposedEndpoint, effects) ∧ .opened ∈ effects :=
  ⟨cpalEndpoint, .event (.control (.formatProposed (stereoProposal "s" 48000))) (localWorld 0 0)
    willing, _, rfl, by decide⟩

/-- A run of it on 16-bit stereo. -/
theorem listening_proposedEndpoint {acts : List (Action (cpalBackend Cpal.pcmOnly))}
    {t : Endpoint (cpalBackend Cpal.pcmOnly)} (hkeeps : ∀ a ∈ acts, KeepsRing a)
    (hwhole : ∀ a ∈ acts, WholeCallbacks 2 a)
    (hrun : run (sounding .release) proposedEndpoint acts = .ok (t, events)) :
    Listening .release .pcmS16le 2 proposedEndpoint acts t events where
  pcm := rfl
  one_le := by decide
  opened := proposedEndpoint_opened
  unreleased := rfl
  format_eq := rfl
  channels_eq := rfl
  keeps := hkeeps
  whole := hwhole
  ran := hrun

/-- The servo finds the output 47 frames late. -/
def lateRun : List (Action (cpalBackend Cpal.pcmOnly)) :=
  [cpalEvent (.control (.playback (.play "s"))), framesPacket [1, 0, 2, 0, 3, 0, 4, 0], oneFrame,
   .servoTick (localWorld 1_000_000 0), framesPacket [5, 0, 6, 0, 7, 0, 8, 0], oneFrame, oneFrame]

/-- The third frame is dropped. -/
theorem app_frame_integrity_late :
    (run (sounding .release) proposedEndpoint lateRun).map (fun r => Cpal.heardFrames 4 r.2) =
      .ok [[1, 0, 2, 0], [3, 0, 4, 0], [7, 0, 8, 0]] ∧
    ∀ t events, run (sounding .release) proposedEndpoint lateRun = .ok (t, events) →
      Warped [[1, 0, 2, 0], [3, 0, 4, 0], [5, 0, 6, 0], [7, 0, 8, 0]]
        (Cpal.heardFrames 4 events ++ frames 4 (Cpal.inRing t.audio)) := by
  refine ⟨by decide +kernel, ?_⟩
  intro t events hrun
  have hkeeps : ∀ a ∈ lateRun, KeepsRing a := by
    simp [lateRun, cpalEvent, framesPacket, oneFrame, KeepsRing]
  have hwhole : ∀ a ∈ lateRun, WholeCallbacks 2 a := by
    simp [lateRun, cpalEvent, framesPacket, oneFrame, WholeCallbacks, willing]
  exact (app_frame_integrity (listening_proposedEndpoint hkeeps hwhole hrun)).2

/-! ## Without a correction -/

/-- The packet finds no correction pending, and room in the ring. -/
def Smooth (s : Endpoint (cpalBackend dec)) (a : Action (cpalBackend dec)) : Prop :=
  payloadOf a = [] ∨ CpalOutput.correction s.audio = 0 ∧
    (payloadOf a).length + (Cpal.inRing s.audio).length ≤ Cpal.ringSize s.audio

instance (s : Endpoint (cpalBackend dec)) (a : Action (cpalBackend dec)) : Decidable (Smooth s a) :=
  inferInstanceAs (Decidable (_ ∨ _ ∧ _ ≤ _))

/-- What a run has done so far, without a correction: the frames heard and those
in the ring are the frames offered. -/
structure Plays (format : AudioFormat) (channels : UInt8) (o : CpalOutput)
    (log : List Cpal.Event) : Prop where
  aligned : Cpal.Aligned format channels o
  exact : Cpal.heardFrames (Cpal.frameSize format channels) log ++
      frames (Cpal.frameSize format channels) (Cpal.inRing o) =
    Cpal.offeredFrames (Cpal.frameSize format channels) log

section

variable {o o' : CpalOutput}

/-- A write without a correction, into a ring with room. -/
theorem Plays.write (h : Plays format channels o log) (hch : 1 ≤ channels.toNat)
    {bytes : List UInt8} {enqueued : Nat} {outs : List (List OutSample)}
    (hroom : bytes.length + (Cpal.inRing o).length ≤ Cpal.ringSize o)
    (hw : Cpal.Writes format channels o o' bytes enqueued outs 0 0) :
    Plays format channels o' (log ++ .wrote bytes enqueued :: outs.map .output) := by
  have hpos := Cpal.frameSize_pos format hch
  obtain ⟨q, hq, hring⟩ := hw.ring
  have hcorrected : Cpal.corrected (Cpal.frameSize format channels) bytes 0 0 =
      frames (Cpal.frameSize format channels) bytes := rfl
  have hall : enqueued = (frames (Cpal.frameSize format channels) bytes).length := by
    rw [hw.enqueued_eq, hcorrected, length_frames]
    exact Nat.min_eq_right (Nat.div_le_div_right (by omega))
  rw [hcorrected, hall, List.take_length] at hring
  refine ⟨hw.aligned, ?_⟩
  have hold := h.exact
  rw [hq, frames_append hpos _ (Cpal.dvd_flatMap_heard hw.inFrames), ← List.append_assoc] at hold
  have hoffered : Cpal.offeredFrames (Cpal.frameSize format channels)
      (.wrote bytes enqueued :: outs.map .output) =
      frames (Cpal.frameSize format channels) bytes := by
    rw [← List.singleton_append, Cpal.offeredFrames_append, Cpal.offeredFrames_outputs]
    simp [Cpal.offeredFrames]
  have hheard : Cpal.heardFrames (Cpal.frameSize format channels)
      (.wrote bytes enqueued :: outs.map .output) =
      frames (Cpal.frameSize format channels) (outs.flatMap Cpal.heard) := by
    rw [← List.singleton_append, Cpal.heardFrames_append, Cpal.heardFrames_outputs,
      Cpal.frames_flatMap_heard hpos hw.inFrames]
    simp [Cpal.heardFrames]
  rw [Cpal.heardFrames_append, Cpal.offeredFrames_append, hheard, hoffered, hring,
    ← List.append_assoc, hold]

/-- Callbacks move frames from the ring to the device. -/
theorem Plays.callbacks (h : Plays format channels o log) (hch : 1 ≤ channels.toNat)
    {outs : List (List OutSample)} (hc : Cpal.Consumes format channels o o' outs) :
    Plays format channels o' (log ++ outs.map .output) := by
  have hpos := Cpal.frameSize_pos format hch
  refine ⟨hc.aligned, ?_⟩
  have hold := h.exact
  rw [hc.ring, frames_append hpos _ (Cpal.dvd_flatMap_heard hc.inFrames),
    Cpal.frames_flatMap_heard hpos hc.inFrames, ← Cpal.heardFrames_outputs] at hold
  rw [Cpal.heardFrames_append, Cpal.offeredFrames_append, Cpal.offeredFrames_outputs,
    List.append_nil, List.append_assoc, hold]

/-- A call that is not heard leaves the ring as it is. -/
theorem Plays.unheard (h : Plays format channels o log) {op : Cpal.Op} (hop : Unheard op)
    {ev : List Cpal.Event} (hstep : Cpal.step dec o op = .ok (o', ev)) :
    Plays format channels o' log := by
  have hal := h.aligned
  cases op with
  | write | callback => cases hop
  | play =>
    cases hstep
    rw [Cpal.play_eq hal]
    exact ⟨⟨hal.channels_eq, hal.format_eq, hal.ringFormat_eq, hal.stream⟩, h.exact⟩
  | setCorrection | setVolume | setMute | pause =>
    cases hstep
    exact ⟨⟨hal.channels_eq, hal.format_eq, hal.ringFormat_eq, hal.stream⟩, h.exact⟩

theorem Plays.unheards (h : Plays format channels o log) {ops : List Cpal.Op}
    (hops : ∀ op ∈ ops, Unheard op) {ev : List Cpal.Event}
    (hrun : run (Cpal.step dec) o ops = .ok (o', ev)) : Plays format channels o' log := by
  induction ops generalizing o ev with
  | nil =>
    simp only [run_nil, Except.ok.injEq, Prod.mk.injEq] at hrun
    obtain ⟨rfl, -⟩ := hrun
    exact h
  | cons op ops ih =>
    obtain ⟨o₁, e, es, hstep, hrest, -⟩ := run_cons_inv hrun
    exact ih (h.unheard (hops op (by simp)) hstep)
      (fun p hp => hops p (List.mem_cons_of_mem _ hp)) hrest

end

/-- The heard part of a pass, and the quiet rest. -/
theorem Drives.split (hd : Drives s a s') :
    ∃ mid ops ev, run (Cpal.step dec) s.audio (heardOps s a) = .ok (mid, sounds s a) ∧
      (∀ op ∈ ops, Unheard op) ∧ run (Cpal.step dec) mid ops = .ok (s'.audio, ev) := by
  obtain ⟨ops, hunheard, hrun⟩ := hd.runs
  obtain ⟨mid, heard, quiet, hheard, hrest, -⟩ := run_append_inv hrun
  exact ⟨mid, ops, quiet, sounds_of_run hheard ▸ hheard, hunheard, hrest⟩

/-- Without an operation nothing changes. -/
theorem Plays.nothing {o o' : CpalOutput} (h : Plays format channels o log)
    (hrun : run (Cpal.step dec) o [] = .ok (o', events)) :
    Plays format channels o' (log ++ events) := by
  obtain ⟨rfl, rfl⟩ := Prod.mk.inj (Except.ok.inj hrun)
  rw [List.append_nil]
  exact h

/-- One write. -/
theorem Plays.written {o o' : CpalOutput} (h : Plays format channels o log)
    (hch : 1 ≤ channels.toNat) (hpcm : format.isPcm = true) {payload : List UInt8}
    {during : List Nat} (hwhole : ∀ wanted ∈ during, channels.toNat ∣ wanted)
    (hzero : o.correction = 0)
    (hroom : payload.length + (Cpal.inRing o).length ≤ Cpal.ringSize o)
    (hrun : run (Cpal.step dec) o [.write payload during] = .ok (o', events)) :
    Plays format channels o' (log ++ events) := by
  rw [run_singleton, Cpal.step] at hrun
  have hring := Cpal.ringBytes_pcm dec payload (h.aligned.format_eq ▸ hpcm : o.format.isPcm = true)
  split at hrun
  next => cases hrun
  next o' enqueued outs hok =>
    obtain ⟨rfl, rfl⟩ := Prod.mk.inj (Except.ok.inj hrun)
    have hspec := Cpal.write_spec h.aligned hch hwhole hok
    rw [hzero, hring] at hspec
    rw [hring]
    exact h.write hch hroom hspec

/-- **One pass.** -/
theorem Drives.plays (hd : Drives s a s') (hch : 1 ≤ channels.toNat) (hpcm : format.isPcm = true)
    (hwhole : WholeCallbacks channels a) (hsmooth : Smooth s a)
    (h : Plays format channels s.audio log) :
    Plays format channels s'.audio (log ++ sounds s a) := by
  obtain ⟨mid, ops, ev, hheard, hunheard, hrest⟩ := hd.split
  suffices hmid : Plays format channels mid (log ++ sounds s a) from hmid.unheards hunheard hrest
  cases a with
  | startTimer | servoTick | release | switchDevice => exact h.nothing hheard
  | host host =>
    obtain ⟨rfl, hev⟩ := Prod.mk.inj (Except.ok.inj ((run_callbacks _ _ _).symm.trans hheard))
    rw [← hev]
    exact h.callbacks hch (Cpal.callbacks_spec h.aligned hwhole)
  | event e w host =>
    cases e with
    | audioPacket header payload =>
      by_cases hwrite : (!payload.isEmpty && !s.released) = true
      · have hops : heardOps s (.event (.audioPacket header payload) w host) =
            [.write payload host.callbacks] := if_pos hwrite
        have hsome : payload ≠ [] := by
          rintro rfl
          simp at hwrite
        obtain ⟨hzero, hroom⟩ := hsmooth.resolve_left hsome
        exact h.written hch hpcm hwhole hzero hroom (hops ▸ hheard)
      · have hops : heardOps s (.event (.audioPacket header payload) w host) = [] := if_neg hwrite
        exact h.nothing (hops ▸ hheard)
    | _ => exact h.nothing hheard

theorem Listening.plays {s₀ : Endpoint (cpalBackend dec)}
    (h : Listening build format channels s₀ acts t events)
    (hsmooth : Along (sounding build) Smooth s₀ acts) :
    Plays format channels t.audio events ∧
      Cpal.offeredFrames (Cpal.frameSize format channels) events =
        broughtFrames (Cpal.frameSize format channels) acts := by
  obtain ⟨hal, hempty⟩ := h.primed
  have hstart : Plays format channels s₀.audio [] := by
    refine ⟨hal, ?_⟩
    rw [hempty, frames_of_lt (by simpa using Cpal.frameSize_pos format h.one_le)]
    rfl
  exact run_drives (Plays format channels) Smooth Plays.aligned
    (fun hd hw hs hplays => hd.plays h.one_le h.pcm hw hs hplays) h.pcm h.keeps h.whole hsmooth
    h.unreleased hstart h.ran

/-- **Nothing is lost on the way to the device.** As long as every packet of such
a run finds no correction pending and room in the ring, the frames heard,
followed by those in the ring, are the frames of the packets. -/
theorem app_plays_exactly {s₀ : Endpoint (cpalBackend dec)}
    (h : Listening build format channels s₀ acts t events)
    (hsmooth : Along (sounding build) Smooth s₀ acts) :
    Cpal.heardFrames (Cpal.frameSize format channels) events ++
        frames (Cpal.frameSize format channels) (Cpal.inRing t.audio) =
      broughtFrames (Cpal.frameSize format channels) acts := by
  have hend := h.plays hsmooth
  rw [hend.1.exact, hend.2]

/-- The output is on time: both packets are heard as they are. -/
def timelyRun : List (Action (cpalBackend Cpal.pcmOnly)) :=
  [cpalEvent (.control (.playback (.play "s"))), framesPacket [1, 0, 2, 0, 3, 0, 4, 0], oneFrame,
   .servoTick (localWorld 20_000 0), framesPacket [5, 0, 6, 0, 7, 0, 8, 0], oneFrame]

theorem app_plays_exactly_timely :
    (run (sounding .release) proposedEndpoint timelyRun).map (fun r => Cpal.heardFrames 4 r.2) =
      .ok [[1, 0, 2, 0], [3, 0, 4, 0]] ∧
    ∀ t events, run (sounding .release) proposedEndpoint timelyRun = .ok (t, events) →
      Cpal.heardFrames 4 events ++ frames 4 (Cpal.inRing t.audio) =
        [[1, 0, 2, 0], [3, 0, 4, 0], [5, 0, 6, 0], [7, 0, 8, 0]] := by
  refine ⟨by decide +kernel, ?_⟩
  intro t events hrun
  have hkeeps : ∀ a ∈ timelyRun, KeepsRing a := by
    simp [timelyRun, cpalEvent, framesPacket, oneFrame, KeepsRing]
  have hwhole : ∀ a ∈ timelyRun, WholeCallbacks 2 a := by
    simp [timelyRun, cpalEvent, framesPacket, oneFrame, WholeCallbacks, willing]
  exact app_plays_exactly (listening_proposedEndpoint hkeeps hwhole hrun) (by decide +kernel)

end

end Oaat.Cli
