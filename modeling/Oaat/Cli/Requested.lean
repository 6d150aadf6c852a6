/-
Oaat.Cli.Requested — every device that a writer thread opens was asked for.

The parameters of a writer are set when it is spawned. They come from a
configuration: one that a handler asked for, or the one that the output saved
and that `flush` asks for again. So whatever holds of each configuration that the
events bring holds of what every thread opens, threads that were left behind
included.
-/
import Oaat.Cli.Seek

namespace Oaat.Cli

open Oaat.Core Oaat.Endpoint Oaat.Lib

variable {P : Config → Prop}

/-! ## The ALSA output -/

/-- Every writer serves a configuration that satisfies `P`, and so will those
that the output spawns without being asked again. -/
structure Requested (P : Config → Prop) (s : Alsa) : Prop where
  threads : ∀ t ∈ s.threads, ∃ cfg, P cfg ∧ Serves cfg t
  saved : P s.flushConfig
  caller : ∀ id cfg play, s.caller = .stopping id (.configure cfg play) → P cfg

section

variable {conv : Conversions} {s s' : Alsa} {log : List AlsaEvent}

/-- The configuration stays, and so do the threads, up to what they hold. -/
theorem Requested.of_same (h : Requested P s) (hsaved : s'.flushConfig = s.flushConfig)
    (hcaller : s'.caller = s.caller ∨ s'.caller = .idle)
    (hthreads : ∀ t' ∈ s'.threads, ∃ t ∈ s.threads, t'.slot.params = t.slot.params) :
    Requested P s' := by
  refine ⟨?_, hsaved ▸ h.saved, ?_⟩
  · intro t' ht'
    obtain ⟨t, ht, hparams⟩ := hthreads t' ht'
    obtain ⟨cfg, hcfg, hserves⟩ := h.threads t ht
    exact ⟨cfg, hcfg, hserves.trans (congrArg _ hparams.symm)⟩
  · intro id cfg play hstopping
    rcases hcaller with heq | hidle
    · exact h.caller id cfg play (heq ▸ hstopping)
    · rw [hidle] at hstopping
      cases hstopping

/-- One thread goes on. -/
theorem params_set {ts : List WriterThread} {i : Nat} {t t' : WriterThread}
    (ht : ts[i]? = some t) (hparams : t'.slot.params = t.slot.params) :
    ∀ u' ∈ ts.set i t', ∃ u ∈ ts, u'.slot.params = u.slot.params := by
  intro u' hu'
  rcases List.mem_or_eq_of_mem_set hu' with hu' | rfl
  · exact ⟨u', hu', rfl⟩
  · exact ⟨t, List.mem_of_getElem? ht, hparams⟩

/-- What `configure` saves is what it was asked for. -/
theorem flushConfig_configured {output : AlsaDirectOutput} {cfg : Config}
    {r : Except String DeviceParams} (hout : s.output.configured cfg = (output, r))
    (hs' : s'.output = output) : s'.flushConfig = cfg := by
  obtain ⟨hformat, hrate, hchannels, hdevice, -⟩ := Alsa.configured_saves s.output cfg
  rw [hout] at hformat hrate hchannels hdevice
  dsimp only at hformat hrate hchannels hdevice
  simp only [Alsa.flushConfig, hs', hformat, hrate, hchannels, hdevice]

theorem requested_configureReturns (hthreads : ∀ t ∈ s.threads, ∃ cfg, P cfg ∧ Serves cfg t)
    (hsaved : P s.flushConfig) (r : Except String Unit) (play : Bool) :
    Requested P (s.configureReturns r play).1 := by
  refine ⟨hthreads, ?_, fun _ _ _ hstopping => by cases hstopping⟩
  cases play <;> exact hsaved

/-- **What is opened is what was asked for.** -/
theorem requested_configure (hthreads : ∀ t ∈ s.threads, ∃ cfg, P cfg ∧ Serves cfg t)
    {cfg : Config} (hcfg : P cfg) (play : Bool) : Requested P (s.configure cfg play).1 := by
  unfold Alsa.configure
  split
  next output e hout =>
    refine requested_configureReturns (s := { s with output }) hthreads ?_ (.error e) play
    rwa [flushConfig_configured hout rfl]
  next output params hout =>
    have hparams := (Alsa.configured_saves s.output cfg).2.2.2.2.2.2
    rw [hout] at hparams
    refine ⟨?_, ?_, fun _ _ _ hstopping => by cases hstopping⟩
    · intro t ht
      rcases List.mem_append.mp ht with ht | ht
      · exact hthreads t ht
      · obtain rfl := List.mem_singleton.mp ht
        exact ⟨cfg, hcfg, hparams.symm⟩
    · rwa [flushConfig_configured hout rfl]

theorem requested_shutdownReturns (h : Requested P s) {after : After}
    (hafter : ∀ cfg play, after = .configure cfg play → P cfg) :
    Requested P (s.shutdownReturns after).1 := by
  cases after with
  | leave => exact h.of_same rfl (.inr rfl) fun t ht => ⟨t, ht, rfl⟩
  | configure cfg play => exact requested_configure h.threads (hafter cfg play rfl) play

theorem requested_shutdown (h : Requested P s) {discard : Bool} {after : After}
    (hafter : ∀ cfg play, after = .configure cfg play → P cfg) :
    Requested P (s.shutdown discard after).1 := by
  have hstopped : Requested P { s with output.playing := false } :=
    h.of_same rfl (.inl rfl) fun t ht => ⟨t, ht, rfl⟩
  unfold Alsa.shutdown
  dsimp only
  split
  next => exact requested_shutdownReturns hstopped hafter
  next id _ =>
    refine ⟨?_, h.saved, ?_⟩
    · intro t' ht'
      obtain ⟨t, ht, hparams⟩ : ∃ t ∈ s.threads, t'.slot.params = t.slot.params := by
        obtain ⟨i, hi, rfl⟩ := List.mem_iff_getElem.mp ht'
        rw [List.getElem_modify]
        split
        · exact ⟨_, List.getElem_mem _, rfl⟩
        · exact ⟨_, List.getElem_mem _, rfl⟩
      obtain ⟨cfg, hcfg, hserves⟩ := h.threads t ht
      exact ⟨cfg, hcfg, hserves.trans (congrArg _ hparams.symm)⟩
    · intro id' cfg play hstopping
      cases hstopping
      exact hafter cfg play rfl

/-- The call in progress goes on, or leaves its writer behind. -/
theorem requested_resume (h : Requested P s) (hok : s.resume = .ok (s', log)) :
    Requested P s' := by
  unfold Alsa.resume at hok
  split at hok
  next => cases hok
  next id after hcaller =>
    split at hok
    next => cases hok
    next =>
      split at hok
      next =>
        obtain rfl : (s.shutdownReturns after).1 = s' := congrArg Prod.fst (Except.ok.inj hok)
        exact requested_shutdownReturns h fun cfg play heq => h.caller id cfg play (heq ▸ hcaller)
      next => cases hok
  next id play hcaller =>
    split at hok
    next => cases hok
    next =>
      cases hok
      exact requested_configureReturns (s := { s with output.writer := some id }) h.threads h.saved
        (.ok ()) play
    next e _ =>
      cases hok
      exact requested_configureReturns h.threads h.saved (.error e) play

theorem requested_giveUp (h : Requested P s) (hok : s.giveUp = .ok (s', log)) :
    Requested P s' := by
  unfold Alsa.giveUp at hok
  split at hok
  next => cases hok
  next id after hcaller =>
    split at hok
    next => cases hok
    next =>
      split at hok
      next => cases hok
      next =>
        obtain rfl : (s.shutdownReturns after).1 = s' := congrArg Prod.fst (Except.ok.inj hok)
        exact requested_shutdownReturns h fun cfg play heq => h.caller id cfg play (heq ▸ hcaller)
  next id play hcaller =>
    split at hok
    next => cases hok
    next t ht =>
      split at hok
      next => cases hok
      next =>
        cases hok
        have hleft : Requested P { s with threads := s.threads.set id (t.hangUp true) } :=
          h.of_same rfl (.inl rfl) (params_set ht rfl)
        exact requested_configureReturns hleft.threads hleft.saved
          (.error (t.slot.params.device ++ ": device open did not complete within 3000 ms")) play

/-- **A call asks for nothing else**, except `configure`. -/
theorem requested_start (h : Requested P s) {c : Call} (hc : ∀ cfg, c = .configure cfg → P cfg)
    (hok : s.start conv c = .ok (s', log)) : Requested P s' := by
  have hshutdown : ∀ discard after, (∀ cfg play, after = .configure cfg play → P cfg) →
      s.start conv c = .ok (s.shutdown discard after) → Requested P s' := by
    intro discard after hafter hstart
    obtain rfl : (s.shutdown discard after).1 = s' :=
      congrArg Prod.fst (Except.ok.inj (hstart.symm.trans hok))
    exact requested_shutdown h hafter
  cases c with
  | configure cfg =>
    refine hshutdown false (.configure cfg false) ?_ rfl
    intro cfg' play heq
    cases heq
    exact hc cfg rfl
  | stop => exact hshutdown false .leave (fun _ _ heq => by cases heq) rfl
  | release => exact hshutdown true .leave (fun _ _ heq => by cases heq) rfl
  | flush =>
    refine hshutdown true (.configure s.flushConfig true) ?_ rfl
    intro cfg play heq
    cases heq
    exact h.saved
  | play | pause | setVolume _ | setMute _ =>
    cases hok
    exact h.of_same rfl (.inl rfl) fun t ht => ⟨t, ht, rfl⟩
  | writeAudio data =>
    obtain ⟨flacStream, rfl | ⟨id, t, -, ht, rfl⟩⟩ := Alsa.writeAudio_inv hok
    · exact h.of_same rfl (.inl rfl) fun t ht => ⟨t, ht, rfl⟩
    · exact h.of_same rfl (.inl rfl) (params_set ht rfl)

/-- **The step rule.** -/
theorem requested_step (h : Requested P s) {a : AlsaAction}
    (ha : ∀ cfg, a = .call (.configure cfg) → P cfg) (hok : s.step conv a = .ok (s', log)) :
    Requested P s' := by
  cases a with
  | call c =>
    unfold Alsa.step at hok
    dsimp only at hok
    split at hok
    next => exact requested_start h (fun cfg heq => ha cfg (heq ▸ rfl)) hok
    next => cases hok
  | resume => exact requested_resume h hok
  | giveUp => exact requested_giveUp h hok
  | thread id now answer =>
    obtain ⟨t, t', sh', took, ht, hstep, rfl, -⟩ := Alsa.threadStep_inv hok
    exact h.of_same rfl (.inl rfl) (params_set ht (writer_params hstep))

/-- The host asks for nothing. -/
theorem requested_host {acts : List AlsaAction} (h : Requested P s)
    (hhost : acts.all Alsa.isHost = true) (hrun : run (Alsa.step conv) s acts = .ok (s', log)) :
    Requested P s' := by
  have hstep : ∀ r a r' o, Requested P r → Alsa.isHost a = true →
      Alsa.step conv r a = .ok (r', o) → Requested P r' ∧ ∀ x ∈ o, True := by
    intro r a r' o hr ha hok
    refine ⟨requested_step hr ?_ hok, fun _ _ => trivial⟩
    rintro cfg rfl
    cases ha
  exact (run_keeps hstep h (along_host hhost s) hrun).1

/-- A call with what the host does until it returns. -/
theorem requested_callWith {c : Call} {host : List AlsaAction} (h : Requested P s)
    (hc : ∀ cfg, c = .configure cfg → P cfg) (hok : s.callWith conv c host = .ok (s', log)) :
    Requested P s' := by
  obtain ⟨s₁, log₁, log₂, -, hstart, hhost, hrest, -, -⟩ := Alsa.callWith_inv hok
  exact requested_host (requested_start h hc hstart) hhost hrest

theorem requested_perform {c : Call} {host : List AlsaAction} {opened : Bool}
    (h : Requested P s) (hc : ∀ cfg, c ≠ .configure cfg)
    (hok : s.perform conv c host = .ok (s', opened)) : Requested P s' := by
  obtain ⟨log, hcall, -⟩ := perform_inv hok
  exact requested_callWith h (fun cfg heq => absurd heq (hc cfg)) hcall

end

/-! ## The application -/

/-- What an event asks the output to be configured for satisfies `P`. -/
def Brings (P : Config → Prop) (device : Option (List Char)) : EndpointEvent → Prop
  | .formatProposed fp =>
    P { format := fp.format, sampleRate := fp.sampleRate, channels := fp.channels, device }
  | .nextTrackReformat _ format sampleRate => P { format, sampleRate, channels := 2, device }
  | _ => True

/-- A pass whose event brings what satisfies `P`, and that does not switch the
device. -/
def BringsOnly {B : Backend} (P : Config → Prop) (device : Option (List Char)) : Action B → Prop
  | .event (.control e) _ _ => Brings P device e
  | .switchDevice _ => False
  | _ => True

/-- Every writer serves a configuration that satisfies `P`, and Play after a
release asks for no other. -/
structure Asks {conv : Conversions} (P : Config → Prop) (device : Option (List Char))
    (s : Endpoint (alsaBackend conv)) : Prop where
  audio : Requested P s.audio
  current : s.currentAudioDevice = device
  lastFormat : ∀ fp, s.lastFormat = some fp → Brings P device (.formatProposed fp)

section

variable {conv : Conversions} {s s' : Endpoint (alsaBackend conv)} {build : Build}
  {device : Option (List Char)} {effects : List Effect}

theorem Asks.of_audio (h : Asks P device s) (haudio : Requested P s'.audio)
    (hcurrent : s'.currentAudioDevice = s.currentAudioDevice)
    (hlast : s'.lastFormat = s.lastFormat) : Asks P device s' :=
  ⟨haudio, hcurrent.trans h.current, fun fp hfp => h.lastFormat fp (hlast ▸ hfp)⟩

/-- `play`, `pause` and the volume leave the threads alone. -/
theorem Requested.of_output {o o' : Alsa} (h : Requested P o)
    (hthreads : o'.threads = o.threads) (hcaller : o'.caller = o.caller)
    (hsaved : o'.flushConfig = o.flushConfig) : Requested P o' :=
  h.of_same hsaved (.inl hcaller) fun t ht => ⟨t, hthreads ▸ ht, rfl⟩

theorem requested_backend {o o' : Alsa} {cfg : Config} {host : List AlsaAction} {opened : Bool}
    {r : Except String Unit} (h : Requested P o) (hcfg : P cfg)
    (hok : (alsaBackend conv).configure o cfg host = .ok (o', opened, r)) : Requested P o' := by
  simp only [alsaBackend] at hok
  split at hok
  next => cases hok
  next o₁ log hcall =>
    split at hok
    next => cases hok
    next =>
      cases hok
      refine requested_callWith h ?_ hcall
      rintro cfg' ⟨⟩
      exact hcfg

theorem requested_wrote {header : AudioPacketHeader} {payload : List UInt8}
    {host : (alsaBackend conv).Host} {audio : (alsaBackend conv).State} (h : Requested P s.audio)
    (hwrote : Wrote s header payload host audio effects) : Requested P audio := by
  cases hwrote with
  | ignored => exact h
  | written _ opened _ _ hw => exact requested_perform h (fun _ heq => by cases heq) hw

theorem Asks.begin (h : Asks P device s) : Asks P device s.begin := by
  unfold Endpoint.begin
  split
  · exact h.of_audio (h.audio.of_output rfl rfl rfl) rfl rfl
  · split
    · exact h.of_audio h.audio rfl rfl
    · exact h.of_audio (h.audio.of_output rfl rfl rfl) rfl rfl

theorem Asks.deferredStart (h : Asks P device s) (w : World) (head : UInt64) :
    Asks P device (s.deferredStart w head) := by
  unfold Endpoint.deferredStart
  dsimp only
  split
  · exact h.of_audio h.audio rfl rfl
  · exact h.of_audio (h.audio.of_output rfl rfl rfl) rfl rfl

/-- **The step rule of the loop.** -/
theorem asks_step {a : Action (alsaBackend conv)} (h : Asks P device s)
    (ha : BringsOnly P device a) (hok : s.step build a = .ok (s', effects)) :
    Asks P device s' := by
  have hperform : ∀ {c : Call} {host : List AlsaAction} {o' : Alsa} {opened : Bool},
      (∀ cfg, c ≠ .configure cfg) →
      Alsa.perform conv s.audio c host = .ok (o', opened) → Requested P o' :=
    fun hc hok => requested_perform h.audio hc hok
  cases step_inv hok with
  | starts w startAt hd => exact h.of_audio (h.audio.of_output rfl rfl rfl) rfl rfl
  | ticks w inUse ticks audio tracker lastDrift stats hserved =>
    refine h.of_audio ?_ rfl rfl
    rcases hserved.audio_eq with rfl | ⟨-, -, c, rfl⟩ <;> exact h.audio
  | connects => exact h.of_audio h.audio rfl rfl
  | reformatIgnored | reports | errs => exact h
  | proposes fp w host audio opened r verdict hc =>
    have hcfg : P (s.proposedConfig fp) := by
      rw [Endpoint.proposedConfig, h.current]
      exact ha
    refine ⟨requested_backend h.audio hcfg hc, h.current, ?_⟩
    rintro fp' ⟨⟩
    exact ha
  | packet header payload w host audio wrote hwrote =>
    exact h.of_audio (requested_wrote h.audio hwrote) rfl rfl
  | packetStarts header payload w host audio wrote head hwrote =>
    refine Asks.deferredStart ?_ w head
    exact h.of_audio (requested_wrote h.audio hwrote) rfl rfl
  | plays streamId w host audio reopened hre =>
    have hreopened : Requested P audio := by
      cases hre with
      | kept | unknown => exact h.audio
      | configured fp audio opened r _ hfp hc =>
        refine requested_backend h.audio ?_ hc
        rw [Endpoint.proposedConfig, h.current]
        exact h.lastFormat fp hfp
    refine Asks.begin ?_
    exact h.of_audio hreopened rfl rfl
  | pauses => exact h.of_audio (h.audio.of_output rfl rfl rfl) rfl rfl
  | stops streamId w host audio opened hstop | disconnects w host audio opened hstop =>
    exact h.of_audio (hperform (fun _ heq => by cases heq) hstop) rfl rfl
  | seeks streamId positionMs w host audio opened hflush =>
    exact h.of_audio (hperform (fun _ heq => by cases heq) hflush) rfl rfl
  | reformats streamId format sampleRate w host audio opened r _ hc =>
    refine h.of_audio (requested_backend h.audio ?_ hc) rfl rfl
    rw [h.current]
    exact ha
  | volumes cmd w host audio hreg =>
    refine h.of_audio ?_ rfl rfl
    cases hreg with
    | kept => exact h.audio
    | volume level => exact h.audio.of_output rfl rfl rfl
    | mute muted => exact h.audio.of_output rfl rfl rfl
  | releases host audio opened told hrel =>
    exact h.of_audio (hperform (fun _ heq => by cases heq) hrel) rfl rfl
  | switches => cases ha
  | hosts host audio opened hh =>
    obtain ⟨log, -, hhost, hrun, -⟩ := host_inv hh
    exact h.of_audio (requested_host h.audio hhost hrun) rfl rfl

/-- **Every device that a thread opens was asked for**, in every run. -/
theorem run_asks {acts : List (Action (alsaBackend conv))} {log : List Effect}
    (h : Asks P device s) (hacts : ∀ a ∈ acts, BringsOnly P device a)
    (hrun : run (Endpoint.step build) s acts = .ok (s', log)) : Asks P device s' := by
  have hstep : ∀ (r : Endpoint (alsaBackend conv)) a r' o, Asks P device r → BringsOnly P device a →
      r.step build a = .ok (r', o) → Asks P device r' ∧ ∀ x ∈ o, True :=
    fun r a r' o hr ha hok => ⟨asks_step hr ha hok, fun _ _ => trivial⟩
  exact (run_keeps hstep h (along_of_forall fun a ha _ => hacts a ha) hrun).1

/-- Nothing is asked for yet. -/
theorem asks_new (mixer : Bool)
    (hnew : P { format := .pcmS16le, sampleRate := 0, channels := 0, device := none }) :
    Asks P device (.new (alsaBackend conv) mixer device) :=
  ⟨⟨fun _ ht => absurd ht List.not_mem_nil, hnew, fun _ _ _ hstopping => by cases hstopping⟩, rfl,
    fun _ hfp => by cases hfp⟩

end

end Oaat.Cli
