/-
Oaat.Cli.Feeding — what the DAC gets of a run of the application.

The counterpart of `Oaat.Cli.Hearing` for the ALSA output. A pass writes the
payload that it brings, lets the writer threads go on, or makes calls that the
writer does not notice. A paused or muted output drops what is written to it,
and its writer works on: `Fed` is `Alsa.Plays` for an output in any of these
states. So the device takes what was accepted, converted and in order, whatever
the timers and the controls do in between.
-/
import Oaat.Alsa.Packetization
import Oaat.Cli.Outputs
import Oaat.Cli.Released
import Oaat.Cli.ScheduledStart

namespace Oaat.Cli

open Oaat.Core Oaat.Endpoint Oaat.Lib

/-! ## An output that is played, paused and muted -/

/-- What happens at the output: a payload is accepted, or the device takes bytes. -/
inductive DacEvent where
  | accepted (payload : List UInt8)
  | took (bytes : List UInt8)
  deriving Repr, DecidableEq

def acceptedPayloads (events : List DacEvent) : List (List UInt8) :=
  events.flatMap fun
    | .accepted payload => [payload]
    | .took _ => []

def tookBytes (events : List DacEvent) : List UInt8 :=
  events.flatMap fun
    | .accepted _ => []
    | .took bytes => bytes

/-- The output takes what is written to it. -/
def audible (s : Alsa) : Bool := s.output.playing && !s.output.muted

def acceptedBy (s : Alsa) : AlsaAction → List DacEvent
  | .call (.writeAudio data) => if audible s then [.accepted data] else []
  | _ => []

/-- A step of the output, with what it accepts and what the device of writer `id`
takes. -/
def feedStep (conv : Conversions) (id : Nat) (s : Alsa) (a : AlsaAction) :
    Except Blocked (Alsa × List DacEvent) :=
  match s.step conv a with
  | .error e => .error e
  | .ok (s', _) => .ok (s', acceptedBy s a ++ [.took (Alsa.taken id s a)])

/-- The output as it is while it plays. -/
def sounded (s : Alsa) : Alsa :=
  { s with output := { s.output with playing := true, muted := false } }

/-- Writer `id` was given what was accepted, and the device took what it took,
whether the output plays or not. -/
def Fed (format : AudioFormat) (channels : UInt8) (params : DeviceParams) (id : Nat) (s : Alsa)
    (log : List DacEvent) : Prop :=
  Alsa.Plays format channels params id (acceptedPayloads log) (tookBytes log) (sounded s)

/-- The host goes on, or the output is written to. -/
def Feeding : AlsaAction → Prop
  | .call (.writeAudio _) => True
  | a => Alsa.isHost a = true

section

variable {conv : Conversions} {format : AudioFormat} {channels : UInt8} {params : DeviceParams}
  {id : Nat} {s s' : Alsa} {a : AlsaAction} {log more : List DacEvent}

theorem acceptedPayloads_append (log more : List DacEvent) :
    acceptedPayloads (log ++ more) = acceptedPayloads log ++ acceptedPayloads more := by
  simp [acceptedPayloads]

theorem tookBytes_append (log more : List DacEvent) :
    tookBytes (log ++ more) = tookBytes log ++ tookBytes more := by
  simp [tookBytes]

theorem sounded_of_audible (h : audible s = true) : sounded s = s := by
  simp only [audible, Bool.and_eq_true, Bool.not_eq_true'] at h
  obtain ⟨hplaying, hmuted⟩ := h
  obtain ⟨o, shared, threads, caller, idleClose⟩ := s
  obtain ⟨⟩ := o
  simp_all [sounded]

/-- The threads do not look at the output. -/
theorem threadStep_sounded {id now : Nat} {answer : Answer} {events : List AlsaEvent}
    (h : s.threadStep id now answer = .ok (s', events)) :
    (sounded s).threadStep id now answer = .ok (sounded s', events) := by
  obtain ⟨t, t', sh', took, hget, hstep, rfl, rfl⟩ := Alsa.threadStep_inv h
  have hget' : (sounded s).threads[id]? = some t := hget
  have hstep' : t.step (sounded s).shared now answer = .ok (t', sh', took) := hstep
  simp only [Alsa.threadStep, hget', hstep']
  rfl

theorem writeAudio_of_not_audible (conv : Conversions) (h : audible s = false)
    (data : List UInt8) : s.writeAudio conv data = .ok (s, [.enqueued 0]) := by
  have hskip : (!s.output.playing || s.output.muted || s.output.writer.isNone) = true := by
    simp only [audible, Bool.and_eq_false_iff, Bool.not_eq_false'] at h
    rcases h with h | h <;> simp [h]
  simp only [Alsa.writeAudio, hskip, if_true]

/-- Pausing, muting and what the threads share make no difference. -/
theorem Fed.frame (h : Fed format channels params id s log) (playing muted : Bool)
    (shared : Shared) :
    Fed format channels params id
      { s with output := { s.output with playing, muted }, shared } log :=
  ⟨h.idle, rfl, rfl, h.unity, h.format_eq, h.channels_eq, h.writer, h.thread⟩

/-- **The step rule.** -/
theorem Fed.step (h : Fed format channels params id s log) (hflac : format ≠ .flac)
    (ha : Feeding a) (haccepts : Alsa.Accepts id s a)
    (hok : feedStep conv id s a = .ok (s', more)) :
    Fed format channels params id s' (log ++ more) := by
  unfold feedStep at hok
  split at hok
  next => cases hok
  next events hstep =>
    cases hok
    have hidle : s.caller = .idle := h.idle
    have haccount : ∀ payloads took, acceptedPayloads (acceptedBy s a) = payloads →
        Alsa.taken id s a = took →
        Alsa.Plays format channels params id (acceptedPayloads log ++ payloads)
          (tookBytes log ++ took) (sounded s') →
        Fed format channels params id s'
          (log ++ (acceptedBy s a ++ [.took (Alsa.taken id s a)])) := by
      rintro _ _ rfl rfl hplays
      have hnone : tookBytes (acceptedBy s a) = [] := by
        unfold acceptedBy
        split
        · split <;> rfl
        · rfl
      unfold Fed
      rw [acceptedPayloads_append, acceptedPayloads_append, tookBytes_append, tookBytes_append,
        hnone]
      simpa [acceptedPayloads, tookBytes] using hplays
    cases a with
    | call c =>
      cases c with
      | writeAudio data =>
        simp only [Alsa.step, hidle, Alsa.start] at hstep
        cases hsound : audible s with
        | true =>
          refine haccount [data] [] ?_ rfl ?_
          · simp [acceptedBy, hsound, acceptedPayloads]
          · have hplays := h
            rw [Fed, sounded_of_audible hsound] at hplays
            have hnext := Alsa.plays_write hplays hflac hstep
            rw [List.append_nil]
            have hkeeps : audible s' = true := by
              simp [audible, hnext.playing, hnext.muted]
            rwa [sounded_of_audible hkeeps]
        | false =>
          rw [writeAudio_of_not_audible conv hsound] at hstep
          cases hstep
          refine haccount [] [] ?_ rfl ?_
          · simp [acceptedBy, hsound, acceptedPayloads]
          · rw [List.append_nil, List.append_nil]
            exact h
      | _ => cases ha
    | thread i now answer =>
      refine haccount [] _ rfl rfl ?_
      rw [List.append_nil]
      exact Alsa.plays_thread h haccepts (threadStep_sounded hstep)
    | resume => simp [Alsa.step, Alsa.resume, hidle] at hstep
    | giveUp => simp [Alsa.step, Alsa.giveUp, hidle] at hstep

/-- **The run rule.** -/
theorem Fed.run {acts : List AlsaAction} (h : Fed format channels params id s log)
    (hflac : format ≠ .flac) (hacts : ∀ a ∈ acts, Feeding a)
    (haccepts : Along (feedStep conv id) (Alsa.Accepts id) s acts)
    (hrun : Lib.run (feedStep conv id) s acts = .ok (s', more)) :
    Fed format channels params id s' (log ++ more) := by
  induction acts generalizing s log more with
  | nil =>
    cases hrun
    rwa [List.append_nil]
  | cons a acts ih =>
    obtain ⟨s₁, events, rest, hstep, hrest, rfl⟩ := run_cons_inv hrun
    rw [← List.append_assoc]
    exact ih (h.step hflac (hacts a (by simp)) haccepts.1 hstep)
      (fun b hb => hacts b (List.mem_cons_of_mem _ hb)) (haccepts.2 s₁ events hstep) hrest

/-- A run of the output is one of `feedStep`. -/
theorem run_feedStep (id : Nat) {acts : List AlsaAction} {events : List AlsaEvent}
    (hrun : Lib.run (Alsa.step conv) s acts = .ok (s', events)) :
    ∃ log, Lib.run (feedStep conv id) s acts = .ok (s', log) := by
  induction acts generalizing s events with
  | nil =>
    cases hrun
    exact ⟨[], rfl⟩
  | cons a acts ih =>
    obtain ⟨s₁, o, os, hstep, hrest, rfl⟩ := run_cons_inv hrun
    obtain ⟨log, hlog⟩ := ih hrest
    have hone : feedStep conv id s a =
        .ok (s₁, acceptedBy s a ++ [.took (Alsa.taken id s a)]) := by
      simp only [feedStep, hstep]
    exact ⟨_, run_cons_ok hone hlog⟩

end

/-! ## The loop feeds the output -/

section

variable {conv : Conversions}

/-- The output's part in a pass that writes or lets the host go on. -/
def dacActions (s : Endpoint (alsaBackend conv)) : Action (alsaBackend conv) → List AlsaAction
  | .event (.audioPacket _ payload) _ h =>
    if !payload.isEmpty && !s.released then .call (.writeAudio payload) :: h else []
  | .host h => h
  | _ => []

/-- What happens at the output in a pass. -/
def fed (id : Nat) (s : Endpoint (alsaBackend conv)) (a : Action (alsaBackend conv)) :
    List DacEvent :=
  match run (feedStep conv id) s.audio (dacActions s a) with
  | .error _ => []
  | .ok (_, events) => events

/-- A pass, with what happens at the output. -/
def feeding (id : Nat) (build : Build) (s : Endpoint (alsaBackend conv))
    (a : Action (alsaBackend conv)) : Except Halt (Endpoint (alsaBackend conv) × List DacEvent) :=
  (s.step build a).map fun r => (r.1, fed id s a)

/-- The device of writer `id` works. -/
def DeviceWorks (id : Nat) (s : Endpoint (alsaBackend conv)) (a : Action (alsaBackend conv)) :
    Prop :=
  Along (feedStep conv id) (Alsa.Accepts id) s.audio (dacActions s a)

/-- The volume is the DAC's own, or stays at its maximum. -/
def FullVolume (s : Endpoint (alsaBackend conv)) : Action (alsaBackend conv) → Prop
  | .event (.control (.volume (.set level))) _ _ => s.mixer = true ∨ 100 ≤ level.toNat
  | _ => True

end

section

variable {conv : Conversions} {build : Build} {format : AudioFormat} {channels : UInt8}
  {params : DeviceParams} {id : Nat} {s s' : Endpoint (alsaBackend conv)}
  {a : Action (alsaBackend conv)} {log : List DacEvent} {effects : List Effect}

theorem fed_of_run {o : Alsa} {events : List DacEvent}
    (h : run (feedStep conv id) s.audio (dacActions s a) = .ok (o, events)) :
    fed id s a = events := by
  simp only [fed, h]

theorem fed_nil (h : dacActions s a = []) : fed id s a = [] :=
  fed_of_run (by rw [h]; rfl)

/-- The output's part in a pass, as a run. -/
theorem fed_acts {o : Alsa} {events : List AlsaEvent} (hflac : format ≠ .flac)
    (h : Fed format channels params id s.audio log)
    (hacts : ∀ x ∈ dacActions s a, Feeding x) (hdevice : DeviceWorks id s a)
    (hrun : run (Alsa.step conv) s.audio (dacActions s a) = .ok (o, events)) :
    Fed format channels params id o (log ++ fed id s a) := by
  obtain ⟨more, hmore⟩ := run_feedStep id hrun
  rw [fed_of_run hmore]
  exact h.run hflac hacts hdevice hmore

theorem feeding_of_all_host {host : List AlsaAction} (h : host.all Alsa.isHost = true) :
    ∀ x ∈ host, Feeding x := by
  intro x hx
  have hhost := List.all_eq_true.mp h x hx
  cases x with
  | call c => cases hhost
  | resume | giveUp | thread => exact hhost

theorem dacActions_packet (header : AudioPacketHeader) {payload : List UInt8} (w : World)
    (h : (alsaBackend conv).Host) (hne : payload ≠ []) (hreleased : s.released = false) :
    dacActions s (.event (.audioPacket header payload) w h) = .call (.writeAudio payload) :: h := by
  have hwrite : (!payload.isEmpty && !s.released) = true := by simp [hne, hreleased]
  exact if_pos hwrite

/-- The packet of a pass: nothing is written, or the output is run. -/
theorem Wrote.dac {header : AudioPacketHeader} {payload : List UInt8}
    {h : (alsaBackend conv).Host} {audio : (alsaBackend conv).State} {wrote : List Effect}
    (hreleased : s.released = false) (hwrote : Wrote s header payload h audio wrote) :
    payload = [] ∧ audio = s.audio ∨
      payload ≠ [] ∧ List.all h Alsa.isHost = true ∧ ∃ events,
        run (Alsa.step conv) s.audio (.call (.writeAudio payload) :: h) = .ok (audio, events) := by
  cases hwrote with
  | ignored hskip => exact .inl ⟨hskip.resolve_right (by simp [hreleased]), rfl⟩
  | written _ opened hne hrel hw =>
    obtain ⟨events, hcall, -⟩ := perform_inv hw
    obtain ⟨s₁, log₁, log₂, hidle, hstart, hhost, hrun, -, -⟩ := Alsa.callWith_inv hcall
    have hone : Alsa.step conv s.audio (.call (.writeAudio payload)) = .ok (s₁, log₁) := by
      simp only [Alsa.step, hidle]
      exact hstart
    exact .inr ⟨hne, hhost, log₁ ++ log₂, run_cons_ok hone hrun⟩

theorem Fed.packet {header : AudioPacketHeader} {payload : List UInt8} {w : World}
    {h : (alsaBackend conv).Host} {audio : (alsaBackend conv).State} {wrote : List Effect}
    (hfed : Fed format channels params id s.audio log) (hflac : format ≠ .flac)
    (hreleased : s.released = false) (hwrote : Wrote s header payload h audio wrote)
    (hdevice : DeviceWorks id s (.event (.audioPacket header payload) w h)) :
    Fed format channels params id audio
      (log ++ fed id s (.event (.audioPacket header payload) w h)) := by
  rcases hwrote.dac hreleased with ⟨rfl, rfl⟩ | ⟨hne, hhost, events, hrun⟩
  · rw [fed_nil rfl, List.append_nil]
    exact hfed
  · have hacts := dacActions_packet (s := s) header w h hne hreleased
    refine fed_acts hflac hfed ?_ hdevice (hacts ▸ hrun)
    rw [hacts]
    intro x hx
    rcases List.mem_cons.mp hx with rfl | hx
    · trivial
    · exact feeding_of_all_host hhost x hx

/-- The output plays, or is left. -/
theorem Fed.play_or_leave {o o' : Alsa} (h : Fed format channels params id o log)
    (ho : o' = o ∨ o' = (alsaBackend conv).play o) : Fed format channels params id o' log := by
  rcases ho with rfl | rfl
  · exact h
  · exact h.frame true _ _

/-- A volume command at full volume. -/
theorem Fed.volume {cmd : VolumeCommand} {w : World} {host : (alsaBackend conv).Host}
    {audio : (alsaBackend conv).State} (h : Fed format channels params id s.audio log)
    (hvolume : FullVolume s (.event (.control (.volume cmd)) w host))
    (hvol : s.volume cmd = { s with audio }) : Fed format channels params id audio log := by
  have haudio : (s.volume cmd).audio = audio := congrArg Endpoint.audio hvol
  rw [← haudio]
  unfold Endpoint.volume
  cases cmd with
  | get => exact h
  | set level =>
    by_cases hmixer : s.mixer = true
    · simp only [hmixer, if_true]
      exact h
    · simp only [hmixer]
      have hlevel : 100 ≤ level.toNat := hvolume.resolve_left hmixer
      have hmax : min (level.toNat * 1000 / 100) 1000 = 1000 := by omega
      have hunity : (sounded ((alsaBackend conv).setVolume s.audio level)).output.unity = true := by
        simp [alsaBackend, sounded, AlsaDirectOutput.unity, hmax]
      exact { h with unity := hunity }
  | mute muted =>
    by_cases hmixer : s.mixer = true
    · simp only [hmixer, if_true]
      exact h
    · simp only [hmixer]
      exact h.frame _ muted _

/-- **One pass.** -/
theorem step_fed (hflac : format ≠ .flac) (hkeeps : KeepsRing a) (hreleased : s.released = false)
    (hdevice : DeviceWorks id s a) (hvolume : FullVolume s a)
    (h : Fed format channels params id s.audio log)
    (hstep : s.step build a = .ok (s', effects)) :
    s'.released = false ∧ Fed format channels params id s'.audio (log ++ fed id s a) := by
  have hquiet : dacActions s a = [] → ∀ {o : Alsa}, Fed format channels params id o log →
      Fed format channels params id o (log ++ fed id s a) := by
    intro hnone o ho
    rwa [fed_nil hnone, List.append_nil]
  cases step_inv hstep with
  | proposes | stops | seeks | reformats | reformatIgnored | disconnects | releases => cases hkeeps
  | connects | reports | errs | switches => exact ⟨hreleased, hquiet rfl h⟩
  | starts w startAt hd => exact ⟨hreleased, hquiet rfl (h.frame true _ _)⟩
  | pauses streamId w host => exact ⟨hreleased, hquiet rfl (h.frame false _ _)⟩
  | ticks w inUse idle audio tracker drift stats hserved =>
    refine ⟨hreleased, hquiet rfl ?_⟩
    rcases hserved.audio_eq with rfl | ⟨-, -, c, rfl⟩
    · exact h
    · exact h
  | volumes cmd w host audio hreg =>
    refine ⟨hreleased, hquiet rfl ?_⟩
    have hvol : s.volume cmd = { s with audio } := by
      simp only [Endpoint.step, Endpoint.event, Endpoint.control, Except.ok.injEq,
        Prod.mk.injEq, and_true] at hstep
      exact hstep
    exact h.volume hvolume hvol
  | hosts host audio opened hhost =>
    obtain ⟨events, -, hall, hrun, -⟩ := host_inv hhost
    exact ⟨hreleased, fed_acts hflac h (feeding_of_all_host hall) hdevice hrun⟩
  | plays streamId w host audio reopened hre =>
    have haudio : audio = s.audio := by
      cases hre with
      | kept => rfl
      | unknown => rfl
      | configured fp audio opened r hrel =>
        rw [hreleased] at hrel
        cases hrel
    subst haudio
    obtain ⟨-, hrel, -, -, hbegin⟩ :=
      begin_frame { s with released := false, outputInUse := true }
    exact ⟨hrel, hquiet rfl (h.play_or_leave hbegin)⟩
  | packet header payload w host audio wrote hw =>
    exact ⟨hreleased, h.packet hflac hreleased hw hdevice⟩
  | packetStarts header payload w host audio wrote head hw =>
    obtain ⟨-, hrel, -, -, hstart⟩ := deferredStart_frame
      { s with packetCount := s.packetCount + 1, totalBytes := s.totalBytes + payload.length,
               audio } w head
    exact ⟨hrel.trans hreleased, (h.packet hflac hreleased hw hdevice).play_or_leave hstart⟩

theorem feeding_inv {events : List DacEvent} (h : feeding id build s a = .ok (s', events)) :
    (∃ effects, s.step build a = .ok (s', effects)) ∧ events = fed id s a := by
  unfold feeding at h
  cases hstep : s.step build a with
  | error e =>
    rw [hstep] at h
    cases h
  | ok r =>
    rw [hstep] at h
    cases h
    exact ⟨⟨r.2, rfl⟩, rfl⟩

end

/-! ## What is accepted -/

section

variable {B : Backend}

/-- The payloads that the passes bring. -/
def brought (acts : List (Action B)) : List (List UInt8) :=
  (acts.map payloadOf).filter (!·.isEmpty)

theorem brought_cons (a : Action B) (acts : List (Action B)) :
    brought (a :: acts) = brought [a] ++ brought acts := by
  rw [brought, List.map_cons, ← List.singleton_append, List.filter_append]
  rfl

end

section

variable {conv : Conversions} {build : Build} {id : Nat} {s s' : Endpoint (alsaBackend conv)}
  {a : Action (alsaBackend conv)} {effects : List Effect}

/-- The output plays when a packet comes. -/
def Sounding (s : Endpoint (alsaBackend conv)) : Action (alsaBackend conv) → Prop
  | .event (.audioPacket _ _) _ _ => audible s.audio = true
  | _ => True

/-- The threads accept nothing. -/
theorem acceptedPayloads_host {o o' : Alsa} {host : List AlsaAction} {log : List DacEvent}
    (hhost : host.all Alsa.isHost = true)
    (hrun : run (feedStep conv id) o host = .ok (o', log)) : acceptedPayloads log = [] := by
  induction host generalizing o log with
  | nil =>
    cases hrun
    rfl
  | cons x host ih =>
    rw [List.all_cons, Bool.and_eq_true] at hhost
    obtain ⟨o₁, events, rest, hstep, hrest, rfl⟩ := run_cons_inv hrun
    rw [acceptedPayloads_append, ih hhost.2 hrest, List.append_nil]
    unfold feedStep at hstep
    split at hstep
    next => cases hstep
    next =>
      cases hstep
      cases x with
      | call c => cases hhost.1
      | resume | giveUp | thread => rfl

/-- **A pass** accepts what it brings if the output plays, and else nothing. -/
theorem acceptedPayloads_fed (id : Nat) (hkeeps : KeepsRing a) (hreleased : s.released = false)
    (hstep : s.step build a = .ok (s', effects)) :
    acceptedPayloads (fed id s a) = if audible s.audio then brought [a] else [] := by
  have hnone : dacActions s a = [] → brought [a] = [] →
      acceptedPayloads (fed id s a) = if audible s.audio then brought [a] else [] := by
    intro hacts hbrought
    rw [fed_nil hacts, hbrought, ite_self]
    rfl
  have hpacket : ∀ {header payload w h audio wrote}, a = .event (.audioPacket header payload) w h →
      Wrote s header payload h audio wrote →
      acceptedPayloads (fed id s a) = if audible s.audio then brought [a] else [] := by
    rintro header payload w h audio wrote rfl hwrote
    rcases hwrote.dac hreleased with ⟨rfl, rfl⟩ | ⟨hne, hhost, events, hrun⟩
    · exact hnone rfl rfl
    · obtain ⟨more, hmore⟩ := run_feedStep id hrun
      rw [fed_of_run ((dacActions_packet header w h hne hreleased).symm ▸ hmore)]
      obtain ⟨o₁, first, rest, hfirst, hrest, rfl⟩ := run_cons_inv hmore
      rw [acceptedPayloads_append, acceptedPayloads_host hhost hrest, List.append_nil]
      have hbrought : brought [Action.event (.audioPacket header payload) w h] = [payload] := by
        simp [brought, payloadOf, hne]
      rw [hbrought]
      unfold feedStep at hfirst
      split at hfirst
      next => cases hfirst
      next =>
        cases hfirst
        simp only [acceptedBy]
        split <;> rfl
  cases step_inv hstep with
  | proposes | stops | seeks | reformats | reformatIgnored | disconnects | releases => cases hkeeps
  | connects | reports | errs | switches | starts | pauses | ticks | volumes | plays =>
    exact hnone rfl rfl
  | hosts host audio opened hhost =>
    obtain ⟨events, -, hall, hrun, -⟩ := host_inv hhost
    obtain ⟨more, hmore⟩ := run_feedStep id hrun
    have hbrought : brought [Action.host (B := alsaBackend conv) host] = [] := rfl
    rw [fed_of_run (a := .host host) hmore, hbrought, ite_self]
    exact acceptedPayloads_host hall hmore
  | packet header payload w host audio wrote hw => exact hpacket rfl hw
  | packetStarts header payload w host audio wrote head hw => exact hpacket rfl hw

/-- **A run of the loop** feeds the output what it brings, except while the output
does not play. -/
theorem run_fed {format : AudioFormat} {channels : UInt8} {params : DeviceParams}
    {t : Endpoint (alsaBackend conv)} {acts : List (Action (alsaBackend conv))}
    {log events : List DacEvent} (hflac : format ≠ .flac) (hkeeps : ∀ a ∈ acts, KeepsRing a)
    (hworks : Along (feeding id build) (fun s a => DeviceWorks id s a ∧ FullVolume s a) s acts)
    (hreleased : s.released = false) (h : Fed format channels params id s.audio log)
    (hrun : run (feeding id build) s acts = .ok (t, events)) :
    Fed format channels params id t.audio (log ++ events) ∧
      (acceptedPayloads events).Sublist (brought acts) ∧
      (Along (feeding id build) Sounding s acts → acceptedPayloads events = brought acts) := by
  induction acts generalizing s log events with
  | nil =>
    cases hrun
    exact ⟨by simpa using h, .slnil, fun _ => rfl⟩
  | cons a acts ih =>
    obtain ⟨s₁, ev, evs, hstep, hrest, rfl⟩ := run_cons_inv hrun
    rw [along_cons_iff acts hstep] at hworks ⊢
    obtain ⟨⟨effects, hdone⟩, rfl⟩ := feeding_inv hstep
    obtain ⟨hdevice, hvolume⟩ := hworks.1
    have haccepted := acceptedPayloads_fed id (hkeeps a (by simp)) hreleased hdone
    obtain ⟨hreleased', hfed⟩ :=
      step_fed hflac (hkeeps a (by simp)) hreleased hdevice hvolume h hdone
    obtain ⟨hend, hsub, hall⟩ :=
      ih (fun b hb => hkeeps b (List.mem_cons_of_mem _ hb)) hworks.2 hreleased' hfed hrest
    refine ⟨by rwa [← List.append_assoc], ?_, ?_⟩
    · rw [acceptedPayloads_append, haccepted, brought_cons a acts]
      refine List.Sublist.append ?_ hsub
      split
      · exact .refl _
      · exact List.nil_sublist _
    · rintro ⟨hsounds, hlater⟩
      rw [acceptedPayloads_append, haccepted, brought_cons a acts, hall hlater]
      congr 1
      cases a with
      | event e w host =>
        cases e with
        | audioPacket => exact if_pos hsounds
        | _ => exact ite_self _
      | _ => exact ite_self _

end

/-! ## A proposal that is accepted -/

/-- What a step reports of `configure`: nothing, or its result as the call returns. -/
def Reports (s : Alsa) (log : List AlsaEvent) : Prop :=
  (∀ r, .configured r ∉ log) ∨ s.isIdle = true ∧ ∃ r, log = [.configured r]

section

variable {conv : Conversions} {s s' : Alsa} {log : List AlsaEvent}

theorem reports_configure (s : Alsa) (cfg : Config) (play : Bool) :
    Reports (s.configure cfg play).1 (s.configure cfg play).2 := by
  unfold Alsa.configure
  split
  · exact .inr ⟨rfl, _, rfl⟩
  · exact .inl (by simp)

theorem reports_shutdownReturns (s : Alsa) (after : After) :
    Reports (s.shutdownReturns after).1 (s.shutdownReturns after).2 := by
  cases after with
  | leave => exact .inl (by simp [Alsa.shutdownReturns])
  | configure cfg play => exact reports_configure _ cfg play

theorem reports_shutdown (s : Alsa) (discard : Bool) (after : After) :
    Reports (s.shutdown discard after).1 (s.shutdown discard after).2 := by
  unfold Alsa.shutdown
  dsimp only
  split
  · exact reports_shutdownReturns _ after
  · exact .inl (by simp)

theorem reports_host {a : AlsaAction} (hhost : Alsa.isHost a = true)
    (hstep : s.step conv a = .ok (s', log)) : Reports s' log := by
  have hreturns : ∀ after, s.shutdownReturns after = (s', log) → Reports s' log := by
    intro after h
    have hreports := reports_shutdownReturns s after
    rwa [h] at hreports
  cases a with
  | call c => cases hhost
  | thread id now answer =>
    obtain ⟨t, t', sh', took, -, -, -, rfl⟩ := Alsa.threadStep_inv hstep
    refine .inl fun r hr => ?_
    split at hr
    · simp at hr
    · cases hr
  | resume =>
    simp only [Alsa.step, Alsa.resume] at hstep
    split at hstep
    next => cases hstep
    next id after hc =>
      split at hstep
      next => cases hstep
      next =>
        split at hstep
        next => exact hreturns after (Except.ok.inj hstep)
        next => cases hstep
    next id play hc =>
      split at hstep
      next => cases hstep
      next =>
        cases hstep
        exact .inr ⟨rfl, _, rfl⟩
      next =>
        cases hstep
        exact .inr ⟨rfl, _, rfl⟩
  | giveUp =>
    simp only [Alsa.step, Alsa.giveUp] at hstep
    split at hstep
    next => cases hstep
    next id after hc =>
      split at hstep
      next => cases hstep
      next =>
        split at hstep
        next => cases hstep
        next => exact hreturns after (Except.ok.inj hstep)
    next id play hc =>
      split at hstep
      next => cases hstep
      next =>
        split at hstep
        next => cases hstep
        next =>
          cases hstep
          exact .inr ⟨rfl, _, rfl⟩

/-- Nothing is reported between the calls. -/
theorem silent_run {host : List AlsaAction} (hidle : s.isIdle = true)
    (hhost : host.all Alsa.isHost = true) (hrun : run (Alsa.step conv) s host = .ok (s', log)) :
    ∀ r, .configured r ∉ log := by
  have hstep : ∀ t a t' o, t.isIdle = true → Alsa.isHost a = true →
      Alsa.step conv t a = .ok (t', o) →
      t'.isIdle = true ∧ ∀ x ∈ o, ∀ r, x ≠ .configured r := by
    intro t a t' o ht ha hstep
    obtain ⟨hidle', -, id, now, answer, rfl⟩ := idle_step ht ha hstep
    refine ⟨hidle', ?_⟩
    obtain ⟨u, u', sh', took, -, -, -, rfl⟩ := Alsa.threadStep_inv hstep
    intro x hx r
    split at hx
    · rw [List.mem_singleton.mp hx]
      nofun
    · cases hx
  intro r hr
  exact (run_keeps hstep hidle (along_host hhost s) hrun).2 _ hr r rfl

/-- A call reports once: the result that `configure` returns is the only one. -/
theorem succeeds_of_reports {host : List AlsaAction} {first more : List AlsaEvent}
    (hreports : Reports s first) (hhost : host.all Alsa.isHost = true)
    (hrun : run (Alsa.step conv) s host = .ok (s', more))
    (hresult : Alsa.configureResult (first ++ more) = some (.ok ())) :
    Alsa.Succeeds (first ++ more) := by
  -- on the host's steps, until one of them reports
  induction host generalizing s first more with
  | nil =>
    cases hrun
    intro e he
    rw [List.append_nil] at he hresult
    rcases hreports with hnone | ⟨-, r, rfl⟩
    · exact hnone _ he
    · simp_all [Alsa.configureResult]
  | cons a host ih =>
    rcases hreports with hnone | ⟨hidle, r, rfl⟩
    · obtain ⟨s₁, o, os, hstep, hrest, rfl⟩ := run_cons_inv hrun
      rw [List.all_cons, Bool.and_eq_true] at hhost
      have hskip : Alsa.configureResult (first ++ (o ++ os)) = Alsa.configureResult (o ++ os) := by
        rw [Alsa.configureResult, List.findSome?_append, List.findSome?_eq_none_iff.mpr]
        · rfl
        · intro x hx
          cases x with
          | configured r => exact absurd hx (hnone r)
          | enqueued | opened => rfl
      have hlater := ih (reports_host hhost.1 hstep) hhost.2 hrest (hskip ▸ hresult)
      intro e he
      rcases List.mem_append.mp he with he | he
      · exact hnone _ he
      · exact hlater e he
    · have hsilent := silent_run hidle hhost hrun
      intro e he
      rcases List.mem_append.mp he with he | he
      · simp_all [Alsa.configureResult]
      · exact hsilent _ he

theorem succeeds_configure {cfg : Config} {host : List AlsaAction}
    (hcall : s.callWith conv (.configure cfg) host = .ok (s', log))
    (hresult : Alsa.configureResult log = some (.ok ())) : Alsa.Succeeds log := by
  obtain ⟨s₁, first, more, -, hstart, hhost, hrun, -, rfl⟩ := Alsa.callWith_inv hcall
  have hreports := reports_shutdown s false (.configure cfg false)
  rw [Except.ok.inj hstart] at hreports
  exact succeeds_of_reports hreports hhost hrun hresult

/-- A configured output feeds its writer, which was given nothing yet. -/
theorem fed_configured {cfg : Config} {host : List AlsaAction}
    (hcall : s.callWith conv (.configure cfg) host = .ok (s', log)) (hok : Alsa.Succeeds log)
    (hunity : s'.output.unity = true) :
    ∃ id params, (AlsaDirectOutput.new.configured cfg).2 = .ok params ∧
      Fed cfg.format cfg.channels params id s' [] := by
  obtain ⟨hidle, htoward⟩ := Alsa.toward_callWith (Alsa.follows_fresh cfg) rfl hcall hok
  rw [Alsa.Toward, hidle] at htoward
  obtain ⟨hsaved, id, hwriter, t, ht, hready⟩ := htoward
  subst hsaved
  exact ⟨id, t.slot.params, hready.1.params, hidle, rfl, rfl, hunity, rfl, rfl, hwriter, t, ht,
    hready.1.hungUp_eq, hready.delivered⟩

end

section

variable {conv : Conversions} {build : Build} {fp : FormatPropose}
  {s₀ t : Endpoint (alsaBackend conv)} {acts : List (Action (alsaBackend conv))}
  {events : List DacEvent} {id : Nat}

/-- An ALSA endpoint has accepted a proposal of PCM or DSD, at full volume. -/
structure Streams (build : Build) (fp : FormatPropose) (s₀ : Endpoint (alsaBackend conv)) :
    Prop where
  raw : Alsa.IsRaw fp.format
  channels : 1 ≤ fp.channels.toNat
  unity : (Alsa.output s₀.audio).unity = true
  accepted : ∃ s w host effects,
    Endpoint.step build s (.event (.control (.formatProposed fp)) w host) = .ok (s₀, effects) ∧
      .send (.formatAccept fp.streamId) ∈ effects

theorem Streams.fed (h : Streams build fp s₀) :
    s₀.released = false ∧ ∃ id params,
      params.frameBytes = Alsa.deviceFrameBytes fp.format fp.channels.toNat ∧
      Fed fp.format fp.channels params id s₀.audio [] := by
  obtain ⟨s, w, host, effects, hstep, haccept⟩ := h.accepted
  have hunity := h.unity
  simp only [Endpoint.step, Endpoint.event, Endpoint.control, Endpoint.formatProposed] at hstep
  split at hstep
  next => cases hstep
  next audio opened r hconf =>
    cases hstep
    cases r with
    | error e =>
      rcases List.mem_append.mp haccept with hm | hm
      · rcases List.mem_cons.mp hm with hm | hm
        · cases hm
        · cases eq_of_mem_openedIf hm
      · cases List.mem_singleton.mp hm
    | ok u =>
      refine ⟨rfl, ?_⟩
      simp only [alsaBackend] at hconf
      split at hconf
      next => cases hconf
      next o log hcall =>
        split at hconf
        next => cases hconf
        next r hresult =>
          cases hconf
          obtain ⟨id, params, hparams, hfed⟩ :=
            fed_configured hcall (succeeds_configure hcall hresult) hunity
          exact ⟨id, params, Alsa.frameBytes_configured h.raw h.channels hparams, hfed⟩

/-- The loop has run on without configuring or emptying the output again, at full
volume and with a device that works. -/
structure Onward (build : Build) (id : Nat) (s₀ : Endpoint (alsaBackend conv))
    (acts : List (Action (alsaBackend conv))) : Prop where
  keeps : ∀ a ∈ acts, KeepsRing a
  works : Along (feeding id build) (fun s a => DeviceWorks id s a ∧ FullVolume s a) s₀ acts

/-- What writer `id` has still to give to its device. -/
def pending (n id : Nat) (s : Alsa) : List UInt8 :=
  match s.threads[id]? with
  | none => []
  | some t => Alsa.inHand t ++ t.queue.flatMap (wholeFrames n)

/-- The account of a writer that was given nothing before. -/
theorem Onward.account {params : DeviceParams} (hraw : Alsa.IsRaw fp.format)
    (hreleased : s₀.released = false)
    (hframe : params.frameBytes = Alsa.deviceFrameBytes fp.format fp.channels.toNat)
    (hfed : Fed fp.format fp.channels params id s₀.audio []) (honward : Onward build id s₀ acts)
    (hrun : run (feeding id build) s₀ acts = .ok (t, events)) :
    tookBytes events ++ pending (Alsa.deviceFrameBytes fp.format fp.channels.toNat) id t.audio =
        Alsa.received fp.format fp.channels (acceptedPayloads events) ∧
      (acceptedPayloads events).Sublist (brought acts) ∧
      (Along (feeding id build) Sounding s₀ acts → acceptedPayloads events = brought acts) := by
  obtain ⟨hend, hsub, hall⟩ :=
    run_fed hraw.ne_flac honward.keeps honward.works hreleased hfed hrun
  refine ⟨?_, hsub, hall⟩
  obtain ⟨u, hu, -, hdel⟩ := hend.thread
  have haccount := hdel.account
  rw [hframe, List.flatMap_map, List.append_assoc] at haccount
  have hpending : pending (Alsa.deviceFrameBytes fp.format fp.channels.toNat) id t.audio =
      Alsa.inHand u ++
        u.queue.flatMap (wholeFrames (Alsa.deviceFrameBytes fp.format fp.channels.toNat)) := by
    have hu' : (Alsa.threads t.audio)[id]? = some u := hu
    simp only [pending, hu']
  rw [hpending]
  exact haccount

end

/-! ### A stream with a pause -/

instance (id : Nat) (s : Alsa) : (a : AlsaAction) → Decidable (Alsa.Accepts id s a)
  | .thread i now answer =>
    match hget : s.threads[i]? with
    | none => .isTrue fun _ t ht => by simp [hget] at ht
    | some u =>
      decidable_of_iff (i = id → Alsa.Scripted (u, s.shared) (.step now answer))
        ⟨fun h hi t ht => Option.some.inj (hget.symm.trans ht) ▸ h hi, fun h hi => h hi u hget⟩
  | .call _ | .resume | .giveUp => .isTrue trivial

instance {conv : Conversions} (id : Nat) (s : Endpoint (alsaBackend conv))
    (a : Action (alsaBackend conv)) : Decidable (DeviceWorks id s a) :=
  decidableAlong (P := Alsa.Accepts id) s.audio (dacActions s a)

instance {conv : Conversions} (s : Endpoint (alsaBackend conv)) (a : Action (alsaBackend conv)) :
    Decidable (FullVolume s a) := by
  unfold FullVolume
  split <;> infer_instance

instance {conv : Conversions} (s : Endpoint (alsaBackend conv)) (a : Action (alsaBackend conv)) :
    Decidable (Sounding s a) := by
  unfold Sounding
  split <;> infer_instance

/-- The first writer reports its device open. -/
def opensFirst : List AlsaAction :=
  [.thread 0 0 (.opener (.ok ())), .thread 0 0 .go, .resume]

/-- The endpoint accepts 16-bit stereo; its writer has reported the device open. -/
def streamingEndpoint : Endpoint (alsaBackend Alsa.plainConversions) :=
  match alsaEndpoint.step .release (alsaEvent
      (.control (.formatProposed (stereoProposal "s" 48000))) opensFirst) with
  | .ok (s, _) => s
  | .error _ => alsaEndpoint

/-- Two frames are played, one comes during a pause, and one after it. -/
def pausedStream : List (Action (alsaBackend Alsa.plainConversions)) :=
  [alsaEvent (.control (.playback (.play "s"))) [],
   alsaEvent (.audioPacket someHeader [1, 0, 2, 0, 3, 0, 4, 0])
     [.thread 0 0 .go, .thread 0 0 .go, .thread 0 0 .go, .thread 0 0 .go,
      .thread 0 0 (.wrote (.ok 1))],
   alsaEvent (.control (.playback (.pause "s"))) [],
   alsaEvent (.audioPacket someHeader [5, 0, 6, 0]) [],
   .host [.thread 0 0 (.wrote (.ok 1))],
   alsaEvent (.control (.playback (.play "s"))) [],
   alsaEvent (.audioPacket someHeader [7, 0, 8, 0]) []]

theorem streams_streamingEndpoint :
    Streams .release (stereoProposal "s" 48000) streamingEndpoint where
  raw := rfl
  channels := by decide
  unity := by decide +kernel
  accepted := ⟨alsaEndpoint, localWorld 0 0, opensFirst,
    [.configured, .opened, .send (.formatAccept "s")], rfl, by decide⟩

theorem writer_streamingEndpoint : (Alsa.output streamingEndpoint.audio).writer = some 0 := by
  decide +kernel

end Oaat.Cli
