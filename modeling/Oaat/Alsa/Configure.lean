/-
Oaat.Alsa.Configure — what a `configure_with_device` that succeeds leaves.

The call waits for the old writer to return and for the new one to report its
device open, and every thread goes on meanwhile. `Toward` follows the call to its
end. What it says of the new writer is a parameter: what holds until it has
reported, and what holds from then on.
-/
import Oaat.Alsa.Writer
import Oaat.Endpoint.Output

namespace Oaat.Alsa

open Oaat.Core Oaat.Endpoint Oaat.Lib

/-! ## A call and its end -/

section

variable {s s' : Endpoint.Alsa} {conv : Conversions} {log : List AlsaEvent}

/-- The host's actions from one moment without a call to another. -/
theorem runIdle_inv {acts : List AlsaAction} (hok : s.runIdle conv acts = .ok (s', log)) :
    run (Alsa.step conv) s acts = .ok (s', log) ∧ s'.isIdle = true := by
  unfold Alsa.runIdle at hok
  split at hok
  next => cases hok
  next s₁ log₁ hrun =>
    split at hok
    next hidle =>
      cases hok
      exact ⟨hrun, hidle⟩
    next => cases hok

/-- A call starts while there is none, and then only the host takes steps. -/
theorem callWith_inv {c : Call} {host : List AlsaAction}
    (hok : s.callWith conv c host = .ok (s', log)) :
    ∃ s₁ log₁ log₂, s.caller = .idle ∧ s.start conv c = .ok (s₁, log₁) ∧
      host.all Alsa.isHost = true ∧ run (Alsa.step conv) s₁ host = .ok (s', log₂) ∧
      s'.isIdle = true ∧ log = log₁ ++ log₂ := by
  unfold Alsa.callWith at hok
  split at hok
  next hhost =>
    obtain ⟨hrun, hidle⟩ := runIdle_inv hok
    obtain ⟨s₁, log₁, log₂, hfirst, hrest, hlog⟩ := run_cons_inv hrun
    unfold Alsa.step at hfirst
    dsimp only at hfirst
    split at hfirst
    next hc => exact ⟨s₁, log₁, log₂, hc, hfirst, hhost, hrest, hidle, hlog⟩
    next => cases hfirst
  next => cases hok

theorem caller_of_idle (hidle : s.isIdle = true) : s.caller = .idle := by
  unfold Alsa.isIdle at hidle
  split at hidle
  next hc => exact hc
  next => cases hidle

end

/-- No configuration failed. -/
def Succeeds (log : List AlsaEvent) : Prop := ∀ e, .configured (.error e) ∉ log

theorem Succeeds.left {log more : List AlsaEvent} (h : Succeeds (log ++ more)) : Succeeds log :=
  fun e he => h e (List.mem_append_left _ he)

theorem Succeeds.right {log more : List AlsaEvent} (h : Succeeds (log ++ more)) : Succeeds more :=
  fun e he => h e (List.mem_append_right _ he)

/-- `configure_with_device` saves its arguments before anything can fail, and
asks for a device that only they determine. -/
theorem configured_saves (o : AlsaDirectOutput) (cfg : Config) :
    (o.configured cfg).1.format = cfg.format ∧ (o.configured cfg).1.sampleRate = cfg.sampleRate ∧
      (o.configured cfg).1.channels = cfg.channels ∧
      (o.configured cfg).1.deviceName = cfg.device ∧
      (o.configured cfg).1.volume = o.volume ∧ (o.configured cfg).1.muted = o.muted ∧
      (o.configured cfg).2 = (AlsaDirectOutput.new.configured cfg).2 := by
  unfold AlsaDirectOutput.configured
  dsimp only
  split <;> exact ⟨rfl, rfl, rfl, rfl, rfl, rfl, rfl⟩

/-! ## Toward a configuration -/

/-- What holds of a writer of `cfg`: `T` from its spawn on, and `R` once it has
reported its device open. -/
structure Follows (cfg : Config) (T R : WriterThread → Prop) : Prop where
  spawned : ∀ params idleClose, (AlsaDirectOutput.new.configured cfg).2 = .ok params →
    T (.spawn params idleClose)
  opens : ∀ t t' sh sh' now answer took, T t → t.step sh now answer = .ok (t', sh', took) → T t'
  reported : ∀ t, T t → t.report = some (.ok ()) → R t
  runs : ∀ t t' sh sh' now answer took, R t → t.step sh now answer = .ok (t', sh', took) → R t'

/-- Writer `id` satisfies `T`. -/
def Holds (T : WriterThread → Prop) (s : Endpoint.Alsa) (id : Nat) : Prop :=
  ∃ t, s.threads[id]? = some t ∧ T t

/-- `cfg` is configured, or will be when the call in progress has succeeded. -/
def Toward (cfg : Config) (T R : WriterThread → Prop) (s : Endpoint.Alsa) : Prop :=
  match s.caller with
  | .idle => s.flushConfig = cfg ∧ ∃ id, s.output.writer = some id ∧ Holds R s id
  | .stopping _ after => ∃ play, after = .configure cfg play
  | .opening id _ => s.flushConfig = cfg ∧ Holds T s id

section

variable {conv : Conversions} {s s' : Endpoint.Alsa} {log : List AlsaEvent} {cfg : Config}
  {T R : WriterThread → Prop}

/-- A thread that goes on, this one or another. -/
theorem Holds.set {id i : Nat} {t t' : WriterThread} (hs : Holds T s id)
    (ht : s.threads[i]? = some t) (hgoes : T t → T t')
    (hthreads : s'.threads = s.threads.set i t') : Holds T s' id := by
  obtain ⟨u, hu, hT⟩ := hs
  by_cases hid : i = id
  case pos =>
    subst hid
    obtain rfl : t = u := Option.some.inj (ht.symm.trans hu)
    have hlt : i < s.threads.length := (List.getElem?_eq_some_iff.mp ht).1
    refine ⟨t', ?_, hgoes hT⟩
    rw [hthreads, List.getElem?_set_self hlt]
  case neg =>
    refine ⟨u, ?_, hT⟩
    rw [hthreads, List.getElem?_set_ne hid, hu]

theorem toward_configure (hT : Follows cfg T R) {play : Bool}
    (hconf : s.configure cfg play = (s', log)) (hok : Succeeds log) :
    Toward cfg T R s' ∧ s'.flushConfig = cfg := by
  obtain ⟨hformat, hrate, hchannels, hdevice, -, -, hparams⟩ := configured_saves s.output cfg
  unfold Endpoint.Alsa.configure at hconf
  split at hconf
  next output e hout =>
    cases hconf
    exact absurd (List.mem_singleton.mpr rfl) (hok e)
  next output params hout =>
    cases hconf
    rw [hout] at hformat hrate hchannels hdevice hparams
    have hsaved : ({ s with
        output
        threads := s.threads ++ [.spawn params s.idleClose]
        caller := .opening s.threads.length play } : Endpoint.Alsa).flushConfig = cfg := by
      unfold Endpoint.Alsa.flushConfig
      rw [hformat, hrate, hchannels, hdevice]
    have hholds : Holds T { s with
        output
        threads := s.threads ++ [.spawn params s.idleClose]
        caller := .opening s.threads.length play } s.threads.length :=
      ⟨.spawn params s.idleClose, by simp, hT.spawned params s.idleClose hparams.symm⟩
    exact ⟨⟨hsaved, hholds⟩, hsaved⟩

theorem toward_shutdownReturns (hT : Follows cfg T R) {play : Bool}
    (hret : s.shutdownReturns (.configure cfg play) = (s', log)) (hok : Succeeds log) :
    Toward cfg T R s' ∧ s'.flushConfig = cfg :=
  toward_configure hT hret hok

/-- The shutdown saves nothing, and configures when it is done. -/
theorem toward_shutdown (hT : Follows cfg T R) {discard play : Bool}
    (hshut : s.shutdown discard (.configure cfg play) = (s', log)) (hok : Succeeds log) :
    Toward cfg T R s' ∧ (s.flushConfig = cfg → s'.flushConfig = cfg) := by
  unfold Endpoint.Alsa.shutdown at hshut
  dsimp only at hshut
  split at hshut
  next =>
    obtain ⟨htoward, hsaved⟩ := toward_shutdownReturns hT hshut hok
    exact ⟨htoward, fun _ => hsaved⟩
  next id hid =>
    cases hshut
    exact ⟨⟨play, rfl⟩, fun hsaved => hsaved⟩

theorem toward_resume (hT : Follows cfg T R) (hs : Toward cfg T R s)
    (hstep : s.resume = .ok (s', log)) (hok : Succeeds log) :
    Toward cfg T R s' ∧ (s.flushConfig = cfg → s'.flushConfig = cfg) := by
  unfold Endpoint.Alsa.resume at hstep
  split at hstep
  next => cases hstep
  next id after hc =>
    rw [Toward, hc] at hs
    obtain ⟨play, rfl⟩ := hs
    split at hstep
    next => cases hstep
    next =>
      split at hstep
      next =>
        obtain ⟨htoward, hsaved⟩ := toward_shutdownReturns hT (Except.ok.inj hstep) hok
        exact ⟨htoward, fun _ => hsaved⟩
      next => cases hstep
  next id play hc =>
    rw [Toward, hc] at hs
    obtain ⟨hsaved, t, ht, hholds⟩ := hs
    rw [ht] at hstep
    split at hstep
    next => cases hstep
    next hreport =>
      -- the device is open
      have hrunning : Holds R s id := ⟨t, ht, hT.reported t hholds hreport⟩
      cases hstep
      cases play <;> exact ⟨⟨hsaved, id, rfl, hrunning⟩, fun _ => hsaved⟩
    next e _ =>
      cases hstep
      exact absurd (List.mem_singleton.mpr rfl) (hok e)

theorem toward_giveUp (hT : Follows cfg T R) (hs : Toward cfg T R s)
    (hstep : s.giveUp = .ok (s', log)) (hok : Succeeds log) :
    Toward cfg T R s' ∧ (s.flushConfig = cfg → s'.flushConfig = cfg) := by
  unfold Endpoint.Alsa.giveUp at hstep
  split at hstep
  next => cases hstep
  next id after hc =>
    rw [Toward, hc] at hs
    obtain ⟨play, rfl⟩ := hs
    split at hstep
    next => cases hstep
    next =>
      split at hstep
      next => cases hstep
      next =>
        obtain ⟨htoward, hsaved⟩ := toward_shutdownReturns hT (Except.ok.inj hstep) hok
        exact ⟨htoward, fun _ => hsaved⟩
  next id play hc =>
    split at hstep
    next => cases hstep
    next =>
      split at hstep
      next => cases hstep
      next =>
        cases hstep
        exact absurd (List.mem_singleton.mpr rfl) (hok _)

/-- **The step rule of the host.** -/
theorem toward_host (hT : Follows cfg T R) {a : AlsaAction} (hs : Toward cfg T R s)
    (hhost : Endpoint.Alsa.isHost a = true) (hstep : s.step conv a = .ok (s', log))
    (hok : Succeeds log) :
    Toward cfg T R s' ∧ (s.flushConfig = cfg → s'.flushConfig = cfg) := by
  cases a with
  | call c => cases hhost
  | resume => exact toward_resume hT hs hstep hok
  | giveUp => exact toward_giveUp hT hs hstep hok
  | thread id now answer =>
    obtain ⟨t, t', sh', took, hget, ht, rfl, -⟩ := threadStep_inv hstep
    refine ⟨?_, fun hsaved => hsaved⟩
    have hset : ∀ (S : WriterThread → Prop) (i : Nat), (S t → S t') → Holds S s i →
        Holds S { s with threads := s.threads.set id t', shared := sh' } i :=
      fun S i hgoes hi => hi.set hget hgoes rfl
    cases hc : s.caller with
    | idle =>
      rw [Toward, hc] at hs
      obtain ⟨hsaved, i, hwriter, hi⟩ := hs
      exact ⟨hsaved, i, hwriter, hset R i (fun h => hT.runs _ _ _ _ _ _ _ h ht) hi⟩
    | stopping i after =>
      rw [Toward, hc] at hs
      exact hs
    | opening i play =>
      rw [Toward, hc] at hs
      exact ⟨hs.1, hset T i (fun h => hT.opens _ _ _ _ _ _ _ h ht) hs.2⟩

/-- **A call that ends in a configuration which succeeds.** -/
theorem toward_callWith (hT : Follows cfg T R) {c : Call} {host : List AlsaAction}
    {discard play : Bool}
    (hstart : s.start conv c = .ok (s.shutdown discard (.configure cfg play)))
    (hcall : s.callWith conv c host = .ok (s', log)) (hok : Succeeds log) :
    s'.caller = .idle ∧ Toward cfg T R s' := by
  obtain ⟨s₁, log₁, log₂, -, hfirst, hhost, hrun, hidle, rfl⟩ := callWith_inv hcall
  have hshut : s.shutdown discard (.configure cfg play) = (s₁, log₁) :=
    Except.ok.inj (hstart.symm.trans hfirst)
  have hend : Throughout (Endpoint.Alsa.step conv)
      (fun t log => Succeeds log → Toward cfg T R t) s₁ host := by
    refine throughout_of_step_in (A := fun a => Endpoint.Alsa.isHost a = true) ?_
      (fun _ => (toward_shutdown hT hshut hok.left).1) (List.all_eq_true.mp hhost)
    intro t log a t' o ha ht hstep hsucc
    exact (toward_host hT (ht hsucc.left) ha hstep hsucc.right).1
  exact ⟨caller_of_idle hidle, hend host [] s' log₂ (by simp) hrun hok.right⟩

end

end Oaat.Alsa
