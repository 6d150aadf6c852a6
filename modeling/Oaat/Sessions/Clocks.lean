/-
Oaat.Sessions.Clocks — whose clock the shared clock is.

The clock is given to the accept loop once and outlives every session. An
exchange counts for a session when its own controller answered it; the endpoint
looks neither at the sender of a response nor at the request that it answers, so
the input says which it is. A clock that is bootstrapped should have taken at
least ten exchanges of the session that uses it. Nothing resets the clock between
two sessions: the main theorem says when that shows.
-/
import Oaat.Cli.RunEndpoint
import Oaat.Sessions.Events

namespace Oaat.Sessions

open Oaat.Core Oaat.Lib Oaat.Endpoint

/-- The transport, with the number of exchanges that the clock accepted since the
session began and that its own controller answered. -/
structure Counted where
  transport : Transport
  exchanges : Nat

/-- An input. `own` says of a datagram that it is the answer of the session's
controller to a request of this session. -/
structure Arrival where
  input : TransportInput
  own : Bool

/-- The datagram is an exchange that the clock accepts. -/
def accepts (clock : SharedClock) : TransportInput → Bool
  | .datagram bytes now _ =>
    match clockPacket bytes with
    | some p =>
      p.kind = .response && !stale p now && !clock.state.outlier p.t1 p.t2 p.t3 now
    | none => false
  | _ => false

namespace Counted

def new : Counted := { transport := .new, exchanges := 0 }

/-- The count after an input. -/
def count (s : Counted) (a : Arrival) : Nat :=
  if s.transport.phase.isRunning then
    if accepts s.transport.clock a.input && a.own then s.exchanges + 1 else s.exchanges
  else 0

def step (cfg : EndpointConfig) (s : Counted) (a : Arrival) :
    Except Unit (Counted × List Sent) :=
  match s.transport.step cfg a.input with
  | .error e => .error e
  | .ok (transport, out) => .ok ({ transport, exchanges := s.count a }, out)

end Counted

/-- A session that has a usable clock has its own controller's. -/
def Owned (s : Counted) : Prop :=
  s.transport.phase.isRunning = true → s.transport.clock.bootstrapped = true → 10 ≤ s.exchanges

/-- The read completes the handshake. -/
def greets (cfg : EndpointConfig) (fails : Option Nat) :
    Phase → Except String (List UInt8) → Bool
  | .handshake codec, .ok (b :: chunk) =>
    isGreeting ((codec.feed (b :: chunk)).decodeNext cfg.serde).1 && fails ≠ some 0
  | _, _ => false

/-- A session begins with a clock that is not bootstrapped, and the exchange that
bootstraps it is the tenth of the session. -/
def Bootstraps (cfg : EndpointConfig) (s : Counted) (a : Arrival) : Prop :=
  match a.input with
  | .read result _ fails =>
    greets cfg fails s.transport.phase result = true → s.transport.clock.bootstrapped = false
  | .datagram .. =>
    accepts s.transport.clock a.input = true → s.transport.clock.state.samples = 9 →
      10 ≤ s.count a
  | _ => True

instance (cfg : EndpointConfig) (s : Counted) : ∀ a, Decidable (Bootstraps cfg s a)
  | ⟨.read _ _ _, _⟩ => inferInstanceAs (Decidable (_ → _))
  | ⟨.datagram _ _ _, _⟩ => inferInstanceAs (Decidable (_ → _ → _))
  | ⟨.accept, _⟩ => .isTrue trivial
  | ⟨.control _ _, _⟩ => .isTrue trivial
  | ⟨.timer _ _, _⟩ => .isTrue trivial

/-! ## The clock -/

section

variable {clock : SharedClock}

/-- One sample more, for an exchange that is accepted. -/
theorem receive_samples (clock : SharedClock) (bytes : List UInt8) (now later : UInt64) :
    (clockSyncReceive clock bytes now later).1.state.samples =
      if accepts clock (.datagram bytes now later) then clock.state.samples + 1
      else clock.state.samples := by
  unfold clockSyncReceive accepts
  split
  next hnone => simp [hnone]
  next p hp =>
    simp only [hp]
    split
    next hkind => simp [hkind]
    next hkind =>
      cases hstale : stale p now with
      | true => simp
      | false =>
        cases hout : clock.state.outlier p.t1 p.t2 p.t3 now with
        | true => simp [hkind, SharedClock.update, ClockState.update_rejected hout]
        | false =>
          simp [hkind, SharedClock.update, ClockState.update_accepted hout]

/-- An accepted exchange bootstraps the clock when it is the tenth. -/
theorem bootstrapped_receive_iff (h : Published clock) (bytes : List UInt8) (now later : UInt64) :
    (clockSyncReceive clock bytes now later).1.bootstrapped = true ↔
      if accepts clock (.datagram bytes now later) then 10 ≤ clock.state.samples + 1
      else clock.bootstrapped = true := by
  have hp : Published (clockSyncReceive clock bytes now later).1 := h.receive bytes now later
  rw [hp.bootstrapped, ClockState.isBootstrapped, hp.count, receive_samples, h.bootstrapped,
    ClockState.isBootstrapped, h.count]
  split <;> simp

theorem bootstrapped_of_more (h : Published clock) (hten : 10 ≤ clock.state.samples + 1)
    (hlast : clock.state.samples ≠ 9) : clock.bootstrapped = true := by
  rw [h.bootstrapped, ClockState.isBootstrapped, h.count, decide_eq_true_eq]
  have hne : clock.state.samples.toNat ≠ 9 := fun heq => hlast (UInt32.toNat_inj.mp heq)
  rw [UInt32.le_iff_toNat_le, UInt32.toNat_add] at hten
  rw [ge_iff_le, UInt32.le_iff_toNat_le]
  have hbound := clock.state.samples.toNat_lt
  simp only [UInt32.reduceToNat] at *
  omega

end

/-! ## One step -/

section

variable {cfg : EndpointConfig} {t t' : Transport} {o : List Sent}

/-- A read that does not complete the handshake starts no session. -/
theorem greet_frame (cfg : EndpointConfig) (t : Transport) (codec : FrameCodec)
    (fails : Option Nat) (message : Except OaatError (Option Message)) :
    (t.greet cfg codec fails message).1.clock = t.clock ∧
      (t.greet cfg codec fails message).1.phase.isRunning =
        (isGreeting message && fails ≠ some 0) := by
  unfold Transport.greet
  split
  next => exact ⟨rfl, rfl⟩
  next hello =>
    split
    next hversion => exact ⟨rfl, by simp [isGreeting, hversion, Transport.ended, Phase.isRunning]⟩
    next hversion =>
      have hok : hello.protocolVersion = PROTOCOL_VERSION := by simpa using hversion
      dsimp only
      split
      next hfails => exact ⟨rfl, by simp [hfails, Transport.ended, Phase.isRunning]⟩
      next hfails => exact ⟨rfl, by simp [isGreeting, hok, hfails, Phase.isRunning]⟩
  next message hother =>
    refine ⟨rfl, ?_⟩
    cases message with
    | none => rfl
    | some msg =>
      cases msg with
      | hello hello => exact absurd rfl (hother hello)
      | _ => rfl

theorem read_frame {result : Except String (List UInt8)} {now : Nat} {fails : Option Nat}
    (hread : t.read cfg result now fails = some (t', o)) :
    t'.clock = t.clock ∧
      (greets cfg fails t.phase result = true →
        t.phase.isRunning = false ∧ t'.phase.isRunning = true) ∧
      (greets cfg fails t.phase result = false → t'.phase.isRunning = true →
        t.phase.isRunning = true) := by
  cases hphase : t.phase with
  | listening => simp [Transport.read, hphase] at hread
  | handshake codec =>
    cases result with
    | error e =>
      simp only [Transport.read, hphase] at hread
      cases hread
      simp [greets, Transport.ended, Phase.isRunning]
    | ok chunk =>
      cases chunk with
      | nil =>
        simp only [Transport.read, hphase] at hread
        cases hread
        simp [greets, Transport.ended, Phase.isRunning]
      | cons b chunk =>
        simp only [Transport.read, hphase] at hread
        obtain ⟨hclock, hrunning⟩ := greet_frame cfg t
          ((codec.feed (b :: chunk)).decodeNext cfg.serde).2 fails
          ((codec.feed (b :: chunk)).decodeNext cfg.serde).1
        rw [Option.some.inj hread] at hclock hrunning
        refine ⟨hclock, ?_, ?_⟩
        · intro hyes
          exact ⟨rfl, hrunning.trans hyes⟩
        · intro hno hyes
          rw [hrunning] at hyes
          exact absurd (hyes.symm.trans hno) Bool.noConfusion
  | running hello codec session =>
    refine ⟨?_, fun hyes => Bool.noConfusion hyes, fun _ _ => rfl⟩
    cases result with
    | error e =>
      simp only [Transport.read, hphase] at hread
      cases hread
      rfl
    | ok chunk =>
      cases chunk with
      | nil =>
        simp only [Transport.read, hphase] at hread
        cases hread
        rfl
      | cons b chunk =>
        simp only [Transport.read, hphase] at hread
        split at hread <;> cases hread <;> rfl

theorem arm_frame {hello : Hello} {codec : FrameCodec} {e : Effects} {fails : Bool}
    (harm : t.arm hello codec e fails = (t', o)) : t'.clock = t.clock := by
  unfold Transport.arm at harm
  split at harm <;> cases harm <;> rfl

/-- Only a datagram changes the clock, and only `Hello` starts a session. -/
theorem next_frame {i : TransportInput} (hnext : t.next cfg i = some (t', o))
    (hdatagram : ∀ bytes now later, i ≠ .datagram bytes now later)
    (hread : ∀ result now fails, i ≠ .read result now fails) :
    t'.clock = t.clock ∧ (t'.phase.isRunning = true → t.phase.isRunning = true) := by
  cases i with
  | accept =>
    simp only [Transport.next] at hnext
    split at hnext
    next =>
      cases hnext
      exact ⟨rfl, fun hyes => Bool.noConfusion hyes⟩
    next => cases hnext
  | read result now fails => exact absurd rfl (hread result now fails)
  | control msg fails =>
    simp only [Transport.next, Transport.control] at hnext
    split at hnext
    next hphase =>
      rw [hphase]
      exact ⟨arm_frame (Option.some.inj hnext), fun _ => rfl⟩
    next => cases hnext
  | timer now fails =>
    simp only [Transport.next, Transport.timer] at hnext
    split at hnext
    next hphase =>
      obtain ⟨e, -, harm⟩ := Option.map_eq_some_iff.mp hnext
      rw [hphase]
      exact ⟨arm_frame harm, fun _ => rfl⟩
    next => cases hnext
  | datagram bytes now later => exact absurd rfl (hdatagram bytes now later)

end

section

variable {cfg : EndpointConfig} {s s' : Counted} {a : Arrival} {o : List Sent}

theorem counted_step_inv (hstep : s.step cfg a = .ok (s', o)) :
    s.transport.next cfg a.input = some (s'.transport, o) ∧ s'.exchanges = s.count a := by
  unfold Counted.step at hstep
  split at hstep
  next => cases hstep
  next transport out hnext =>
    cases hstep
    exact ⟨Transport.step_eq_ok hnext, rfl⟩

/-- An input that is no accepted exchange leaves the count alone. -/
theorem count_eq (hrunning : s.transport.phase.isRunning = true)
    (hno : accepts s.transport.clock a.input = false) : s.count a = s.exchanges := by
  simp [Counted.count, hrunning, hno]

theorem le_count (hrunning : s.transport.phase.isRunning = true) : s.exchanges ≤ s.count a := by
  rw [Counted.count, if_pos hrunning]
  split <;> omega

theorem published_step (h : Published s.transport.clock) (hstep : s.step cfg a = .ok (s', o)) :
    Published s'.transport.clock := by
  obtain ⟨hnext, -⟩ := counted_step_inv hstep
  obtain ⟨i, own⟩ := a
  cases i with
  | read result now fails => rwa [(read_frame hnext).1]
  | datagram bytes now later =>
    simp only [Transport.next, Transport.datagram] at hnext
    split at hnext
    next =>
      obtain ⟨htransport, -⟩ := Prod.mk.inj (Option.some.inj hnext)
      rw [← htransport]
      exact h.receive bytes now later
    next => cases hnext
  | _ => rwa [(next_frame hnext (by simp) (by simp)).1]

/-- **One step.** -/
theorem owned_step_iff (hpub : Published s.transport.clock) (howned : Owned s)
    (hstep : s.step cfg a = .ok (s', o)) : Owned s' ↔ Bootstraps cfg s a := by
  obtain ⟨hnext, hcount⟩ := counted_step_inv hstep
  obtain ⟨i, own⟩ := a
  -- an input that leaves the clock alone and starts no session
  have hquiet (hclock : s'.transport.clock = s.transport.clock)
      (hrunning : s'.transport.phase.isRunning = true → s.transport.phase.isRunning = true)
      (hno : accepts s.transport.clock i = false) : Owned s' := by
    intro hafter hboot
    rw [hcount, count_eq (hrunning hafter) hno]
    exact howned (hrunning hafter) (hclock ▸ hboot)
  cases i with
  | read result now fails =>
    obtain ⟨hclock, hstarts, hstays⟩ := read_frame hnext
    cases hgreets : greets cfg fails s.transport.phase result with
    | false =>
      refine iff_of_true (hquiet hclock (hstays hgreets) rfl) ?_
      intro hyes
      exact absurd (hyes.symm.trans hgreets) Bool.noConfusion
    | true =>
      obtain ⟨hbefore, hafter⟩ := hstarts hgreets
      have hzero : s'.exchanges = 0 := by simp [hcount, Counted.count, hbefore]
      simp [Owned, Bootstraps, hgreets, hafter, hzero, hclock]
  | datagram bytes now later =>
    simp only [Transport.next, Transport.datagram] at hnext
    split at hnext
    next hrunning =>
      obtain ⟨htransport, -⟩ := Prod.mk.inj (Option.some.inj hnext)
      have hboot := bootstrapped_receive_iff hpub bytes now later
      have hclock : (clockSyncReceive s.transport.clock bytes now later).1 = s'.transport.clock :=
        congrArg Transport.clock htransport
      have hafter : s'.transport.phase.isRunning = true := htransport ▸ hrunning
      rw [hclock] at hboot
      cases hacc : accepts s.transport.clock (.datagram bytes now later) with
      | false =>
        rw [hacc, if_neg Bool.false_ne_true] at hboot
        refine iff_of_true ?_ fun hyes => absurd (hyes.symm.trans hacc) Bool.noConfusion
        intro _ hyes
        rw [hcount, count_eq hrunning hacc]
        exact howned hrunning (hboot.mp hyes)
      | true =>
        rw [hacc, if_pos rfl] at hboot
        rw [Owned, hboot, hcount]
        constructor
        · intro hten _ hnine
          exact hten hafter (by rw [hnine]; decide)
        · intro hnine _ hten
          by_cases hlast : s.transport.clock.state.samples = 9
          · exact hnine hacc hlast
          · -- it was bootstrapped before
            have hold := howned hrunning (bootstrapped_of_more hpub hten hlast)
            exact hold.trans (le_count hrunning)
    next => cases hnext
  | _ =>
    obtain ⟨hclock, hrunning⟩ := next_frame hnext (by simp) (by simp)
    exact iff_of_true (hquiet hclock hrunning rfl) trivial

end

/-! ## Every run -/

/-- A start is not scheduled on a clock that is not bootstrapped, and the servo
then keeps to the local clock. -/
theorem deferredStart_unsynced {B : Backend} (app : Cli.Endpoint B) {w : Cli.World}
    {clock : SharedClock} (head : UInt64) (hw : w.clock.bootstrapped = false)
    (hclock : clock.bootstrapped = false) :
    app.deferredStart { w with clock } head = app.deferredStart w head ∧
      (app.deferredStart w head).trackerIsControllerDomain = false := by
  unfold Cli.Endpoint.deferredStart
  simp [hw, hclock]

/-- **A usable clock is this controller's clock**, exactly when every session
begins with a clock that is not bootstrapped and every exchange that bootstraps
it is the tenth of its session; a start is scheduled on no other clock than a
bootstrapped one. -/
theorem clock_owned_iff (cfg : EndpointConfig) {inputs : List Arrival} {s : Counted}
    {log : List Sent} (hrun : run (Counted.step cfg) .new inputs = .ok (s, log)) :
    (Throughout (Counted.step cfg) (fun s _ => Owned s) .new inputs ↔
      Along (Counted.step cfg) (Bootstraps cfg) .new inputs) ∧
    ∀ (B : Backend) (app : Cli.Endpoint B) (w : Cli.World) (clock : SharedClock) (head : UInt64),
      w.clock.bootstrapped = false → clock.bootstrapped = false →
        app.deferredStart { w with clock } head = app.deferredStart w head ∧
          (app.deferredStart w head).trackerIsControllerDomain = false := by
  have hstep : ∀ (s : Counted) (log : List Sent) a s' o, Published s.transport.clock → True →
      Owned s → s.step cfg a = .ok (s', o) →
      (Owned s' ↔ Bootstraps cfg s a) ∧ (Bootstraps cfg s a → Published s'.transport.clock) :=
    fun s log a s' o hpub _ howned ha =>
      ⟨owned_step_iff hpub howned ha, fun _ => published_step hpub ha⟩
  have hnew : Owned .new := fun hrunning => Bool.noConfusion hrunning
  refine ⟨throughout_iff_along_of inputs (fun s _ => Owned s) .new s log hstep published_new
    (fun _ _ => trivial) hnew hrun, ?_⟩
  intro B app w clock head hw hclock
  exact deferredStart_unsynced app head hw hclock

/-- The controller's answer to the request sent at `t1`, five seconds ahead of the
endpoint; it arrives after two microseconds. -/
def answered (t1 : UInt64) : Arrival :=
  { input := .datagram (ClockSyncPacket.encode
      { version := 1, kind := .response, sequence := 0, t1, t2 := t1 + 5000001000,
        t3 := t1 + 5000001000 }) (t1 + 2000) (t1 + 2000)
    own := true }

/-- A controller connects, greets, and answers ten requests. -/
def synced : List Arrival :=
  greeting.map (⟨·, false⟩) ++ List.replicate 10 (answered 1000)

/-- What a run from the start leaves: whether a session runs, whether the clock is
bootstrapped, and the count. -/
def standing (cfg : EndpointConfig) (inputs : List Arrival) : Option (Bool × Bool × Nat) :=
  viewRun (Counted.step cfg)
    (fun s _ => (s.transport.phase.isRunning, s.transport.clock.bootstrapped, s.exchanges))
    .new inputs

/-- The first session gets a clock of its own. -/
theorem clock_owned_first :
    standing sampleConfig synced = some (true, true, 10) ∧
      Throughout (Counted.step sampleConfig) (fun s _ => Owned s) .new synced := by
  have hstanding : standing sampleConfig synced = some (true, true, 10) := by decide +kernel
  obtain ⟨s, log, hrun, -⟩ := run_of_viewRun hstanding
  refine ⟨hstanding, (clock_owned_iff sampleConfig hrun).1.mpr ?_⟩
  decide +kernel

/-- The second session begins with the clock of the first. -/
theorem clock_inherited :
    standing sampleConfig (synced ++ ⟨reading [], false⟩ :: greeting.map (⟨·, false⟩)) =
        some (true, true, 0) ∧
      ¬ Throughout (Counted.step sampleConfig) (fun s _ => Owned s) .new
        (synced ++ ⟨reading [], false⟩ :: greeting.map (⟨·, false⟩)) := by
  have hstanding : standing sampleConfig
      (synced ++ ⟨reading [], false⟩ :: greeting.map (⟨·, false⟩)) = some (true, true, 0) := by
    decide +kernel
  refine ⟨hstanding, ?_⟩
  intro hall
  obtain ⟨s, log, hrun, hview⟩ := run_of_viewRun hstanding
  simp only [Prod.mk.injEq] at hview
  obtain ⟨hrunning, hbooted, hnone⟩ := hview
  have howned := hall _ [] s log (List.append_nil _).symm hrun hrunning hbooted
  omega

end Oaat.Sessions
