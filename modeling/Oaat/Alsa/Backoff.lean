/-
Oaat.Alsa.Backoff — when a lost device is tried again.

A failure schedules the next open after a delay that doubles from failure to
failure, up to a cap, and starts over once the device was open for long enough.
`Slot` is a slot with its history; its actions are the operations of `DeviceSlot`.

The slot sees how long the device was open in `opened_at`, and an idle close
clears it. So a failure after an idle close goes on with the old delay, however
long the device was open before (`Evident`).
-/
import Oaat.Alsa.Delivery

namespace Oaat.Alsa

open Oaat.Core Oaat.Endpoint Oaat.Lib

/-! ## The slot and its history -/

/-- What is done with a slot. -/
inductive SlotAction where
  /-- `ensure_open`. If it calls the opener, that returns `r` at `later`. -/
  | ensureOpen (now later : Nat) (r : Except String Unit)
  /-- `fail`, of an open device. -/
  | fail (now : Nat)
  /-- `close` -/
  | close (now : Nat)

inductive SlotEvent where
  | opened (time : Nat)
  /-- A failure, and the delay that it schedules. -/
  | failed (time delay : Nat)
  | closed (time : Nat)
  deriving Repr, DecidableEq

namespace SlotEvent

def isOpened : SlotEvent → Bool
  | .opened _ => true
  | _ => false

def isFailed : SlotEvent → Bool
  | .failed _ _ => true
  | _ => false

def closedAt : SlotEvent → Option Nat
  | .closed time => some time
  | _ => none

end SlotEvent

def slotStep (slot : DeviceSlot) : SlotAction → Except Blocked (DeviceSlot × List SlotEvent)
  | .ensureOpen now later r =>
    if slot.dev || slot.backsOff now then .ok (slot, [])
    else
      match r with
      | .ok () => .ok (slot.opened later, [.opened later])
      | .error _ =>
        let slot := slot.scheduleRetry later
        .ok (slot, [.failed later slot.backoff])
  | .fail now =>
    if slot.dev then
      let slot := slot.fail now
      .ok (slot, [.failed now slot.backoff])
    else .error .blocked
  | .close now => .ok (slot.close, if slot.dev then [.closed now] else [])

/-- A slot, and what has happened to it. -/
structure Slot where
  slot : DeviceSlot
  past : List SlotEvent

namespace Slot

/-- A writer whose first open succeeded. -/
def start (params : DeviceParams) (time : Nat) : Slot :=
  { slot := (DeviceSlot.new params).opened time, past := [.opened time] }

def step (s : Slot) (a : SlotAction) : Except Blocked (Slot × List SlotEvent) :=
  match slotStep s.slot a with
  | .error e => .error e
  | .ok (slot, events) => .ok ({ slot, past := s.past ++ events }, events)

end Slot

/-! ## The law -/

/-- The delay of every failure is within the limits. -/
def Bounded (_past : List SlotEvent) (e : SlotEvent) : Prop :=
  ∀ time delay, e = .failed time delay →
    RESPAWN_BACKOFF_MIN ≤ delay ∧ delay ≤ RESPAWN_BACKOFF_MAX

/-- A failure that follows a failure, with no successful open in between, doubles
its delay up to the cap. -/
def Doubles (past : List SlotEvent) (e : SlotEvent) : Prop :=
  ∀ time delay, e = .failed time delay →
    ∀ before time' delay' mid, past = before ++ .failed time' delay' :: mid →
      (∀ x ∈ mid, x.isOpened = false ∧ x.isFailed = false) →
      delay = min (delay' * 2) RESPAWN_BACKOFF_MAX

/-- How long an open stayed healthy that these events followed: until it was
closed, or until the failure at `time`. -/
def healthyUntil (mid : List SlotEvent) (time : Nat) : Nat :=
  (mid.findSome? SlotEvent.closedAt).getD time

/-- The first failure after an open that stayed healthy for long enough starts
over. -/
def Resets (past : List SlotEvent) (e : SlotEvent) : Prop :=
  ∀ time delay, e = .failed time delay →
    ∀ before opened mid, past = before ++ .opened opened :: mid →
      (∀ x ∈ mid, x.isFailed = false) →
      RESPAWN_STABLE_RUN ≤ healthyUntil mid time - opened → delay = RESPAWN_BACKOFF_MIN

/-- The law of the backoff, of an event and what came before it. -/
structure Law (past : List SlotEvent) (e : SlotEvent) : Prop where
  bounded : Bounded past e
  doubles : Doubles past e
  resets : Resets past e

/-! ## When the slot keeps it -/

/-- The time at which the action makes the slot schedule a retry. -/
def failsAt (slot : DeviceSlot) : SlotAction → Option Nat
  | .ensureOpen now later (.error _) => if slot.dev || slot.backsOff now then none else some later
  | .fail now => if slot.dev then some now else none
  | _ => none

/-- The present open has been healthy for long enough. -/
def stable (slot : DeviceSlot) (now : Nat) : Bool :=
  slot.openedAt.any fun t => RESPAWN_STABLE_RUN ≤ now - t

/-- Since the last failure an open stayed healthy for long enough, and was then
closed. -/
def HealthyClosed (past : List SlotEvent) : Prop :=
  ∃ before opened mid closed, past = before ++ .opened opened :: mid ∧
    (∀ x ∈ mid, x.isFailed = false) ∧ mid.findSome? SlotEvent.closedAt = some closed ∧
    RESPAWN_STABLE_RUN ≤ closed - opened

/-- A failure that comes after such an open is the first one at all, or ends a
healthy open itself. -/
def Evident (s : Slot) (a : SlotAction) : Prop :=
  ∀ time, failsAt s.slot a = some time → HealthyClosed s.past →
    s.slot.backoff = 0 ∨ stable s.slot time = true

/-! ## What an action does -/

inductive SlotMoved (slot : DeviceSlot) (a : SlotAction) : DeviceSlot → List SlotEvent → Prop where
  | waits : failsAt slot a = none → SlotMoved slot a slot []
  | opens (time : Nat) : failsAt slot a = none → slot.dev = false →
      SlotMoved slot a (slot.opened time) [.opened time]
  | fails (time : Nat) : failsAt slot a = some time →
      SlotMoved slot a (slot.fail time) [.failed time (slot.fail time).backoff]
  | closes (time : Nat) : failsAt slot a = none → slot.dev = true →
      SlotMoved slot a slot.close [.closed time]
  | closesNone : failsAt slot a = none → slot.dev = false → SlotMoved slot a slot.close []

section

variable {slot slot' : DeviceSlot} {a : SlotAction} {events : List SlotEvent}

theorem fail_of_closed (hdev : slot.dev = false) (now : Nat) :
    slot.fail now = slot.scheduleRetry now := by
  rw [DeviceSlot.fail, ← hdev]

theorem slotStep_inv (h : slotStep slot a = .ok (slot', events)) :
    SlotMoved slot a slot' events := by
  cases a with
  | ensureOpen now later r =>
    simp only [slotStep] at h
    split at h
    next hheld =>
      cases h
      cases r <;> exact .waits (by simp [failsAt, hheld])
    next hfree =>
      have hdev : slot.dev = false := by
        simp only [Bool.or_eq_true, not_or, Bool.not_eq_true] at hfree
        exact hfree.1
      cases r with
      | ok u => cases h; exact .opens later rfl hdev
      | error e =>
        cases h
        rw [← fail_of_closed hdev]
        exact .fails later (by simp only [failsAt, hfree, Bool.false_eq_true, if_false])
  | fail now =>
    simp only [slotStep] at h
    split at h
    next hdev => cases h; exact .fails now (by simp [failsAt, hdev])
    next => cases h
  | close now =>
    cases h
    cases hdev : slot.dev with
    | true => exact .closes now rfl hdev
    | false => exact .closesNone rfl hdev

theorem backoff_fail (slot : DeviceSlot) (now : Nat) :
    (slot.fail now).backoff =
      if stable slot now = true ∨ slot.backoff = 0 then RESPAWN_BACKOFF_MIN
      else min (slot.backoff * 2) RESPAWN_BACKOFF_MAX := rfl

end

/-! ## What the slot remembers -/

/-- No failure among these events. -/
def NoFailure (events : List SlotEvent) : Prop := ∀ x ∈ events, x.isFailed = false

/-- The last event is not an open. -/
def Shut (past : List SlotEvent) : Prop := ∀ before time, past ≠ before ++ [.opened time]

/-- What the fields of a slot say of its history. -/
structure Recorded (s : Slot) : Prop where
  /-- The delay of the last failure. -/
  backoff : (s.slot.backoff = 0 ∧ NoFailure s.past) ∨
    (RESPAWN_BACKOFF_MIN ≤ s.slot.backoff ∧ s.slot.backoff ≤ RESPAWN_BACKOFF_MAX ∧
      ∃ before time mid, s.past = before ++ .failed time s.slot.backoff :: mid ∧ NoFailure mid)
  /-- The device was opened last. -/
  held : s.slot.dev = true →
    ∃ before time, s.past = before ++ [.opened time] ∧ s.slot.openedAt = some time
  free : s.slot.dev = false → s.slot.openedAt = none ∧ Shut s.past
  /-- A device is opened only when it is not open. -/
  alternates : Each (fun past e => e.isOpened = true → Shut past) s.past

section

variable {s s' : Slot} {a : SlotAction} {events : List SlotEvent}

theorem NoFailure.concat {past : List SlotEvent} (h : NoFailure past) {e : SlotEvent}
    (he : e.isFailed = false) : NoFailure (past ++ [e]) := by
  intro x hx
  rcases List.mem_append.mp hx with hx | hx
  · exact h x hx
  · rw [List.mem_singleton.mp hx, he]

theorem shut_concat {e : SlotEvent} (he : e.isOpened = false) (past : List SlotEvent) :
    Shut (past ++ [e]) := by
  intro before time h
  obtain ⟨-, hlast⟩ := List.append_inj' h rfl
  rw [List.singleton_inj.mp hlast] at he
  cases he

/-- Nothing was opened from some event on. -/
theorem shut_append {e : SlotEvent} {mid : List SlotEvent} (he : e.isOpened = false)
    (hmid : ∀ x ∈ mid, x.isOpened = false) (before : List SlotEvent) :
    Shut (before ++ e :: mid) := by
  rcases List.eq_nil_or_concat mid with rfl | ⟨init, x, rfl⟩
  · exact shut_concat he before
  · rw [List.concat_eq_append, ← List.cons_append, ← List.append_assoc]
    exact shut_concat (hmid x (by simp)) _

theorem recorded_start (params : DeviceParams) (time : Nat) :
    Recorded (Slot.start params time) where
  backoff := by
    refine .inl ⟨rfl, ?_⟩
    simp [NoFailure, Slot.start, SlotEvent.isFailed]
  held _ := ⟨[], time, rfl, rfl⟩
  free h := by cases h
  alternates := by
    refine each_singleton.mpr ?_
    intro _ before t h
    simp at h

/-- An event that is no failure leaves the delay of the last failure as it is. -/
theorem Recorded.backoff_concat (h : Recorded s) {e : SlotEvent} (he : e.isFailed = false) :
    (s.slot.backoff = 0 ∧ NoFailure (s.past ++ [e])) ∨
      (RESPAWN_BACKOFF_MIN ≤ s.slot.backoff ∧ s.slot.backoff ≤ RESPAWN_BACKOFF_MAX ∧
        ∃ before time mid,
          s.past ++ [e] = before ++ .failed time s.slot.backoff :: mid ∧ NoFailure mid) := by
  rcases h.backoff with ⟨hzero, hnone⟩ | ⟨hmin, hmax, before, time, mid, hpast, hmid⟩
  · exact .inl ⟨hzero, hnone.concat he⟩
  · refine .inr ⟨hmin, hmax, before, time, mid ++ [e], ?_, hmid.concat he⟩
    rw [hpast, List.append_assoc, List.cons_append]

theorem Recorded.backoff_bounded (h : Recorded s) (now : Nat) :
    RESPAWN_BACKOFF_MIN ≤ (s.slot.fail now).backoff ∧
      (s.slot.fail now).backoff ≤ RESPAWN_BACKOFF_MAX := by
  rw [backoff_fail]
  have hcap : RESPAWN_BACKOFF_MIN ≤ RESPAWN_BACKOFF_MAX := by decide
  rcases h.backoff with ⟨hzero, -⟩ | ⟨hmin, -, -⟩
  · rw [if_pos (.inr hzero)]
    exact ⟨le_rfl, hcap⟩
  · split
    · exact ⟨le_rfl, hcap⟩
    · exact ⟨le_min (by omega) hcap, min_le_right _ _⟩

theorem step_inv_slot (h : s.step a = .ok (s', events)) :
    ∃ slot, SlotMoved s.slot a slot events ∧ s' = { slot, past := s.past ++ events } := by
  unfold Slot.step at h
  split at h
  next => cases h
  next slot o hstep =>
    cases h
    exact ⟨slot, slotStep_inv hstep, rfl⟩

/-- **The step rule.** -/
theorem step_recorded (h : Recorded s) (hstep : s.step a = .ok (s', events)) : Recorded s' := by
  obtain ⟨slot, hmoved, rfl⟩ := step_inv_slot hstep
  cases hmoved with
  | waits =>
    rw [List.append_nil]
    exact h
  | opens time _ hdev =>
    refine ⟨h.backoff_concat rfl, fun _ => ⟨s.past, time, rfl, rfl⟩, fun hno => (by cases hno), ?_⟩
    exact each_concat.mpr ⟨h.alternates, fun _ => (h.free hdev).2⟩
  | fails time =>
    obtain ⟨hmin, hmax⟩ := h.backoff_bounded time
    refine ⟨.inr ⟨hmin, hmax, s.past, time, [], rfl, by simp [NoFailure]⟩,
      fun hyes => (by cases hyes), fun _ => ⟨rfl, shut_concat rfl _⟩, ?_⟩
    exact each_concat.mpr ⟨h.alternates, fun hopened => (by cases hopened)⟩
  | closes time _ hdev =>
    refine ⟨h.backoff_concat rfl, fun hyes => (by cases hyes),
      fun _ => ⟨rfl, shut_concat rfl _⟩, ?_⟩
    exact each_concat.mpr ⟨h.alternates, fun hopened => (by cases hopened)⟩
  | closesNone _ hdev =>
    rw [List.append_nil]
    exact ⟨h.backoff, fun hyes => (by cases hyes), fun _ => ⟨rfl, (h.free hdev).2⟩, h.alternates⟩

/-- The last failure of a history. -/
theorem lastFailure_unique {before before' mid mid' : List SlotEvent} {t t' d d' : Nat}
    (h : before ++ .failed t d :: mid = before' ++ .failed t' d' :: mid') (hmid : NoFailure mid)
    (hmid' : NoFailure mid') : d = d' := by
  rcases List.append_eq_append_iff.mp h with ⟨more, rfl, hmore⟩ | ⟨more, rfl, hmore⟩
  · cases more with
    | nil => cases hmore; rfl
    | cons x more =>
      rw [List.cons_append, List.cons.injEq] at hmore
      have hfail := hmid (.failed t' d') (by simp [hmore.2])
      cases hfail
  · cases more with
    | nil => cases hmore; rfl
    | cons x more =>
      rw [List.cons_append, List.cons.injEq] at hmore
      have hfail := hmid' (.failed t d) (by simp [hmore.2])
      cases hfail

/-- An open that neither failed nor was closed is still there. -/
theorem Recorded.still_open (h : Recorded s) {before mid : List SlotEvent} {opened : Nat}
    (hpast : s.past = before ++ .opened opened :: mid) (hmid : NoFailure mid)
    (hclosed : mid.findSome? SlotEvent.closedAt = none) :
    mid = [] ∧ s.slot.openedAt = some opened := by
  have hnil : mid = [] := by
    cases mid with
    | nil => rfl
    | cons x mid =>
      have hx : x.isOpened = true := by
        have hfail := hmid x (by simp)
        cases x with
        | opened t => rfl
        | failed t d => cases hfail
        | closed t => simp [SlotEvent.closedAt] at hclosed
      have hsplit : s.past = (before ++ [.opened opened]) ++ x :: mid := by simp [hpast]
      exact absurd rfl (h.alternates _ _ _ hsplit hx before opened)
  subst hnil
  refine ⟨rfl, ?_⟩
  cases hdev : s.slot.dev with
  | false => exact absurd hpast ((h.free hdev).2 before opened)
  | true =>
    obtain ⟨before', time, hpast', hat⟩ := h.held hdev
    rw [hpast] at hpast'
    obtain ⟨-, hlast⟩ := List.append_inj' hpast' rfl
    rw [hat]
    cases hlast
    rfl

/-! ## The three parts of the law -/

/-- After a failure with no open since, the delay doubles. -/
theorem Recorded.doubles (h : Recorded s) (now : Nat) :
    Doubles s.past (.failed now (s.slot.fail now).backoff) := by
  rintro time delay he before time' delay' mid hpast hmid
  obtain ⟨rfl, rfl⟩ : now = time ∧ (s.slot.fail now).backoff = delay := by simpa using he
  have hshut : Shut s.past := by
    rw [hpast]
    exact shut_append rfl (fun x hx => (hmid x hx).1) before
  have hdev : s.slot.dev = false := by
    rw [← Bool.not_eq_true]
    intro hdev
    obtain ⟨before', t, hpast', -⟩ := h.held hdev
    exact hshut before' t hpast'
  have hstable : stable s.slot now = false := by rw [stable, (h.free hdev).1]; rfl
  rcases h.backoff with ⟨-, hnone⟩ | ⟨hmin, -, before', t, mid', hpast', hmid'⟩
  · have hfail := hnone (.failed time' delay') (by simp [hpast])
    cases hfail
  · have hsame : delay' = s.slot.backoff := by
      rw [hpast] at hpast'
      exact lastFailure_unique hpast' (fun x hx => (hmid x hx).2) hmid'
    have hne : ¬ s.slot.backoff = 0 := by
      have : 0 < RESPAWN_BACKOFF_MIN := by decide
      omega
    rw [backoff_fail, hstable, hsame, if_neg (by simp [hne])]

/-- A failure that is not the first and does not end a healthy open itself
goes on with more than the shortest delay. -/
theorem Recorded.backoff_eq_min_iff (h : Recorded s) (now : Nat) :
    (s.slot.fail now).backoff = RESPAWN_BACKOFF_MIN ↔
      s.slot.backoff = 0 ∨ stable s.slot now = true := by
  rw [backoff_fail]
  constructor
  · intro hmin
    by_contra hno
    rw [not_or] at hno
    rw [if_neg (by simp [hno.1, hno.2])] at hmin
    have hconst : RESPAWN_BACKOFF_MIN < RESPAWN_BACKOFF_MAX ∧ 0 < RESPAWN_BACKOFF_MIN := by decide
    rcases h.backoff with ⟨hzero, -⟩ | ⟨hle, -, -⟩
    · exact hno.1 hzero
    · omega
  · intro hor
    exact if_pos hor.symm

/-- A failure keeps the third part of the law exactly when its healthy open is
evident. -/
theorem Recorded.resets_iff (h : Recorded s) {time : Nat} (hfails : failsAt s.slot a = some time) :
    Resets s.past (.failed time (s.slot.fail time).backoff) ↔ Evident s a := by
  constructor
  · rintro hresets t ht ⟨before, opened, mid, closed, hpast, hmid, hclosed, hlong⟩
    obtain rfl : time = t := by simpa [hfails] using ht
    refine (h.backoff_eq_min_iff time).mp (hresets time _ rfl before opened mid hpast hmid ?_)
    rwa [healthyUntil, hclosed, Option.getD_some]
  · intro hevident t delay he before opened mid hpast hmid hlong
    obtain ⟨rfl, rfl⟩ : time = t ∧ (s.slot.fail time).backoff = delay := by simpa using he
    refine (h.backoff_eq_min_iff time).mpr ?_
    unfold healthyUntil at hlong
    cases hclosed : mid.findSome? SlotEvent.closedAt with
    | some closed =>
      rw [hclosed, Option.getD_some] at hlong
      exact hevident time hfails ⟨before, opened, mid, closed, hpast, hmid, hclosed, hlong⟩
    | none =>
      -- the open is still there, and ends with this failure
      rw [hclosed, Option.getD_none] at hlong
      obtain ⟨-, hat⟩ := h.still_open hpast hmid hclosed
      right
      rw [stable, hat]
      exact decide_eq_true hlong

theorem law_of_not_failed {past : List SlotEvent} {e : SlotEvent} (he : e.isFailed = false) :
    Law past e := by
  have hno : ∀ time delay, e ≠ .failed time delay := by
    rintro time delay rfl
    cases he
  exact ⟨fun t d h => absurd h (hno t d), fun t d h => absurd h (hno t d),
    fun t d h => absurd h (hno t d)⟩

theorem evident_of_not_failed (h : failsAt s.slot a = none) : Evident s a := by
  intro time htime
  rw [h] at htime
  cases htime

/-- **One action.** It keeps the law exactly when it is evident. -/
theorem step_law_iff (h : Recorded s) (hstep : s.step a = .ok (s', events)) :
    Each Law s'.past ↔ Each Law s.past ∧ Evident s a := by
  obtain ⟨slot, hmoved, rfl⟩ := step_inv_slot hstep
  cases hmoved with
  | waits hnone | closesNone hnone =>
    rw [List.append_nil, and_iff_left (evident_of_not_failed hnone)]
  | opens time hnone =>
    rw [each_concat, and_iff_left (law_of_not_failed rfl),
      and_iff_left (evident_of_not_failed hnone)]
  | fails time hfails =>
    rw [each_concat, ← h.resets_iff hfails]
    refine and_congr_right fun _ =>
      ⟨fun hlaw => hlaw.resets, fun hresets => ⟨?_, h.doubles time, hresets⟩⟩
    intro t d he
    obtain ⟨rfl, rfl⟩ : time = t ∧ (s.slot.fail time).backoff = d := by simpa using he
    exact h.backoff_bounded time
  | closes time hnone =>
    rw [each_concat, and_iff_left (law_of_not_failed rfl),
      and_iff_left (evident_of_not_failed hnone)]

end

/-- **The backoff law.** Take a writer whose first open succeeded, and any
sequence of what happens to its slot. All its delays keep the law exactly when
every failure that comes after a healthy open and an idle close is the first of
all, or ends a healthy open itself. -/
theorem backoff_law_iff {params : DeviceParams} {time : Nat} {acts : List SlotAction} {t : Slot}
    {log : List SlotEvent} (hrun : run Slot.step (.start params time) acts = .ok (t, log)) :
    Each Law t.past ↔ Along Slot.step Evident (.start params time) acts := by
  have hstart : Each Law (Slot.start params time).past :=
    each_singleton.mpr (law_of_not_failed rfl)
  have hkeep : ∀ (s : Slot) (_ : List SlotEvent) (a : SlotAction) (s' : Slot)
      (o : List SlotEvent), Recorded s → True → Slot.step s a = .ok (s', o) →
      Recorded s' ∧ (Each Law s'.past ↔ Each Law s.past ∧ Evident s a) :=
    fun s _ a s' o hs _ hstep => ⟨step_recorded hs hstep, step_law_iff hs hstep⟩
  have h := run_iff_along (fun s _ => Recorded s) (fun s _ => Each Law s.past)
    (fun _ _ => True) Evident hkeep acts _ t [] log (recorded_start params time)
    (along_of_forall fun _ _ _ => trivial) hrun
  rwa [and_iff_right hstart] at h

def seconds (n : Nat) : Nat := n * 1_000_000_000

/-- A device that is lost after one second, and again seven seconds after it came
back. -/
def lostTwice : List SlotAction :=
  [.fail (seconds 1), .ensureOpen (seconds 2) (seconds 2) (.ok ()), .fail (seconds 9)]

theorem backoff_law_iff_lostTwice :
    ∃ t log, run Slot.step (.start stereoParams 0) lostTwice = .ok (t, log) ∧ Each Law t.past ∧
      t.past = [.opened 0, .failed (seconds 1) 250_000_000, .opened (seconds 2),
        .failed (seconds 9) 250_000_000] := by
  have hview : viewRun Slot.step (fun t _ => t.past) (.start stereoParams 0) lostTwice =
      some [.opened 0, .failed (seconds 1) 250_000_000, .opened (seconds 2),
        .failed (seconds 9) 250_000_000] := by
    decide
  obtain ⟨t, log, hrun, hpast⟩ := run_of_viewRun hview
  refine ⟨t, log, hrun, (backoff_law_iff hrun).mpr ?_, hpast⟩
  have hfirst : Evident (.start stereoParams 0) (.fail (seconds 1)) := fun _ _ _ => .inl rfl
  refine ⟨hfirst, fun s₁ o₁ h₁ => ?_⟩
  cases h₁
  refine ⟨evident_of_not_failed rfl, fun s₂ o₂ h₂ => ?_⟩
  cases h₂
  refine ⟨?_, fun _ _ _ => trivial⟩
  intro time htime _
  cases htime
  exact .inr (by decide)

/-- A device that is lost after one second, comes back, is closed after ten idle
seconds, and cannot be opened again. -/
def lostAfterIdle : List SlotAction :=
  [.fail (seconds 1), .ensureOpen (seconds 2) (seconds 2) (.ok ()), .close (seconds 12),
   .ensureOpen (seconds 20) (seconds 20) (.error "no such device")]

/-- The old delay is doubled, although the device was open for ten seconds. -/
theorem lostAfterIdle_doubles :
    ∃ t log, run Slot.step (.start stereoParams 0) lostAfterIdle = .ok (t, log) ∧
      t.past = [.opened 0, .failed (seconds 1) 250_000_000, .opened (seconds 2),
        .closed (seconds 12), .failed (seconds 20) 500_000_000] ∧ ¬ Each Law t.past := by
  have hview : viewRun Slot.step (fun t _ => t.past) (.start stereoParams 0) lostAfterIdle =
      some [.opened 0, .failed (seconds 1) 250_000_000, .opened (seconds 2),
        .closed (seconds 12), .failed (seconds 20) 500_000_000] := by
    decide
  obtain ⟨t, log, hrun, hpast⟩ := run_of_viewRun hview
  refine ⟨t, log, hrun, hpast, ?_⟩
  intro hlaw
  have hlast := (hlaw [.opened 0, .failed (seconds 1) 250_000_000, .opened (seconds 2),
    .closed (seconds 12)] (.failed (seconds 20) 500_000_000) [] hpast).resets
  have hmin := hlast _ _ rfl [.opened 0, .failed (seconds 1) 250_000_000] (seconds 2)
    [.closed (seconds 12)] rfl (by decide) (by decide)
  exact absurd hmin (by decide)

end Oaat.Alsa
