/-
Oaat.Alsa.Delivery — what the device takes is what was queued.

One writer thread with its end of the channel. The output queues payloads and
at last calls `stop()`; other threads may change the shared state at any time.
`Scripted` is the device: a write takes at least one frame and no more than it
is given, a payload meets at most three recoverable errors and is recovered
from each, and every open succeeds. `Delivered` is the account that every step
keeps: bytes taken, bytes of the payload in hand, bytes queued.
-/
import Oaat.Alsa.Writer
import Mathlib.Algebra.Order.Ring.Nat

namespace Oaat.Alsa

open Oaat.Core Oaat.Endpoint Oaat.Lib

/-! ## A writer in its environment -/

/-- What happens to a writer. -/
inductive Act where
  /-- A payload is queued. -/
  | send (data : List UInt8)
  /-- `stop()` -/
  | stop
  /-- The output or another thread changes the shared state. -/
  | others (sh : Shared)
  /-- A step of the thread itself. -/
  | step (now : Nat) (answer : Answer)

def act (s : WriterThread × Shared) : Act → Except Blocked ((WriterThread × Shared) × List UInt8)
  | .send data =>
    if s.1.hungUp || s.1.isReturned || WRITE_QUEUE_PAYLOADS ≤ s.1.queue.length then .error .blocked
    else .ok ((s.1.send data, s.2), [])
  | .stop => .ok ((s.1.hangUp false, s.2), [])
  | .others sh => .ok ((s.1, sh), [])
  | .step now answer =>
    match s.1.step s.2 now answer with
    | .error e => .error e
    | .ok (t, sh, took) => .ok ((t, sh), took)

/-- The frames given to the `write` that the thread is in. -/
def framesGiven (t : WriterThread) (w : Write) : Nat :=
  (w.data.length - w.off) / t.slot.params.frameBytes

/-- The answers of a device that works. -/
def Scripted (s : WriterThread × Shared) : Act → Prop
  | .step _ (.opener r) => r = .ok ()
  | .step _ (.wrote r) =>
    match s.1.pc, r with
    | .writing w, .ok n => 1 ≤ n ∧ n ≤ framesGiven s.1 w
    | .writing w, .error e => (e = .xrun ∨ e = .suspended) ∧ w.recoveries < 3
    | _, _ => True
  | .step _ (.recovered r) => r = .ok ()
  | _ => True

/-- The payloads queued by a list of actions. -/
def sent (acts : List Act) : List (List UInt8) :=
  acts.flatMap fun
    | .send data => [data]
    | _ => []

/-- The steps of the thread among the actions. -/
def steps (acts : List Act) : Nat :=
  acts.countP fun
    | .step _ _ => true
    | _ => false

theorem frameBytes_pos (p : DeviceParams) : 0 < p.frameBytes := by
  unfold DeviceParams.frameBytes
  split <;> omega

theorem dvd_length_wholeFrames (n : Nat) (data : List UInt8) :
    n ∣ (wholeFrames n data).length := by
  rw [wholeFrames, List.length_take, Nat.min_eq_left (Nat.sub_le _ _)]
  exact Nat.dvd_sub_mod data.length

/-! ## The account -/

/-- What is still to be written of the payload in hand. -/
def inHand (t : WriterThread) : List UInt8 :=
  match t.pc with
  | .received data | .reopening data | .ready data => wholeFrames t.slot.params.frameBytes data
  | .writing w | .recovering w => w.data.drop w.off
  | _ => []

/-- The write in progress is at a frame boundary inside its payload. -/
def InProgress (params : DeviceParams) (w : Write) : Prop :=
  params.frameBytes ∣ w.data.length ∧ params.frameBytes ∣ w.off ∧ w.off < w.data.length ∧
    w.recoveries ≤ 3

/-- What is true wherever the thread stands. -/
def AtPc (params : DeviceParams) (t : WriterThread) : Prop :=
  match t.pc with
  | .reporting first => first = .ok ()
  | .ready _ => t.slot.dev = true
  | .writing w | .recovering w => t.slot.dev = true ∧ InProgress params w
  | .failing => False
  | .leaving | .closing _ | .returned => t.hungUp = true ∧ t.queue = []
  | _ => True

/-- Of what was sent, the device took `took`; the rest is in hand or queued. -/
structure Delivered (params : DeviceParams) (t : WriterThread) (payloads : List (List UInt8))
    (took : List UInt8) : Prop where
  params_eq : t.slot.params = params
  stop_eq : t.stop = false
  retryAt_eq : t.slot.retryAt = none
  atPc : AtPc params t
  account : took ++ inHand t ++ t.queue.flatMap (wholeFrames params.frameBytes) =
    payloads.flatMap (wholeFrames params.frameBytes)

section

variable {params : DeviceParams} {t t' : WriterThread} {sh sh' : Shared} {now : Nat}
  {answer : Answer} {payloads : List (List UInt8)} {took more : List UInt8}

/-- A step that moves the thread without touching payloads. -/
theorem Delivered.moves (h : Delivered params t payloads took) (hslot : t'.slot.params = params)
    (hstop : t'.stop = false) (hretry : t'.slot.retryAt = none) (hpc : AtPc params t')
    (hhand : inHand t' = inHand t) (hqueue : t'.queue = t.queue) :
    Delivered params t' payloads took :=
  ⟨hslot, hstop, hretry, hpc, by rw [hhand, hqueue, h.account]⟩

theorem inHand_written (t : WriterThread) (now : Nat) : inHand (t.written now) = [] := rfl

/-- Back at the head of the loop of `write_all`, the rest is in hand. -/
theorem inHand_writeLoop (hdev : t.slot.dev = true) (w : Write) :
    inHand (t.writeLoop w now) = w.data.drop w.off := by
  unfold WriterThread.writeLoop
  by_cases hlt : w.off < w.data.length
  · rw [if_pos ⟨hlt, hdev⟩]
    rfl
  · rw [if_neg (fun hw => hlt hw.1), List.drop_eq_nil_of_le (by omega), inHand_written]

theorem atPc_writeLoop (hdev : t.slot.dev = true) {w : Write}
    (hlen : params.frameBytes ∣ w.data.length) (hoff : params.frameBytes ∣ w.off)
    (hrec : w.recoveries ≤ 3) : AtPc params (t.writeLoop w now) := by
  unfold WriterThread.writeLoop
  by_cases hlt : w.off < w.data.length
  · rw [if_pos ⟨hlt, hdev⟩]
    exact ⟨hdev, hlen, hoff, hlt, hrec⟩
  · rw [if_neg (fun hw => hlt hw.1)]
    trivial

/-- The loop of `write_all` goes on with a write that leaves `w` to do. -/
theorem Delivered.writeLoop (h : Delivered params t payloads took) (hdev : t.slot.dev = true)
    {w : Write} (hlen : params.frameBytes ∣ w.data.length) (hoff : params.frameBytes ∣ w.off)
    (hrec : w.recoveries ≤ 3) (hhand : inHand t = more ++ w.data.drop w.off) :
    Delivered params (t.writeLoop w now) payloads (took ++ more) := by
  obtain ⟨hslot, hstop, hqueue, -, -⟩ := writeLoop_frame t w now
  refine ⟨?_, ?_, ?_, atPc_writeLoop hdev hlen hoff hrec, ?_⟩
  · rw [hslot, h.params_eq]
  · rw [hstop, h.stop_eq]
  · rw [hslot, h.retryAt_eq]
  · rw [inHand_writeLoop hdev, hqueue, ← h.account, hhand]
    simp only [List.append_assoc]

/-- The device took some frames. -/
theorem Delivered.takes (h : Delivered params t payloads took) {w : Write}
    (hpc : t.pc = .writing w) {n : Nat} :
    Delivered params
      (t.writeLoop { w with off := w.off + n * t.slot.params.frameBytes } now) payloads
      (took ++ (w.data.drop w.off).take (n * t.slot.params.frameBytes)) := by
  have hat := h.atPc
  simp only [AtPc, hpc] at hat
  obtain ⟨hdev, hlen, hoff, -, hrec⟩ := hat
  refine h.writeLoop hdev hlen ?_ hrec ?_
  · rw [h.params_eq]
    exact Nat.dvd_add hoff (Nat.dvd_mul_left _ _)
  · simp only [inHand, hpc, ← List.drop_drop, List.take_append_drop]

/-- **The step rule.** -/
theorem step_delivered (h : Delivered params t payloads took)
    (hscript : Scripted (t, sh) (.step now answer))
    (hstep : t.step sh now answer = .ok (t', sh', more)) :
    Delivered params t' payloads (took ++ more) := by
  have hat := h.atPc
  cases step_inv hstep with
  | opens hpc | reports hpc | starts hpc | idles hpc | waits hpc =>
    rw [List.append_nil]
    refine h.moves h.params_eq h.stop_eq ?_ ?_ ?_ rfl
    all_goals simp [DeviceSlot.opened, h.retryAt_eq, AtPc, inHand, hpc]
  | opensNot e hpc => simp [Scripted] at hscript
  | reportsNot e hpc => simp [AtPc, hpc] at hat
  | receives data queue hpc hq =>
    refine ⟨h.params_eq, h.stop_eq, h.retryAt_eq, trivial, ?_⟩
    simpa [inHand, hpc, hq, h.params_eq] using h.account
  | hangsUp hpc hq hup =>
    rw [List.append_nil]
    refine h.moves h.params_eq h.stop_eq h.retryAt_eq ⟨hup, hq⟩ ?_ rfl
    simp [inHand, hpc]
  | stops data hpc hstop => simp [h.stop_eq] at hstop
  | readies data hpc _ hdev =>
    rw [List.append_nil]
    refine h.moves h.params_eq h.stop_eq h.retryAt_eq hdev ?_ rfl
    simp [inHand, hpc]
  | drops data hpc _ _ hback => simp [DeviceSlot.backsOff, h.retryAt_eq] at hback
  | retries data hpc =>
    rw [List.append_nil]
    refine h.moves h.params_eq h.stop_eq h.retryAt_eq trivial ?_ rfl
    simp [inHand, hpc]
  | reopens data hpc =>
    rw [List.append_nil]
    refine h.moves h.params_eq h.stop_eq rfl rfl ?_ rfl
    simp [inHand, hpc, DeviceSlot.opened]
  | reopensNot data e hpc => simp [Scripted] at hscript
  | begins data active hpc =>
    simp only [AtPc, hpc] at hat
    have hmid : Delivered params { t with pauseGen := sh.pauseGen } payloads took :=
      h.moves h.params_eq h.stop_eq h.retryAt_eq (by simp only [AtPc, hpc, hat]) rfl rfl
    refine hmid.writeLoop hat ?_ (Nat.dvd_zero _) (Nat.zero_le _) ?_
    · rw [h.params_eq]
      exact dvd_length_wholeFrames _ _
    · simp [inHand, hpc]
  | takesNone w hpc => simp [Scripted, hpc] at hscript
  | takes w k hpc => exact h.takes hpc
  | breaks w e hpc hbad =>
    simp only [Scripted, hpc] at hscript
    rcases hbad with ⟨text, rfl⟩ | hmany
    · simp at hscript
    · omega
  | halts w e n hpc _ hfew =>
    simp only [AtPc, hpc] at hat
    obtain ⟨hdev, hlen, hoff, hlt, -⟩ := hat
    rw [List.append_nil]
    refine h.moves h.params_eq h.stop_eq h.retryAt_eq ⟨hdev, hlen, hoff, hlt, hfew⟩ ?_ rfl
    simp [inHand, hpc]
  | recovers w hpc =>
    simp only [AtPc, hpc] at hat
    obtain ⟨hdev, hlen, hoff, -, hrec⟩ := hat
    exact h.writeLoop hdev hlen hoff hrec (by simp [inHand, hpc])
  | recoversNot w e hpc => simp [Scripted] at hscript
  | fails hpc => simp [AtPc, hpc] at hat
  | idleCloses hpc =>
    rw [List.append_nil]
    refine h.moves h.params_eq h.stop_eq h.retryAt_eq trivial ?_ rfl
    simp [inHand, hpc]
  | leaves hpc | leavesClosed hpc | closes _ hpc =>
    simp only [AtPc, hpc] at hat
    rw [List.append_nil]
    refine h.moves h.params_eq h.stop_eq h.retryAt_eq hat ?_ rfl
    simp [inHand, hpc]

/-- An empty payload is delivered at once. -/
theorem Delivered.skip (h : Delivered params t payloads took) :
    Delivered params t (payloads ++ [[]]) took := by
  refine ⟨h.params_eq, h.stop_eq, h.retryAt_eq, h.atPc, ?_⟩
  rw [h.account, List.flatMap_append]
  simp [wholeFrames]

/-- A thread returns only after its sender was dropped. -/
theorem Delivered.isReturned_eq (h : Delivered params t payloads took) (hup : t.hungUp = false) :
    t.isReturned = false := by
  have hat := h.atPc
  unfold WriterThread.isReturned
  split
  next hpc =>
    rw [AtPc, hpc] at hat
    rw [hat.1] at hup
    cases hup
  next => rfl

theorem act_step_inv (hact : act (t, sh) (.step now answer) = .ok ((t', sh'), more)) :
    t.step sh now answer = .ok (t', sh', more) := by
  simp only [act] at hact
  cases hstep : t.step sh now answer with
  | error e => simp [hstep] at hact
  | ok r =>
    simp only [hstep, Except.ok.injEq, Prod.mk.injEq] at hact
    obtain ⟨⟨rfl, rfl⟩, rfl⟩ := hact
    rfl

theorem sent_cons (a : Act) (acts : List Act) : sent (a :: acts) = sent [a] ++ sent acts := by
  simp [sent]

theorem atPc_send (hup : t.hungUp = false) (h : AtPc params t) (data : List UInt8) :
    AtPc params (t.send data) := by
  unfold AtPc at h ⊢
  simp only [WriterThread.send]
  cases hpc : t.pc <;> simp_all

theorem atPc_hangUp (h : AtPc params t) : AtPc params (t.hangUp false) := by
  unfold AtPc at h ⊢
  simp only [WriterThread.hangUp]
  cases hpc : t.pc <;> simp_all

theorem act_delivered {a : Act} (h : Delivered params t payloads took)
    (hscript : Scripted (t, sh) a) (hact : act (t, sh) a = .ok ((t', sh'), more)) :
    Delivered params t' (payloads ++ sent [a]) (took ++ more) := by
  cases a with
  | send data =>
    simp only [act] at hact
    split at hact
    next => cases hact
    next hopen =>
      simp only [Except.ok.injEq, Prod.mk.injEq] at hact
      obtain ⟨⟨rfl, rfl⟩, rfl⟩ := hact
      have hup : t.hungUp = false := by
        simp only [Bool.or_eq_true, not_or, Bool.not_eq_true] at hopen
        exact hopen.1.1
      refine ⟨h.params_eq, h.stop_eq, h.retryAt_eq, atPc_send hup h.atPc data, ?_⟩
      have hacc := congrArg (· ++ wholeFrames params.frameBytes data) h.account
      simpa [sent, inHand, WriterThread.send] using hacc
  | stop =>
    simp only [act, Except.ok.injEq, Prod.mk.injEq] at hact
    obtain ⟨⟨rfl, rfl⟩, rfl⟩ := hact
    refine ⟨h.params_eq, rfl, h.retryAt_eq, atPc_hangUp h.atPc, ?_⟩
    simpa [sent, inHand, WriterThread.hangUp] using h.account
  | others sh₁ =>
    simp only [act, Except.ok.injEq, Prod.mk.injEq] at hact
    obtain ⟨⟨rfl, rfl⟩, rfl⟩ := hact
    simpa [sent] using h
  | step now answer =>
    simpa [sent] using step_delivered h hscript (act_step_inv hact)

/-- **The account of a run.** -/
theorem run_delivered {acts : List Act} (h : Delivered params t payloads took)
    (hscript : Along act Scripted (t, sh) acts)
    (hrun : run act (t, sh) acts = .ok ((t', sh'), more)) :
    Delivered params t' (payloads ++ sent acts) (took ++ more) := by
  induction acts generalizing t sh payloads took more with
  | nil =>
    simp only [run_nil, Except.ok.injEq, Prod.mk.injEq] at hrun
    obtain ⟨⟨rfl, rfl⟩, rfl⟩ := hrun
    simpa [sent] using h
  | cons a acts ih =>
    obtain ⟨⟨t₁, sh₁⟩, more₁, more₂, hact, hrest, rfl⟩ := run_cons_inv hrun
    have h₁ := act_delivered h hscript.1 hact
    have hall := ih h₁ (hscript.2 _ _ hact) hrest
    rwa [List.append_assoc, List.append_assoc, ← sent_cons] at hall

end

/-! ## The end -/

/-- Steps that a payload may still need. -/
def payloadWork (data : List UInt8) : Nat := data.length + 12

/-- A bound on the steps left until the thread returns. -/
def work (t : WriterThread) : Nat :=
  (t.queue.map payloadWork).sum +
    match t.pc with
    | .opening => 6
    | .reporting _ => 5
    | .starting => 4
    | .receiving => 3
    | .received data => data.length + 14
    | .reopening data => data.length + 13
    | .ready data => data.length + 12
    | .writing w => (w.data.length - w.off) + 2 * (3 - w.recoveries) + 4
    | .recovering w => (w.data.length - w.off) + 2 * (3 - w.recoveries) + 5
    | .failing => 4
    | .idleClosing => 4
    | .leaving => 2
    | .closing _ => 1
    | .returned => 0

section

variable {params : DeviceParams} {t t' : WriterThread} {sh sh' : Shared} {now : Nat}
  {answer : Answer} {payloads : List (List UInt8)} {took more : List UInt8}

theorem work_writeLoop_le (t : WriterThread) (w : Write) (now : Nat) :
    work (t.writeLoop w now) ≤ (t.queue.map payloadWork).sum +
      ((w.data.length - w.off) + 2 * (3 - w.recoveries) + 4) := by
  unfold WriterThread.writeLoop
  split
  · exact Nat.le_refl _
  · simp only [work, WriterThread.written]
    omega

theorem length_wholeFrames_le (n : Nat) (data : List UInt8) :
    (wholeFrames n data).length ≤ data.length := by
  rw [wholeFrames, List.length_take]
  omega

/-- The thread does not wait for a payload that may never come. -/
def Busy (t : WriterThread) : Prop := t.pc = .receiving → t.queue = [] → t.hungUp = true

theorem busy_of_hungUp (hup : t.hungUp = true) : Busy t := fun _ _ => hup

/-- Every step of a thread that does not wait leaves less to do. -/
theorem step_work (h : Delivered params t payloads took) (hbusy : Busy t)
    (hscript : Scripted (t, sh) (.step now answer))
    (hstep : t.step sh now answer = .ok (t', sh', more)) :
    work t' < work t := by
  have hat := h.atPc
  cases step_inv hstep with
  | opens hpc | reports hpc | starts hpc | hangsUp hpc | readies _ hpc | retries _ hpc
  | reopens _ hpc | idleCloses hpc | leaves hpc | leavesClosed hpc | closes _ hpc =>
    simp only [work, hpc]
    omega
  | opensNot e hpc | reopensNot _ e hpc => simp [Scripted] at hscript
  | recoversNot w e hpc => simp [Scripted] at hscript
  | reportsNot e hpc => simp [AtPc, hpc] at hat
  | receives data queue hpc hq =>
    simp only [work, hpc, hq, List.map_cons, List.sum_cons, payloadWork]
    omega
  | idles hpc hq hopen | waits hpc hq hopen => simp [hbusy hpc hq] at hopen
  | stops data hpc hstop => simp [h.stop_eq] at hstop
  | drops data hpc _ _ hback => simp [DeviceSlot.backsOff, h.retryAt_eq] at hback
  | begins data active hpc =>
    refine Nat.lt_of_le_of_lt (work_writeLoop_le _ _ _) ?_
    have hle := length_wholeFrames_le t.slot.params.frameBytes data
    simp only [work, hpc]
    omega
  | takesNone w hpc => simp [Scripted, hpc] at hscript
  | takes w k hpc =>
    simp only [AtPc, hpc] at hat
    obtain ⟨-, -, -, hlt, -⟩ := hat
    have hpos : 0 < (k + 1) * t.slot.params.frameBytes :=
      Nat.mul_pos (Nat.succ_pos k) (frameBytes_pos _)
    refine Nat.lt_of_le_of_lt (work_writeLoop_le _ _ _) ?_
    simp only [work, hpc]
    omega
  | breaks w e hpc hbad =>
    simp only [Scripted, hpc] at hscript
    rcases hbad with ⟨text, rfl⟩ | hmany
    · simp at hscript
    · omega
  | halts w e n hpc _ hfew =>
    simp only [work, hpc]
    omega
  | recovers w hpc =>
    refine Nat.lt_of_le_of_lt (work_writeLoop_le _ _ _) ?_
    simp only [work, hpc]
    omega
  | fails hpc => simp [AtPc, hpc] at hat

/-- A frame of a write in progress can be taken. -/
theorem one_le_framesGiven {w : Write} (hparams : t.slot.params = params)
    (h : InProgress params w) : 1 ≤ framesGiven t w := by
  obtain ⟨hlen, hoff, hlt, -⟩ := h
  rw [framesGiven, hparams]
  have hle := Nat.le_of_dvd (by omega) (Nat.dvd_sub hlen hoff)
  exact (Nat.one_le_div_iff (frameBytes_pos params)).mpr hle

/-- A thread that does not wait and has not returned can go on. -/
theorem step_enabled (h : Delivered params t payloads took) (hbusy : Busy t)
    (hend : t.pc ≠ .returned) (sh : Shared) (now : Nat) :
    ∃ answer, Scripted (t, sh) (.step now answer) ∧ ∃ r, t.step sh now answer = .ok r := by
  have hat := h.atPc
  cases hpc : t.pc with
  | opening => exact ⟨.opener (.ok ()), rfl, by simp [WriterThread.step, hpc]⟩
  | reopening data => exact ⟨.opener (.ok ()), rfl, by simp [WriterThread.step, hpc]⟩
  | reporting first =>
    simp only [AtPc, hpc] at hat
    subst hat
    exact ⟨.go, trivial, by simp [WriterThread.step, hpc]⟩
  | starting | ready _ | idleClosing | closing _ =>
    exact ⟨.go, trivial, by simp [WriterThread.step, hpc]⟩
  | receiving =>
    refine ⟨.go, trivial, ?_⟩
    cases hq : t.queue with
    | nil => simp [WriterThread.step, hpc, hq, hbusy hpc hq]
    | cons data queue => simp [WriterThread.step, hpc, hq]
  | received data =>
    refine ⟨.go, trivial, ?_⟩
    simp only [WriterThread.step, hpc]
    split
    · exact ⟨_, rfl⟩
    · split
      · exact ⟨_, rfl⟩
      · split <;> exact ⟨_, rfl⟩
  | writing w =>
    simp only [AtPc, hpc] at hat
    refine ⟨.wrote (.ok 1), ?_, by simp [WriterThread.step, hpc]⟩
    simpa [Scripted, hpc] using one_le_framesGiven h.params_eq hat.2
  | recovering w => exact ⟨.recovered (.ok ()), rfl, by simp [WriterThread.step, hpc]⟩
  | failing => simp [AtPc, hpc] at hat
  | leaving =>
    refine ⟨.go, trivial, ?_⟩
    simp only [WriterThread.step, hpc]
    split <;> exact ⟨_, rfl⟩
  | returned => exact absurd hpc hend

theorem step_hungUp (hstep : t.step sh now answer = .ok (t', sh', more)) :
    t'.hungUp = t.hungUp := by
  cases step_inv hstep with
  | begins | takes | recovers => exact (writeLoop_frame _ _ _).2.2.2.1
  | _ => rfl

theorem act_hungUp {a : Act} (hup : t.hungUp = true)
    (hact : act (t, sh) a = .ok ((t', sh'), more)) : t'.hungUp = true := by
  cases a with
  | send data => simp [act, hup] at hact
  | stop | others =>
    simp only [act, Except.ok.injEq, Prod.mk.injEq] at hact
    obtain ⟨⟨rfl, rfl⟩, rfl⟩ := hact
    first | rfl | exact hup
  | step now answer => exact (step_hungUp (act_step_inv hact)).trans hup

theorem act_work {a : Act} (h : Delivered params t payloads took) (hup : t.hungUp = true)
    (hscript : Scripted (t, sh) a) (hact : act (t, sh) a = .ok ((t', sh'), more)) :
    steps [a] + work t' ≤ work t := by
  cases a with
  | send data => simp [act, hup] at hact
  | stop =>
    simp only [act, Except.ok.injEq, Prod.mk.injEq] at hact
    obtain ⟨⟨rfl, rfl⟩, rfl⟩ := hact
    exact Nat.le_of_eq (Nat.zero_add _)
  | others sh₁ =>
    simp only [act, Except.ok.injEq, Prod.mk.injEq] at hact
    obtain ⟨⟨rfl, rfl⟩, rfl⟩ := hact
    exact Nat.le_of_eq (Nat.zero_add _)
  | step now answer =>
    have hlt := step_work h (busy_of_hungUp hup) hscript (act_step_inv hact)
    simp only [steps, List.countP_singleton, if_true]
    omega

/-- After `stop()` a run takes no more steps than there is work. -/
theorem run_work {acts : List Act} (h : Delivered params t payloads took) (hup : t.hungUp = true)
    (hscript : Along act Scripted (t, sh) acts)
    (hrun : run act (t, sh) acts = .ok ((t', sh'), more)) : steps acts + work t' ≤ work t := by
  induction acts generalizing t sh payloads took more with
  | nil =>
    simp only [run_nil, Except.ok.injEq, Prod.mk.injEq] at hrun
    obtain ⟨⟨rfl, rfl⟩, rfl⟩ := hrun
    exact Nat.le_of_eq (Nat.zero_add _)
  | cons a acts ih =>
    obtain ⟨⟨t₁, sh₁⟩, more₁, more₂, hact, hrest, rfl⟩ := run_cons_inv hrun
    have hfirst := act_work h hup hscript.1 hact
    have hlater := ih (act_delivered h hscript.1 hact) (act_hungUp hup hact)
      (hscript.2 _ _ hact) hrest
    have hsteps : steps (a :: acts) = steps [a] + steps acts := by
      simp [steps, List.countP_cons, Nat.add_comm]
    omega

/-- A run that holds `stop()` ends with the sender dropped. -/
theorem run_hungUp {acts : List Act} (hstop : t.hungUp = true ∨ .stop ∈ acts)
    (hrun : run act (t, sh) acts = .ok ((t', sh'), more)) : t'.hungUp = true := by
  induction acts generalizing t sh more with
  | nil =>
    simp only [run_nil, Except.ok.injEq, Prod.mk.injEq] at hrun
    obtain ⟨⟨rfl, rfl⟩, rfl⟩ := hrun
    simpa using hstop
  | cons a acts ih =>
    obtain ⟨⟨t₁, sh₁⟩, more₁, more₂, hact, hrest, rfl⟩ := run_cons_inv hrun
    refine ih ?_ hrest
    rcases hstop with hup | hmem
    · exact .inl (act_hungUp hup hact)
    · rcases List.mem_cons.mp hmem with rfl | hmem
      · simp only [act, Except.ok.injEq, Prod.mk.injEq] at hact
        obtain ⟨⟨rfl, rfl⟩, rfl⟩ := hact
        exact .inl rfl
      · exact .inr hmem

end

/-- A new writer has delivered nothing. -/
theorem delivered_spawn (params : DeviceParams) (idleClose : Nat) :
    Delivered params (.spawn params idleClose) [] [] :=
  ⟨rfl, rfl, rfl, trivial, rfl⟩

/-- **The writer loses and duplicates nothing.** Take a writer with any
parameters, any payloads queued in any order with its steps, and a device that
follows the script. When the writer has returned, the device has taken the
whole frames of every payload, in order. And `stop()` makes it return: from
then on only so many steps are left, and until the last another is possible. -/
theorem writer_delivers {params : DeviceParams} {idleClose : Nat} {sh₀ : Shared} {acts : List Act}
    {t : WriterThread} {sh : Shared} {took : List UInt8}
    (hscript : Along act Scripted (.spawn params idleClose, sh₀) acts)
    (hrun : run act (.spawn params idleClose, sh₀) acts = .ok ((t, sh), took)) :
    (t.pc = .returned → took = (sent acts).flatMap (wholeFrames params.frameBytes)) ∧
    (.stop ∈ acts →
      (t.pc ≠ .returned → ∀ now, ∃ answer, Scripted (t, sh) (.step now answer) ∧
        ∃ r, act (t, sh) (.step now answer) = .ok r) ∧
      ∀ more s' took', Along act Scripted (t, sh) more → run act (t, sh) more = .ok (s', took') →
        steps more ≤ work t) := by
  have h := run_delivered (delivered_spawn params idleClose) hscript hrun
  rw [List.nil_append, List.nil_append] at h
  refine ⟨?_, ?_⟩
  · intro hend
    have hat := h.atPc
    simp only [AtPc, hend] at hat
    have hacc := h.account
    rwa [hat.2, List.flatMap_nil, List.append_nil, inHand, hend, List.append_nil] at hacc
  · intro hstop
    have hup := run_hungUp (.inr hstop) hrun
    refine ⟨?_, ?_⟩
    · intro hend now
      obtain ⟨answer, hanswer, r, hr⟩ := step_enabled h (busy_of_hungUp hup) hend sh now
      exact ⟨answer, hanswer, ((r.1, r.2.1), r.2.2), by simp only [act, hr]⟩
    · intro more s' took' hmore hrun'
      have hle := run_work h hup hmore hrun'
      omega

/-- 16-bit stereo on the default device. -/
def stereoParams : DeviceParams :=
  { device := "default", format := .s16Le, rate := 48000, channels := 2 }

/-- Two frames and a rest go out around an underrun; the device is closed for
lack of audio and reopened for one more frame. -/
def recoveredRun : List Act :=
  [.step 0 (.opener (.ok ())), .step 0 .go, .send [1, 0, 2, 0, 3, 0, 4, 0, 9], .step 0 .go,
   .step 0 .go, .step 0 .go, .step 0 .go, .step 0 (.wrote (.ok 1)), .step 0 (.wrote (.error .xrun)),
   .step 0 (.recovered (.ok ())), .step 0 (.wrote (.ok 1)), .step 1 .timeout, .step 1 .go,
   .send [5, 0, 6, 0], .stop, .step 2 .go, .step 2 .go, .step 2 (.opener (.ok ())), .step 2 .go,
   .step 2 (.wrote (.ok 1)), .step 2 .go, .step 2 .go, .step 2 .go]

instance (s : WriterThread × Shared) (a : Act) : Decidable (Scripted s a) := by
  unfold Scripted
  split
  · infer_instance
  · split <;> infer_instance
  · infer_instance
  · infer_instance

theorem recoveredRun_delivers :
    (run act (.spawn stereoParams IDLE_CLOSE, .default) recoveredRun).map
      (fun r => (r.1.1.isReturned, r.1.2.underruns)) = .ok (true, 1) ∧
    ∀ t sh took, run act (.spawn stereoParams IDLE_CLOSE, .default) recoveredRun =
        .ok ((t, sh), took) → t.pc = .returned →
      took = [1, 0, 2, 0, 3, 0, 4, 0, 5, 0, 6, 0] := by
  refine ⟨by decide +kernel, ?_⟩
  intro t sh took hrun hend
  exact (writer_delivers (by decide +kernel) hrun).1 hend

end Oaat.Alsa
