/-
Oaat.Alsa.OpenFlag — what `device_open()` says, and of whom.

All writers of an output store into one flag, also those that were left
behind. Every store goes with a device: a writer that stores `true` has just
opened its own, one that stores `false` has just closed it. So the flag is right
about the current writer as long as nobody else stores against it, and as long
as no writer is left behind with its device open. `Undisturbed` is that
condition, `Agrees` the invariant.
-/
import Oaat.Alsa.Writer
import Oaat.Endpoint.AlsaOutput

namespace Oaat.Alsa

open Oaat.Core Oaat.Endpoint Oaat.Lib

/-! ## What the flag should say -/

/-- The thread is closing its device. -/
def isClosing : Pc → Bool
  | .failing | .idleClosing | .closing _ => true
  | _ => false

/-- The writer of the output, or of the call in progress. -/
def owner (s : Alsa) : Option Nat :=
  match s.caller with
  | .idle => s.output.writer
  | .stopping id _ => some id
  | .opening id _ => some id

def ownerThread (s : Alsa) : Option WriterThread := (owner s).bind fun id => s.threads[id]?

/-- That writer has its device open. -/
def holds (s : Alsa) : Bool := (ownerThread s).any fun t => t.slot.dev

/-- That writer is closing its device. -/
def closes (s : Alsa) : Bool := (ownerThread s).any fun t => isClosing t.pc

/-- That writer is opening its device. -/
def opens (s : Alsa) : Bool := (ownerThread s).any fun t => t.pc.isOpening

/-- Whenever it can be called and the current writer is neither opening nor
closing, `device_open()` says whether there is a current writer with an open
device. -/
def Truthful (s : Alsa) : Prop :=
  s.isIdle = true → opens s = false → closes s = false →
    (s.deviceOpen = true ↔
      ∃ id t, s.output.writer = some id ∧ s.threads[id]? = some t ∧ t.slot.dev = true)

/-- No call gives up on a writer while the flag is set. A writer left behind
completes an open only while the current writer has its device open, and a
close only while the current writer has none open or is closing it itself. -/
def Undisturbed (s : Alsa) : AlsaAction → Prop
  | .giveUp => s.shared.isOpen = false
  | .thread id _ answer =>
    owner s = some id ∨ ∀ t ∈ s.threads[id]?,
      (t.completesOpen answer = true → holds s = true) ∧
      (isClosing t.pc = true → holds s = false ∨ closes s = true)
  | _ => True

/-! ## One thread -/

/-- What the place where a thread stands says of its device. -/
def DevAtPc (t : WriterThread) : Prop :=
  match t.pc with
  | .opening | .reporting (.error _) | .reopening _ | .returned => t.slot.dev = false
  | .ready _ | .writing _ | .recovering _ | .failing | .idleClosing | .closing _ =>
    t.slot.dev = true
  | _ => True

structure Consistent (t : WriterThread) : Prop where
  dev : DevAtPc t
  /-- A thread that reported a failure has returned. -/
  failed : ∀ e, t.report = some (.error e) → t.pc = .returned

section

variable {t t' : WriterThread} {sh sh' : Shared} {now : Nat} {answer : Answer} {took : List UInt8}

theorem consistent_spawn (params : DeviceParams) (idleClose : Nat) :
    Consistent (.spawn params idleClose) :=
  ⟨rfl, by simp [WriterThread.spawn]⟩

theorem Consistent.hangUp (h : Consistent t) (discard : Bool) : Consistent (t.hangUp discard) :=
  ⟨h.dev, h.failed⟩

theorem Consistent.send (h : Consistent t) (data : List UInt8) : Consistent (t.send data) :=
  ⟨h.dev, h.failed⟩

/-- How a step of a thread touches the flag: not at all, or it has opened its
device, or it has closed it. -/
theorem step_flag (h : Consistent t) (hstep : t.step sh now answer = .ok (t', sh', took)) :
    (sh'.isOpen = sh.isOpen ∧ t'.slot.dev = t.slot.dev ∧ isClosing t.pc = false ∧
      t.completesOpen answer = false) ∨
    (sh'.isOpen = true ∧ t'.slot.dev = true ∧ t.completesOpen answer = true) ∨
    (sh'.isOpen = false ∧ t'.slot.dev = false ∧ isClosing t.pc = true) := by
  have hdev := h.dev
  cases step_inv hstep with
  | opens hpc | reopens _ hpc =>
    refine .inr (.inl ⟨rfl, rfl, ?_⟩)
    simp [WriterThread.completesOpen, Pc.isOpening, hpc]
  | fails hpc | idleCloses hpc | closes _ hpc =>
    exact .inr (.inr ⟨rfl, rfl, by simp [isClosing, hpc]⟩)
  | leavesClosed hpc hno =>
    exact .inl ⟨rfl, hno.symm, by simp [isClosing, hpc], rfl⟩
  | begins _ _ hpc | takes _ _ hpc | recovers _ hpc =>
    refine .inl ⟨rfl, ?_, by simp [isClosing, hpc], rfl⟩
    rw [(writeLoop_frame _ _ _).1]
  | opensNot _ hpc | reports hpc | reportsNot _ hpc | starts hpc | receives _ _ hpc | hangsUp hpc
  | idles hpc | waits hpc | stops _ hpc | readies _ hpc | drops _ hpc | retries _ hpc
  | reopensNot _ _ hpc | takesNone _ hpc | breaks _ _ hpc | halts _ _ _ hpc | recoversNot _ _ hpc
  | leaves hpc =>
    exact .inl ⟨rfl, rfl, by simp [isClosing, hpc], rfl⟩

theorem devAtPc_writeLoop (hdev : t.slot.dev = true) (w : Write) :
    DevAtPc (t.writeLoop w now) := by
  unfold WriterThread.writeLoop
  split
  · exact hdev
  · trivial

theorem step_consistent (h : Consistent t)
    (hstep : t.step sh now answer = .ok (t', sh', took)) : Consistent t' := by
  have hdev := h.dev
  refine ⟨?_, ?_⟩
  · cases step_inv hstep with
    | opens | reports | starts | receives | hangsUp | stops | drops | reopensNot | takesNone
    | fails | idleCloses | leavesClosed | closes => trivial
    | waits => exact hdev
    | idles _ _ _ hyes | readies _ _ _ hyes | leaves _ hyes => exact hyes
    | retries _ _ _ hno => exact hno
    | reopens => rfl
    | opensNot _ hpc | reportsNot _ hpc | breaks _ _ hpc | halts _ _ _ hpc | recoversNot _ _ hpc =>
      simpa [DevAtPc, hpc] using hdev
    | begins _ _ hpc | takes _ _ hpc | recovers _ hpc =>
      simp only [DevAtPc, hpc] at hdev
      exact devAtPc_writeLoop (by exact hdev) _
  · intro e he
    -- a thread that reported a failure takes no more steps
    have hreport : t.report = some (.error e) → False := by
      intro hr
      have hend := h.failed e hr
      simp [WriterThread.step, hend] at hstep
    cases step_inv hstep with
    | reports => simp at he
    | reportsNot => rfl
    | begins | takes | recovers =>
      rw [(writeLoop_frame _ _ _).2.2.2.2] at he
      exact absurd he hreport
    | _ => exact absurd he hreport

end

/-! ## The output -/

/-- The flag is right about the writer of the output or of the call in
progress, unless that writer is closing its device. -/
structure Agrees (s : Alsa) : Prop where
  threads : ∀ t ∈ s.threads, Consistent t
  /-- A call that waits has taken the writer. -/
  taken : s.isIdle = false → s.output.writer = none
  flag : closes s = false → s.shared.isOpen = holds s

section

variable {s s' : Alsa} {conv : Conversions} {id now : Nat} {answer : Answer}

/-- Without a writer the flag is to be clear. -/
theorem agrees_of_clear (hthreads : ∀ t ∈ s.threads, Consistent t) (hidle : s.isIdle = true)
    (hwriter : s.output.writer = none) (hflag : s.shared.isOpen = false) : Agrees s := by
  have howner : ownerThread s = none := by
    unfold Alsa.isIdle at hidle
    unfold ownerThread owner
    cases hc : s.caller <;> simp_all
  refine ⟨hthreads, fun h => by simp [hidle] at h, ?_⟩
  simp [holds, howner, hflag]

theorem configured_writer (o : AlsaDirectOutput) (cfg : Config) :
    (o.configured cfg).1.writer = o.writer := by
  unfold AlsaDirectOutput.configured
  dsimp only
  split <;> rfl

/-- `configure_with_device` starts a writer, or returns without one. -/
theorem agrees_configure (hthreads : ∀ t ∈ s.threads, Consistent t)
    (hwriter : s.output.writer = none) (hflag : s.shared.isOpen = false) (cfg : Config)
    (play : Bool) : Agrees (s.configure cfg play).1 := by
  have hkeep := configured_writer s.output cfg
  unfold Alsa.configure
  split
  next output e hout =>
    rw [hout, hwriter] at hkeep
    refine agrees_of_clear hthreads rfl ?_ hflag
    simp only [Alsa.configureReturns]
    split <;> exact hkeep
  next output params hout =>
    rw [hout, hwriter] at hkeep
    refine ⟨?_, fun _ => hkeep, ?_⟩
    · intro t ht
      rcases List.mem_append.mp ht with ht | ht
      · exact hthreads t ht
      · rw [List.mem_singleton.mp ht]
        exact consistent_spawn params s.idleClose
    · intro _
      simp [holds, ownerThread, owner, hflag, WriterThread.spawn, DeviceSlot.new]

theorem agrees_shutdownReturns (hthreads : ∀ t ∈ s.threads, Consistent t)
    (hwriter : s.output.writer = none) (hflag : s.shared.isOpen = false) (after : After) :
    Agrees (s.shutdownReturns after).1 := by
  cases after with
  | leave => exact agrees_of_clear hthreads rfl hwriter hflag
  | configure cfg play => exact agrees_configure hthreads hwriter hflag cfg play

theorem owner_of_idle (hidle : s.isIdle = true) : owner s = s.output.writer := by
  unfold Alsa.isIdle at hidle
  unfold owner
  cases hc : s.caller <;> simp_all

/-- What the invariant reads of a state. -/
theorem Agrees.of_same (h : Agrees s) (hthreads : ∀ t ∈ s'.threads, Consistent t)
    (htaken : s'.isIdle = false → s'.output.writer = none)
    (hflag : s'.shared.isOpen = s.shared.isOpen)
    (hcloses : closes s' = closes s) (hholds : holds s' = holds s) : Agrees s' :=
  ⟨hthreads, htaken, by rw [hcloses, hflag, hholds]; exact h.flag⟩

/-- Without a writer the flag is clear. -/
theorem Agrees.clear (h : Agrees s) (howner : ownerThread s = none) : s.shared.isOpen = false := by
  have hflag := h.flag (by simp [closes, howner])
  simpa [holds, howner] using hflag

theorem agrees_shutdown (h : Agrees s) (hidle : s.isIdle = true) (discard : Bool) (after : After) :
    Agrees (s.shutdown discard after).1 := by
  have howner := owner_of_idle hidle
  unfold Alsa.shutdown
  dsimp only
  split
  next hw =>
    refine agrees_shutdownReturns ?_ ?_ ?_ after
    · exact h.threads
    · exact hw
    · exact h.clear (by rw [ownerThread, howner, hw, Option.bind_none])
  next id hw =>
    have hthread : ownerThread s = s.threads[id]? := by
      rw [ownerThread, howner, hw, Option.bind_some]
    have hget : (s.threads.modify id (·.hangUp discard))[id]? =
        (s.threads[id]?).map (·.hangUp discard) := by
      simp
    refine h.of_same ?_ (fun _ => rfl) rfl ?_ ?_
    · intro t ht
      obtain ⟨i, hi, rfl⟩ := List.getElem_of_mem ht
      rw [List.getElem_modify]
      split
      · exact (h.threads _ (List.getElem_mem _)).hangUp discard
      · exact h.threads _ (List.getElem_mem _)
    · rw [closes, closes, hthread, ownerThread, owner, Option.bind_some, hget, Option.any_map]
      rfl
    · rw [holds, holds, hthread, ownerThread, owner, Option.bind_some, hget, Option.any_map]
      rfl

/-- The threads after one of them moved. -/
theorem consistent_set (h : Agrees s) {t' : WriterThread} (ht' : Consistent t') :
    ∀ t ∈ s.threads.set id t', Consistent t := by
  intro t ht
  rcases List.mem_or_eq_of_mem_set ht with ht | rfl
  · exact h.threads t ht
  · exact ht'

/-- Another thread than the owner moved. -/
theorem ownerThread_set_of_ne (hother : owner s ≠ some id) (t' : WriterThread) :
    (owner s).bind (fun i => (s.threads.set id t')[i]?) = ownerThread s := by
  unfold ownerThread
  cases ho : owner s with
  | none => rfl
  | some i =>
    rw [ho] at hother
    have hne : id ≠ i := fun heq => hother (by rw [heq])
    rw [Option.bind_some, Option.bind_some, List.getElem?_set_ne hne]

/-- The owner moved. -/
theorem ownerThread_set (howner : owner s = some id) {t : WriterThread}
    (hget : s.threads[id]? = some t) (t' : WriterThread) :
    (owner s).bind (fun i => (s.threads.set id t')[i]?) = some t' := by
  obtain ⟨hlt, -⟩ := List.getElem?_eq_some_iff.mp hget
  rw [howner, Option.bind_some, List.getElem?_set_self hlt]

/-- A thread that keeps its place and its device moves nothing. -/
theorem agrees_set (h : Agrees s) {t t' : WriterThread} (hget : s.threads[id]? = some t)
    (ht' : Consistent t') (hpc : t'.pc = t.pc) (hdev : t'.slot.dev = t.slot.dev) :
    Agrees { s with threads := s.threads.set id t' } := by
  by_cases howner : owner s = some id
  · have hold : ownerThread s = some t := by rw [ownerThread, howner, Option.bind_some, hget]
    have hnew : ownerThread { s with threads := s.threads.set id t' } = some t' :=
      ownerThread_set howner hget t'
    refine h.of_same (consistent_set h ht') h.taken rfl ?_ ?_
    · rw [closes, closes, hold, hnew, Option.any_some, Option.any_some, hpc]
    · rw [holds, holds, hold, hnew, Option.any_some, Option.any_some, hdev]
  · have hsame : ownerThread { s with threads := s.threads.set id t' } = ownerThread s :=
      ownerThread_set_of_ne howner t'
    refine h.of_same (consistent_set h ht') h.taken rfl ?_ ?_
    · rw [closes, closes, hsame]
    · rw [holds, holds, hsame]

theorem agrees_sendBytes (h : Agrees s) {bytes : List UInt8} {frames : Nat} {out : List AlsaEvent}
    (hstep : s.sendBytes bytes frames = .ok (s', out)) : Agrees s' := by
  unfold Alsa.sendBytes at hstep
  split at hstep
  next =>
    cases hstep
    exact h
  next id t hget =>
    have hthread : s.threads[id]? = some t := by
      simp only [Option.bind_eq_some_iff, Option.map_eq_some_iff, Prod.mk.injEq] at hget
      obtain ⟨i, -, u, hu, rfl, rfl⟩ := hget
      exact hu
    split at hstep
    next =>
      cases hstep
      exact h
    next =>
      split at hstep
      next => cases hstep
      next =>
        cases hstep
        exact agrees_set h hthread ((h.threads t (List.mem_of_getElem? hthread)).send bytes) rfl rfl

theorem agrees_writeAudio (h : Agrees s) {data : List UInt8} {out : List AlsaEvent}
    (hstep : s.writeAudio conv data = .ok (s', out)) : Agrees s' := by
  have hwriter : (s.output.deviceBytes conv data).1.writer = s.output.writer := by
    obtain ⟨flacStream, hout⟩ := deviceBytes_output conv s.output data
    rw [hout]
  unfold Alsa.writeAudio at hstep
  split at hstep
  next =>
    cases hstep
    exact h
  next =>
    generalize s.output.deviceBytes conv data = r at hstep hwriter
    obtain ⟨output, bytes, frames⟩ := r
    dsimp only at hstep hwriter
    have hmid : Agrees { s with output } := by
      refine h.of_same h.threads ?_ rfl ?_ ?_
      · intro hbusy
        rw [hwriter]
        exact h.taken hbusy
      · simp only [closes, ownerThread, owner, hwriter]
      · simp only [holds, ownerThread, owner, hwriter]
    split at hstep
    next =>
      cases hstep
      exact hmid
    next => exact agrees_sendBytes hmid hstep

theorem agrees_start (h : Agrees s) (hidle : s.isIdle = true) {c : Call} {out : List AlsaEvent}
    (hstep : s.start conv c = .ok (s', out)) : Agrees s' := by
  cases c with
  | configure cfg =>
    simp only [Alsa.start, Except.ok.injEq] at hstep
    have hs := agrees_shutdown h hidle false (.configure cfg false)
    rwa [hstep] at hs
  | stop =>
    simp only [Alsa.start, Except.ok.injEq] at hstep
    have hs := agrees_shutdown h hidle false .leave
    rwa [hstep] at hs
  | release =>
    simp only [Alsa.start, Except.ok.injEq] at hstep
    have hs := agrees_shutdown h hidle true .leave
    rwa [hstep] at hs
  | flush =>
    simp only [Alsa.start, Except.ok.injEq] at hstep
    have hs := agrees_shutdown h hidle true (.configure s.flushConfig true)
    rwa [hstep] at hs
  | play | pause | setVolume | setMute =>
    simp only [Alsa.start, Except.ok.injEq, Prod.mk.injEq] at hstep
    obtain ⟨rfl, -⟩ := hstep
    exact h.of_same h.threads h.taken rfl rfl rfl
  | writeAudio data => exact agrees_writeAudio h hstep

/-- A writer that has returned holds no device. -/
theorem Consistent.dev_of_returned {t : WriterThread} (h : Consistent t)
    (hend : t.isReturned = true) : t.slot.dev = false ∧ isClosing t.pc = false := by
  unfold WriterThread.isReturned at hend
  have hdev := h.dev
  cases hpc : t.pc <;> simp_all [DevAtPc, isClosing]

theorem Agrees.clear_of_returned (h : Agrees s) {t : WriterThread} (hown : ownerThread s = some t)
    (hmem : t ∈ s.threads) (hend : t.isReturned = true) : s.shared.isOpen = false := by
  obtain ⟨hdev, hpc⟩ := (h.threads t hmem).dev_of_returned hend
  have hflag := h.flag (by rw [closes, hown, Option.any_some, hpc])
  rwa [holds, hown, Option.any_some, hdev] at hflag

theorem agrees_configureReturns_error (hthreads : ∀ t ∈ s.threads, Consistent t)
    (hwriter : s.output.writer = none) (hflag : s.shared.isOpen = false) (e : String)
    (play : Bool) : Agrees (s.configureReturns (.error e) play).1 := by
  refine agrees_of_clear hthreads rfl ?_ hflag
  simp only [Alsa.configureReturns]
  split <;> exact hwriter

/-- The writer that reported success becomes the current one. -/
theorem agrees_configureReturns_ok (h : Agrees s) (hown : owner s = some id) (play : Bool) :
    Agrees ({ s with output := { s.output with writer := some id } }.configureReturns
      (.ok ()) play).1 := by
  have hsame :
      ownerThread ({ s with output := { s.output with writer := some id } }.configureReturns
        (.ok ()) play).1 = ownerThread s := by
    unfold ownerThread
    rw [hown, owner]
    simp only [Alsa.configureReturns]
    cases play <;> rfl
  refine h.of_same h.threads (fun hbusy => by cases hbusy) rfl ?_ ?_
  · rw [closes, closes, hsame]
  · rw [holds, holds, hsame]

theorem agrees_resume (h : Agrees s) {out : List AlsaEvent} (hstep : s.resume = .ok (s', out)) :
    Agrees s' := by
  unfold Alsa.resume at hstep
  split at hstep
  next => cases hstep
  next id after hc =>
    have hwriter := h.taken (by rw [Alsa.isIdle, hc])
    split at hstep
    next => cases hstep
    next t hget =>
      have hown : ownerThread s = some t := by
        rw [ownerThread, owner, hc, Option.bind_some, hget]
      split at hstep
      next hend =>
        have hflag := h.clear_of_returned hown (List.mem_of_getElem? hget) hend
        have hs := agrees_shutdownReturns h.threads hwriter hflag after
        rw [Except.ok.injEq] at hstep
        rwa [hstep] at hs
      next => cases hstep
  next id play hc =>
    have hwriter := h.taken (by rw [Alsa.isIdle, hc])
    split at hstep
    next => cases hstep
    next =>
      have hs := agrees_configureReturns_ok h (by rw [owner, hc]) play
      rw [Except.ok.injEq] at hstep
      rwa [hstep] at hs
    next e hreport =>
      obtain ⟨t, hget, hreport⟩ := Option.bind_eq_some_iff.mp hreport
      have hmem := List.mem_of_getElem? hget
      have hown : ownerThread s = some t := by
        rw [ownerThread, owner, hc, Option.bind_some, hget]
      have hend : t.isReturned = true := by
        rw [WriterThread.isReturned, (h.threads t hmem).failed e hreport]
      have hs := agrees_configureReturns_error h.threads hwriter
        (h.clear_of_returned hown hmem hend) e play
      rw [Except.ok.injEq] at hstep
      rwa [hstep] at hs

theorem agrees_giveUp (h : Agrees s) (hflag : s.shared.isOpen = false) {out : List AlsaEvent}
    (hstep : s.giveUp = .ok (s', out)) : Agrees s' := by
  unfold Alsa.giveUp at hstep
  split at hstep
  next => cases hstep
  next id after hc =>
    have hwriter := h.taken (by rw [Alsa.isIdle, hc])
    have hs := agrees_shutdownReturns h.threads hwriter hflag after
    split at hstep
    next => cases hstep
    next =>
      split at hstep
      next => cases hstep
      next =>
        rw [Except.ok.injEq] at hstep
        rwa [hstep] at hs
  next id play hc =>
    have hwriter := h.taken (by rw [Alsa.isIdle, hc])
    split at hstep
    next => cases hstep
    next t hget =>
      split at hstep
      next => cases hstep
      next =>
        have hleft := (h.threads t (List.mem_of_getElem? hget)).hangUp true
        rw [Except.ok.injEq] at hstep
        have hs : Agrees ({ s with threads := s.threads.set id (t.hangUp true) }.configureReturns
            (.error (t.slot.params.device ++ ": device open did not complete within 3000 ms"))
            play).1 := by
          refine agrees_configureReturns_error ?_ ?_ ?_ _ play
          · exact consistent_set h hleft
          · exact hwriter
          · exact hflag
        rwa [hstep] at hs

/-- A step of any thread. -/
theorem agrees_threadStep (h : Agrees s) (hquiet : Undisturbed s (.thread id now answer))
    {out : List AlsaEvent} (hstep : s.threadStep id now answer = .ok (s', out)) : Agrees s' := by
  obtain ⟨t, t', sh', took, hget, ht, rfl, -⟩ := threadStep_inv hstep
  have hcons := h.threads t (List.mem_of_getElem? hget)
  refine ⟨consistent_set h (step_consistent hcons ht), h.taken, ?_⟩
  by_cases howner : owner s = some id
  · -- the owner's own step: its store and its device go together
    have hold : ownerThread s = some t := by rw [ownerThread, howner, Option.bind_some, hget]
    have hnew : ownerThread { s with threads := s.threads.set id t', shared := sh' } = some t' :=
      ownerThread_set howner hget t'
    intro _
    rw [holds, hnew, Option.any_some]
    rcases step_flag hcons ht with ⟨hflag, hdev, hpc, -⟩ | ⟨hflag, hdev, -⟩ | ⟨hflag, hdev, -⟩
    · have hbefore := h.flag (by rw [closes, hold, Option.any_some, hpc])
      rw [hflag, hdev, hbefore, holds, hold, Option.any_some]
    · rw [hflag, hdev]
    · rw [hflag, hdev]
  · have hsame : ownerThread { s with threads := s.threads.set id t', shared := sh' } =
        ownerThread s := ownerThread_set_of_ne howner t'
    rw [closes, holds, hsame]
    intro hopen
    have hbefore := h.flag hopen
    rcases hquiet with hown | hquiet
    · exact absurd hown howner
    · obtain ⟨hmayOpen, hmayClose⟩ := hquiet t hget
      rcases step_flag hcons ht with ⟨hflag, -, -, -⟩ | ⟨hflag, -, hcompl⟩ | ⟨hflag, -, hpc⟩
      · exact hflag.trans hbefore
      · exact hflag.trans (hmayOpen hcompl).symm
      · rcases hmayClose hpc with hno | hclosing
        · exact hflag.trans hno.symm
        · rw [closes] at hclosing
          rw [hopen] at hclosing
          cases hclosing

/-- **The step rule.** -/
theorem step_agrees (h : Agrees s) {a : AlsaAction} (hquiet : Undisturbed s a)
    {out : List AlsaEvent} (hstep : s.step conv a = .ok (s', out)) : Agrees s' := by
  cases a with
  | call c =>
    simp only [Alsa.step] at hstep
    split at hstep
    next hc => exact agrees_start h (by rw [Alsa.isIdle, hc]) hstep
    next => cases hstep
  | resume => exact agrees_resume h hstep
  | giveUp => exact agrees_giveUp h hquiet hstep
  | thread id now answer => exact agrees_threadStep h hquiet hstep

theorem run_agrees {acts : List AlsaAction} (h : Agrees s)
    (hquiet : Along (Alsa.step conv) Undisturbed s acts) {log : List AlsaEvent}
    (hrun : run (Alsa.step conv) s acts = .ok (s', log)) : Agrees s' := by
  have hkeep : ∀ s a s' o, Agrees s → Undisturbed s a → Alsa.step conv s a = .ok (s', o) →
      Agrees s' ∧ ∀ x ∈ o, True :=
    fun s a s' o h ha hstep => ⟨step_agrees h ha hstep, fun _ _ => trivial⟩
  exact (run_keeps hkeep h hquiet hrun).1

theorem Agrees.truthful (h : Agrees s) : Truthful s := by
  intro hidle _ hclosing
  rw [Alsa.deviceOpen, h.flag hclosing, holds, ownerThread, owner_of_idle hidle]
  cases hw : s.output.writer with
  | none => simp
  | some id => cases hget : s.threads[id]? <;> simp [hget]

end

/-- **`device_open()` tells the truth when nobody disturbs it.** In every state
that an output reaches through any calls, in any interleaving with the steps of
all its writers, if no call gave up on a writer while the flag was set, and
writers left behind completed their opens only while the current writer had its
device open and their closes only while it had none or was closing it. -/
theorem device_open_truthful {conv : Conversions} {acts : List AlsaAction} {s : Alsa}
    {log : List AlsaEvent} (hrun : run (Alsa.step conv) .new acts = .ok (s, log))
    (hquiet : Along (Alsa.step conv) Undisturbed .new acts) : Truthful s := by
  have hstart : Agrees .new := agrees_of_clear (by simp [Alsa.new]) rfl rfl rfl
  exact (run_agrees hstart hquiet hrun).truthful

/-! ## Two writers -/

/-- 16-bit stereo on the default device. -/
def stereoConfig : Config :=
  { format := .pcmS16le, sampleRate := 48000, channels := 2, device := none }

/-- 16-bit PCM at full volume. -/
def plainConversions : Conversions :=
  { codec := { make := fun _ => .error "not FLAC", decode := fun _ _ => .error "not FLAC" }
    applyVolume := fun _ data _ => data
    flacSamplesToDevice := fun _ _ _ => [] }

/-- A first `configure` gives up on a device that does not answer, a second one
succeeds with a new writer. -/
def secondWriter : List AlsaAction :=
  [.call (.configure stereoConfig), .giveUp, .call (.configure stereoConfig),
   .thread 1 0 (.opener (.ok ())), .thread 1 0 .go, .resume]

/-- The device of the first writer answers at last: the writer opens it and
closes it again. -/
def lateOpen : List AlsaAction :=
  [.thread 0 1 (.opener (.ok ())), .thread 0 1 .go, .thread 0 1 .go, .thread 0 1 .go,
   .thread 0 1 .go, .thread 0 1 .go]

/-- Of a state: no call in progress, the current writer, and whether it is
opening or closing, has its device open, and what `device_open()` says. -/
def glance (s : Alsa) : Bool × Option Nat × Bool × Bool × Bool :=
  (s.isIdle, s.output.writer, opens s || closes s, holds s, s.deviceOpen)

/-- The flag is cleared under the second writer, which has its device open. -/
theorem lateOpen_clears_flag :
    (run (Alsa.step plainConversions) .new (secondWriter ++ lateOpen)).map (fun r => glance r.1) =
      .ok (true, some 1, false, true, false) ∧
    ∀ s log, run (Alsa.step plainConversions) .new (secondWriter ++ lateOpen) = .ok (s, log) →
      ¬ Truthful s := by
  have hrun : (run (Alsa.step plainConversions) .new (secondWriter ++ lateOpen)).map
      (fun r => glance r.1) = .ok (true, some 1, false, true, false) := by decide +kernel
  refine ⟨hrun, ?_⟩
  intro s log hs htruth
  rw [hs] at hrun
  simp only [Except.map, Except.ok.injEq, glance, Prod.mk.injEq, Bool.or_eq_false_iff] at hrun
  obtain ⟨hidle, hwriter, ⟨hopens, hcloses⟩, hholds, hflag⟩ := hrun
  rw [holds, ownerThread, owner_of_idle hidle, hwriter, Option.bind_some,
    Option.any_eq_true] at hholds
  obtain ⟨t, hget, hdev⟩ := hholds
  have htrue := (htruth hidle hopens hcloses).mpr ⟨1, t, hwriter, hget, hdev⟩
  rw [hflag] at htrue
  cases htrue

instance (s : Alsa) (a : AlsaAction) : Decidable (Undisturbed s a) := by
  unfold Undisturbed
  split <;> infer_instance

/-- The same late open, while the second writer closes its device for lack of
audio. -/
def coveredOpen : List AlsaAction :=
  secondWriter ++ [.thread 1 1 .go, .thread 1 1 .timeout] ++ lateOpen ++ [.thread 1 2 .go]

theorem coveredOpen_truthful :
    (run (Alsa.step plainConversions) .new coveredOpen).map (fun r => glance r.1) =
      .ok (true, some 1, false, false, false) ∧
    ∀ s log, run (Alsa.step plainConversions) .new coveredOpen = .ok (s, log) → Truthful s := by
  refine ⟨by decide +kernel, ?_⟩
  intro s log hrun
  exact device_open_truthful hrun (by decide +kernel)

end Oaat.Alsa
