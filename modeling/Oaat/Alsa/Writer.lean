/-
Oaat.Alsa.Writer — the steps of the writer thread, one by one.

`Stepped` lists every step that the thread can take, with what makes it
possible. `step_inv` is the one place that unfolds `WriterThread.step`.
-/
import Oaat.Endpoint.AlsaOutput

namespace Oaat.Alsa

open Oaat.Core Oaat.Endpoint Oaat.Lib

/-- A step of the thread, by the place where it starts. -/
inductive Stepped (t : WriterThread) (sh : Shared) (now : Nat) :
    Answer → WriterThread → Shared → List UInt8 → Prop where
  | opens : t.pc = .opening →
      Stepped t sh now (.opener (.ok ()))
        { t with slot := t.slot.opened now, pc := .reporting (.ok ()) }
        { sh with isOpen := true } []
  | opensNot (e : String) : t.pc = .opening →
      Stepped t sh now (.opener (.error e)) { t with pc := .reporting (.error e) } sh []
  | reports : t.pc = .reporting (.ok ()) →
      Stepped t sh now .go { t with report := some (.ok ()), pc := .starting } sh []
  | reportsNot (e : String) : t.pc = .reporting (.error e) →
      Stepped t sh now .go { t with report := some (.error e), pc := .returned } sh []
  | starts : t.pc = .starting →
      Stepped t sh now .go
        { t with lastWrite := now, pauseGen := sh.pauseGen, pc := .receiving } sh []
  | receives (data : List UInt8) (queue : List (List UInt8)) : t.pc = .receiving →
      t.queue = data :: queue →
      Stepped t sh now .go { t with queue, pc := .received data } sh []
  | hangsUp : t.pc = .receiving → t.queue = [] → t.hungUp = true →
      Stepped t sh now .go { t with pc := .leaving } sh []
  | idles : t.pc = .receiving → t.queue = [] → t.hungUp = false → t.slot.dev = true →
      Stepped t sh now .timeout { t with pc := .idleClosing } sh []
  | waits : t.pc = .receiving → t.queue = [] → t.hungUp = false → t.slot.dev = false →
      Stepped t sh now .timeout t sh []
  | stops (data : List UInt8) : t.pc = .received data → t.stop = true →
      Stepped t sh now .go { t with pc := .leaving } sh []
  | readies (data : List UInt8) : t.pc = .received data → t.stop = false → t.slot.dev = true →
      Stepped t sh now .go { t with pc := .ready data } sh []
  | drops (data : List UInt8) : t.pc = .received data → t.stop = false → t.slot.dev = false →
      t.slot.backsOff now = true → Stepped t sh now .go { t with pc := .receiving } sh []
  | retries (data : List UInt8) : t.pc = .received data → t.stop = false → t.slot.dev = false →
      t.slot.backsOff now = false → Stepped t sh now .go { t with pc := .reopening data } sh []
  | reopens (data : List UInt8) : t.pc = .reopening data →
      Stepped t sh now (.opener (.ok ())) { t with slot := t.slot.opened now, pc := .ready data }
        { sh with isOpen := true } []
  | reopensNot (data : List UInt8) (e : String) : t.pc = .reopening data →
      Stepped t sh now (.opener (.error e))
        { t with slot := t.slot.scheduleRetry now, pc := .receiving } sh []
  | begins (data : List UInt8) (active : Bool) : t.pc = .ready data →
      Stepped t sh now .go
        ({ t with pauseGen := sh.pauseGen }.writeLoop
          { data := wholeFrames t.slot.params.frameBytes data, off := 0, recoveries := 0, active }
          now) sh []
  | takesNone (w : Write) : t.pc = .writing w →
      Stepped t sh now (.wrote (.ok 0)) (t.written now) sh []
  | takes (w : Write) (k : Nat) : t.pc = .writing w →
      Stepped t sh now (.wrote (.ok (k + 1)))
        (t.writeLoop { w with off := w.off + (k + 1) * t.slot.params.frameBytes } now) sh
        ((w.data.drop w.off).take ((k + 1) * t.slot.params.frameBytes))
  | breaks (w : Write) (e : DeviceError) : t.pc = .writing w →
      (∃ text, e = .fatal text) ∨ 3 < w.recoveries + 1 →
      Stepped t sh now (.wrote (.error e)) { t with pc := .failing } sh []
  | halts (w : Write) (e : DeviceError) (n : Nat) : t.pc = .writing w →
      e = .xrun ∨ e = .suspended → w.recoveries + 1 ≤ 3 →
      Stepped t sh now (.wrote (.error e))
        { t with pc := .recovering { w with recoveries := w.recoveries + 1 } }
        { sh with underruns := sh.underruns + n } []
  | recovers (w : Write) : t.pc = .recovering w →
      Stepped t sh now (.recovered (.ok ())) (t.writeLoop w now) sh []
  | recoversNot (w : Write) (e : DeviceError) : t.pc = .recovering w →
      Stepped t sh now (.recovered (.error e)) { t with pc := .failing } sh []
  | fails : t.pc = .failing →
      Stepped t sh now .go ({ t with slot := t.slot.fail now }.written now)
        { sh with isOpen := false } []
  | idleCloses : t.pc = .idleClosing →
      Stepped t sh now .go { t with slot := t.slot.close, pc := .receiving }
        { sh with isOpen := false } []
  | leaves : t.pc = .leaving → t.slot.dev = true →
      Stepped t sh now .go { t with pc := .closing !t.stop } sh []
  | leavesClosed : t.pc = .leaving → t.slot.dev = false →
      Stepped t sh now .go { t with slot := t.slot.close, pc := .returned } sh []
  | closes (drain : Bool) : t.pc = .closing drain →
      Stepped t sh now .go { t with slot := t.slot.close, pc := .returned }
        { sh with isOpen := false } []

theorem wrote_inv {t t' : WriterThread} {sh sh' : Shared} {now : Nat} {w : Write}
    {r : Except DeviceError Nat} {took : List UInt8} (hpc : t.pc = .writing w)
    (h : t.wrote sh w now r = (t', sh', took)) : Stepped t sh now (.wrote r) t' sh' took := by
  unfold WriterThread.wrote at h
  split at h
  next => cases h; exact .takesNone w hpc
  next k => cases h; exact .takes w k hpc
  next text => cases h; exact .breaks w _ hpc (.inl ⟨text, rfl⟩)
  next e hfatal =>
    dsimp only at h
    split at h
    next hmany => cases h; exact .breaks w e hpc (.inr hmany)
    next hfew =>
      have he : e = .xrun ∨ e = .suspended := by
        cases e with
        | xrun => exact .inl rfl
        | suspended => exact .inr rfl
        | fatal text => exact absurd rfl (hfatal text)
      split at h
      next => cases h; exact .halts w e 1 hpc he (by omega)
      next => cases h; exact .halts w e 0 hpc he (by omega)

/-- **Inversion.** The thread takes no other steps. -/
theorem step_inv {t t' : WriterThread} {sh sh' : Shared} {now : Nat} {answer : Answer}
    {took : List UInt8} (h : t.step sh now answer = .ok (t', sh', took)) :
    Stepped t sh now answer t' sh' took := by
  unfold WriterThread.step at h
  split at h
  next hpc => cases h; exact .opens hpc
  next e hpc => cases h; exact .opensNot e hpc
  next hpc => cases h; exact .reports hpc
  next e hpc => cases h; exact .reportsNot e hpc
  next hpc => cases h; exact .starts hpc
  next hpc =>
    split at h
    next data queue hq => cases h; exact .receives data queue hpc hq
    next hq =>
      split at h
      next hup => cases h; exact .hangsUp hpc hq hup
      next => cases h
  next hpc =>
    split at h
    next hidle =>
      simp only [Bool.and_eq_true, List.isEmpty_iff, Bool.not_eq_true'] at hidle
      cases h
      split
      next hdev => exact .idles hpc hidle.1 hidle.2 hdev
      next hdev => exact .waits hpc hidle.1 hidle.2 (by simpa using hdev)
    next => cases h
  next data hpc =>
    split at h
    next hstop => cases h; exact .stops data hpc hstop
    next hstop =>
      rw [Bool.not_eq_true] at hstop
      split at h
      next hdev => cases h; exact .readies data hpc hstop hdev
      next hdev =>
        rw [Bool.not_eq_true] at hdev
        split at h
        next hback => cases h; exact .drops data hpc hstop hdev hback
        next hback => cases h; exact .retries data hpc hstop hdev (by simpa using hback)
  next data hpc => cases h; exact .reopens data hpc
  next data e hpc => cases h; exact .reopensNot data e hpc
  next data hpc => cases h; exact .begins data _ hpc
  next w r hpc =>
    rw [Except.ok.injEq] at h
    exact wrote_inv hpc h
  next w hpc => cases h; exact .recovers w hpc
  next w e hpc => cases h; exact .recoversNot w e hpc
  next hpc => cases h; exact .fails hpc
  next hpc => cases h; exact .idleCloses hpc
  next hpc =>
    split at h
    next hdev => cases h; exact .leaves hpc hdev
    next hdev => cases h; exact .leavesClosed hpc (by simpa using hdev)
  next drain hpc => cases h; exact .closes drain hpc
  next => cases h

/-- The head of the loop of `write_all` decides where to go, and no more. -/
theorem writeLoop_frame (t : WriterThread) (w : Write) (now : Nat) :
    (t.writeLoop w now).slot = t.slot ∧ (t.writeLoop w now).stop = t.stop ∧
      (t.writeLoop w now).queue = t.queue ∧ (t.writeLoop w now).hungUp = t.hungUp ∧
      (t.writeLoop w now).report = t.report := by
  unfold WriterThread.writeLoop
  split <;> exact ⟨rfl, rfl, rfl, rfl, rfl⟩

/-- A thread's step in the output changes the thread and the shared state. -/
theorem threadStep_inv {s s' : Endpoint.Alsa} {id now : Nat} {answer : Answer}
    {log : List AlsaEvent} (h : s.threadStep id now answer = .ok (s', log)) :
    ∃ t t' sh' took, s.threads[id]? = some t ∧ t.step s.shared now answer = .ok (t', sh', took) ∧
      s' = { s with threads := s.threads.set id t', shared := sh' } ∧
      log = if t.completesOpen answer then [.opened] else [] := by
  unfold Endpoint.Alsa.threadStep at h
  split at h
  next => cases h
  next t hget =>
    split at h
    next => cases h
    next t' sh' took ht =>
      cases h
      exact ⟨t, t', sh', took, hget, ht, rfl, rfl⟩

/-- The conversion of a payload moves the FLAC decoder. -/
theorem deviceBytes_output (conv : Conversions) (o : AlsaDirectOutput) (data : List UInt8) :
    ∃ flacStream, (o.deviceBytes conv data).1 = { o with flacStream } := by
  unfold AlsaDirectOutput.deviceBytes
  split
  next =>
    split
    next => exact ⟨_, rfl⟩
    next =>
      dsimp only
      split <;> exact ⟨_, rfl⟩
  next => exact ⟨_, rfl⟩

/-- A write changes the FLAC decoder, and queues the converted payload if
anything. -/
theorem writeAudio_inv {conv : Conversions} {s s' : Endpoint.Alsa} {data : List UInt8}
    {log : List AlsaEvent} (h : s.writeAudio conv data = .ok (s', log)) :
    ∃ flacStream, s' = { s with output := { s.output with flacStream } } ∨
      ∃ id t, s.output.writer = some id ∧ s.threads[id]? = some t ∧
        s' = { s with
          output := { s.output with flacStream }
          threads := s.threads.set id (t.send (s.output.deviceBytes conv data).2.1) } := by
  obtain ⟨flacStream, hout⟩ := deviceBytes_output conv s.output data
  unfold Endpoint.Alsa.writeAudio at h
  split at h
  next =>
    cases h
    exact ⟨s.output.flacStream, .inl rfl⟩
  next =>
    dsimp only at h
    refine ⟨flacStream, ?_⟩
    rw [hout] at h
    split at h
    next =>
      cases h
      exact .inl rfl
    next =>
      unfold Endpoint.Alsa.sendBytes at h
      split at h
      next =>
        cases h
        exact .inl rfl
      next id t hthread =>
        obtain ⟨i, hwriter, hi⟩ := Option.bind_eq_some_iff.mp hthread
        obtain ⟨u, hu, hpair⟩ := Option.map_eq_some_iff.mp hi
        cases hpair
        split at h
        next =>
          cases h
          exact .inl rfl
        next =>
          split at h
          next => cases h
          next =>
            cases h
            exact .inr ⟨id, t, hwriter, hu, rfl⟩

end Oaat.Alsa
