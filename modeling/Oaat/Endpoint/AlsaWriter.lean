/-
Oaat.Endpoint.AlsaWriter — the writer thread of the ALSA output
(`oaat-endpoint/src/alsa_direct.rs`: `DeviceSlot`, `writer_loop`).

`Pc` says where the thread stands. A step runs from one place where the thread
can be held up (a call of the device, a read of the channel) or touches what it
shares with others to the next. What the device does is an input, and so is
the clock: a step reads it once, in nanoseconds.

`close` takes the device out of the slot and then drains and drops it. Here
`dev` stays set until the drop has returned: until then the device is open.
-/
import Oaat.Core.Basic
import Oaat.Lib.Run

namespace Oaat.Endpoint

open Oaat.Core Oaat.Lib

/-! ## Parameters -/

/-- Payloads queued between `write_audio()` and the writer thread. -/
def WRITE_QUEUE_PAYLOADS : Nat := 256

def IDLE_CLOSE : Nat := 10_000_000_000

def RESPAWN_BACKOFF_MIN : Nat := 250_000_000

def RESPAWN_BACKOFF_MAX : Nat := 8_000_000_000

/-- A device that played at least this long was healthy. -/
def RESPAWN_STABLE_RUN : Nat := 5_000_000_000

/-- The ALSA sample formats that the output opens. -/
inductive AlsaFormat where
  | s16Le | s24Le | s32Le | floatLe | dsdU32Be
  deriving Repr, DecidableEq

structure DeviceParams where
  device : String
  format : AlsaFormat
  rate : UInt32
  channels : UInt8
  deriving Repr, DecidableEq

def DeviceParams.frameBytes (p : DeviceParams) : Nat :=
  (if p.format = .s16Le then 2 else 4) * max p.channels.toNat 1

inductive DeviceError where
  | xrun
  | suspended
  | fatal (text : String)
  deriving Repr, DecidableEq

/-- State shared between the output and all writer threads it ever started. -/
structure Shared where
  /-- Underruns during active playback. -/
  underruns : Nat
  /-- Incremented by `pause()`. -/
  pauseGen : Nat
  /-- The device is currently open. -/
  isOpen : Bool
  deriving Repr, DecidableEq

def Shared.default : Shared := { underruns := 0, pauseGen := 0, isOpen := false }

/-! ## The device -/

structure DeviceSlot where
  params : DeviceParams
  /-- The device is held. -/
  dev : Bool
  openedAt : Option Nat
  retryAt : Option Nat
  backoff : Nat
  deriving Repr, DecidableEq

namespace DeviceSlot

def new (params : DeviceParams) : DeviceSlot :=
  { params, dev := false, openedAt := none, retryAt := none, backoff := 0 }

/-- A backoff is pending. -/
def backsOff (slot : DeviceSlot) (now : Nat) : Bool := slot.retryAt.any fun at' => now < at'

/-- `open`, once the opener has returned a device. -/
def opened (slot : DeviceSlot) (now : Nat) : DeviceSlot :=
  { slot with dev := true, openedAt := some now, retryAt := none }

def scheduleRetry (slot : DeviceSlot) (now : Nat) : DeviceSlot :=
  let stable := slot.openedAt.any fun t => RESPAWN_STABLE_RUN ≤ now - t
  let backoff :=
    if stable ∨ slot.backoff = 0 then RESPAWN_BACKOFF_MIN
    else min (slot.backoff * 2) RESPAWN_BACKOFF_MAX
  { slot with backoff, openedAt := none, retryAt := some (now + backoff) }

/-- Close after a fatal error; a later payload reopens after the backoff. -/
def fail (slot : DeviceSlot) (now : Nat) : DeviceSlot :=
  { slot with dev := false }.scheduleRetry now

def close (slot : DeviceSlot) : DeviceSlot := { slot with dev := false, openedAt := none }

end DeviceSlot

/-! ## The thread -/

/-- The longest part that is whole frames of `n` bytes. -/
def wholeFrames (n : Nat) (data : List UInt8) : List UInt8 :=
  data.take (data.length - data.length % n)

/-- The locals of `write_all`; `data` is already cut to whole frames. -/
structure Write where
  data : List UInt8
  off : Nat
  recoveries : Nat
  active : Bool
  deriving Repr, DecidableEq

/-- Where the writer thread stands. -/
inductive Pc where
  /-- In the opener, for the first time. -/
  | opening
  /-- About to send the result of the first open. -/
  | reporting (first : Except String Unit)
  /-- About to enter the loop. -/
  | starting
  /-- In `recv_timeout`. -/
  | receiving
  /-- About to load `stop` and to ensure that the device is open. -/
  | received (data : List UInt8)
  /-- In the opener, for this payload. -/
  | reopening (data : List UInt8)
  /-- The device is open; about to load `pause_gen`. -/
  | ready (data : List UInt8)
  /-- In the `write` of the device. -/
  | writing (w : Write)
  /-- In the `recover` of the device. -/
  | recovering (w : Write)
  /-- `fail`: dropping the device. -/
  | failing
  /-- Draining and dropping the device: no audio. -/
  | idleClosing
  /-- The loop was left; about to load `stop`. -/
  | leaving
  /-- Draining (or discarding) and dropping the device: the end. -/
  | closing (drain : Bool)
  | returned

/-- The thread is in the opener. -/
def Pc.isOpening : Pc → Bool
  | .opening | .reopening _ => true
  | _ => false

/-- What a step of the thread was waiting for. -/
inductive Answer where
  /-- The opener returns. -/
  | opener (r : Except String Unit)
  /-- `write` returns. -/
  | wrote (r : Except DeviceError Nat)
  /-- `recover` returns. -/
  | recovered (r : Except DeviceError Unit)
  /-- `recv_timeout` gives up. -/
  | timeout
  /-- Anything else. -/
  | go

/-- The action cannot happen in the state. -/
inductive Blocked where
  | blocked
  deriving Repr, DecidableEq

/-- The thread and its ends of the channels. -/
structure WriterThread where
  slot : DeviceSlot
  pc : Pc
  /-- Payloads sent and not yet received. -/
  queue : List (List UInt8)
  /-- The sender was dropped. -/
  hungUp : Bool
  stop : Bool
  /-- The result of the first open, as sent to `configure`. -/
  report : Option (Except String Unit)
  idleClose : Nat
  lastWrite : Nat
  pauseGen : Nat

namespace WriterThread

/-- `spawn_writer` -/
def spawn (params : DeviceParams) (idleClose : Nat) : WriterThread :=
  { slot := .new params, pc := .opening, queue := [], hungUp := false, stop := false,
    report := none, idleClose, lastWrite := 0, pauseGen := 0 }

/-- The thread has returned. -/
def isReturned (t : WriterThread) : Bool :=
  match t.pc with
  | .returned => true
  | _ => false

/-- The opener of the thread returns a device. -/
def completesOpen (t : WriterThread) : Answer → Bool
  | .opener (.ok ()) => t.pc.isOpening
  | _ => false

/-- `try_send`, then `send`, which blocks while the queue is full. -/
def send (t : WriterThread) (data : List UInt8) : WriterThread :=
  { t with queue := t.queue ++ [data] }

/-- What `shutdown` tells the thread. -/
def hangUp (t : WriterThread) (discard : Bool) : WriterThread :=
  { t with stop := discard, hungUp := true }

/-- The end of `write_all`. -/
def written (t : WriterThread) (now : Nat) : WriterThread :=
  { t with lastWrite := now, pc := .receiving }

/-- The head of the loop of `write_all`. -/
def writeLoop (t : WriterThread) (w : Write) (now : Nat) : WriterThread :=
  if w.off < w.data.length ∧ t.slot.dev then { t with pc := .writing w } else t.written now

/-- `write` returned: the thread, the shared state, and what the device took. -/
def wrote (t : WriterThread) (sh : Shared) (w : Write) (now : Nat) :
    Except DeviceError Nat → WriterThread × Shared × List UInt8
  | .ok 0 => (t.written now, sh, [])
  | .ok (k + 1) =>
    let n := (k + 1) * t.slot.params.frameBytes
    (t.writeLoop { w with off := w.off + n } now, sh, (w.data.drop w.off).take n)
  | .error (.fatal _) => ({ t with pc := .failing }, sh, [])
  | .error e =>
    let w := { w with recoveries := w.recoveries + 1 }
    if w.recoveries > 3 then ({ t with pc := .failing }, sh, [])
    else
      ({ t with pc := .recovering w },
        if e = .xrun ∧ w.active then { sh with underruns := sh.underruns + 1 } else sh, [])

/-- A step of the thread: its state, the shared state, and the bytes that the
device took. -/
def step (t : WriterThread) (sh : Shared) (now : Nat) (answer : Answer) :
    Except Blocked (WriterThread × Shared × List UInt8) :=
  match t.pc, answer with
  | .opening, .opener (.ok ()) =>
    .ok ({ t with slot := t.slot.opened now, pc := .reporting (.ok ()) },
      { sh with isOpen := true }, [])
  | .opening, .opener (.error e) => .ok ({ t with pc := .reporting (.error e) }, sh, [])
  | .reporting (.ok ()), .go => .ok ({ t with report := some (.ok ()), pc := .starting }, sh, [])
  | .reporting (.error e), .go =>
    .ok ({ t with report := some (.error e), pc := .returned }, sh, [])
  | .starting, .go =>
    .ok ({ t with lastWrite := now, pauseGen := sh.pauseGen, pc := .receiving }, sh, [])
  | .receiving, .go =>
    match t.queue with
    | data :: queue => .ok ({ t with queue, pc := .received data }, sh, [])
    | [] => if t.hungUp then .ok ({ t with pc := .leaving }, sh, []) else .error .blocked
  | .receiving, .timeout =>
    if t.queue.isEmpty && !t.hungUp then
      .ok (if t.slot.dev then { t with pc := .idleClosing } else t, sh, [])
    else .error .blocked
  | .received data, .go =>
    if t.stop then .ok ({ t with pc := .leaving }, sh, [])
    else if t.slot.dev then .ok ({ t with pc := .ready data }, sh, [])
    else if t.slot.backsOff now then .ok ({ t with pc := .receiving }, sh, [])
    else .ok ({ t with pc := .reopening data }, sh, [])
  | .reopening data, .opener (.ok ()) =>
    .ok ({ t with slot := t.slot.opened now, pc := .ready data },
      { sh with isOpen := true }, [])
  | .reopening _, .opener (.error _) =>
    .ok ({ t with slot := t.slot.scheduleRetry now, pc := .receiving }, sh, [])
  | .ready data, .go =>
    let active := sh.pauseGen = t.pauseGen ∧ now - t.lastWrite < t.idleClose
    let w :=
      { data := wholeFrames t.slot.params.frameBytes data, off := 0, recoveries := 0, active }
    .ok ({ t with pauseGen := sh.pauseGen }.writeLoop w now, sh, [])
  | .writing w, .wrote r => .ok (t.wrote sh w now r)
  | .recovering w, .recovered (.ok ()) => .ok (t.writeLoop w now, sh, [])
  | .recovering _, .recovered (.error _) => .ok ({ t with pc := .failing }, sh, [])
  | .failing, .go =>
    .ok ({ t with slot := t.slot.fail now }.written now, { sh with isOpen := false }, [])
  | .idleClosing, .go =>
    .ok ({ t with slot := t.slot.close, pc := .receiving }, { sh with isOpen := false }, [])
  | .leaving, .go =>
    if t.slot.dev then .ok ({ t with pc := .closing !t.stop }, sh, [])
    else .ok ({ t with slot := t.slot.close, pc := .returned }, sh, [])
  | .closing _, .go =>
    .ok ({ t with slot := t.slot.close, pc := .returned }, { sh with isOpen := false }, [])
  | _, _ => .error .blocked

end WriterThread

end Oaat.Endpoint
