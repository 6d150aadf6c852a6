/-
Oaat.Controller.ClockSync — the controller's exchanges on an endpoint's clock
socket (`oaat-controller/src/transport.rs`: `clock_sync_once`;
`oaat-controller/src/zone.rs`: the task of `spawn_endpoint_clock_sync`).

`clock_sync_once` sends a request and waits for the next datagram without a
limit; `clock_sync_bootstrap` and `clock_sync_all` are calls of it, and
`&mut self` admits one at a time. A steady task does the same in a loop, gives
up waiting after a second, and there may be several of them. All share the
socket. Neither looks at the kind, the sequence or the `t1` of what it reads.

The network loses, duplicates, delays and reorders requests and responses.
What has arrived waits in the socket's queue until some task reads it.
Requests are numbered in the order they are sent. The numbers are ours: no
packet carries one, but every datagram of the model remembers the request it
goes back to, and `sent` and `stamped` record the stamps of both sides.
-/
import Oaat.Endpoint.ClockSync
import Oaat.Lib.Run
import Mathlib.Logic.Function.Basic

namespace Oaat.Controller

open Oaat.Core Oaat.Endpoint

/-- A datagram, and the number of the request that it is or answers. -/
structure Datagram where
  request : Nat
  bytes : List UInt8
  deriving Repr, DecidableEq

/-- The request that a task is waiting for: its number and its `t1`. -/
structure Pending where
  request : Nat
  t1 : UInt64
  deriving Repr, DecidableEq

/-- The locals of the task of `spawn_endpoint_clock_sync`. -/
structure SteadyTask where
  seq : UInt16
  currentIntervalMs : Nat
  pending : Option Pending
  /-- The loop was left: `send_to` failed. -/
  ended : Bool
  deriving Repr, DecidableEq

def SteadyTask.new : SteadyTask :=
  { seq := 0, currentIntervalMs := 2000, pending := none, ended := false }

/-- A call of `ClockState::update`: its arguments, the request whose `t1` it
uses and the request that `t2` and `t3` were stamped for. -/
structure Update where
  request : Nat
  origin : Nat
  t1 : UInt64
  t2 : UInt64
  t3 : UInt64
  t4 : UInt64
  deriving Repr, DecidableEq

/-- The clock socket of one endpoint, the tasks on it, and the network. -/
structure ClockSocket where
  clockState : ClockState
  /-- The endpoint's own clock, which its responder carries along. -/
  endpoint : SharedClock
  /-- The call of `clock_sync_once` that is waiting for its response. -/
  once : Option Pending
  steady : Nat → SteadyTask
  /-- Requests on their way. -/
  requests : List Datagram
  /-- Responses on their way. -/
  responses : List Datagram
  /-- Datagrams in the socket, the oldest first. -/
  queue : List Datagram
  /-- The `t1` of every request sent. -/
  sent : List UInt64
  /-- The `t2` and `t3` that the endpoint stamped, each for a request. -/
  stamped : List (Nat × UInt64 × UInt64)

def ClockSocket.new : ClockSocket :=
  { clockState := .new, endpoint := .new, once := none, steady := fun _ => .new, requests := [],
    responses := [], queue := [], sent := [], stamped := [] }

/-- Who reads and writes the socket. -/
inductive Task where
  | once
  | steady (n : Nat)
  deriving Repr, DecidableEq

inductive Action where
  /-- `clock_sync_once(seq)` reads its clock and sends. -/
  | onceSend (seq : UInt16) (t1 : UInt64)
  /-- A steady task wakes up, reads its clock and sends. -/
  | steadySend (n : Nat) (t1 : UInt64)
  /-- `send_to` fails: the loop is left. -/
  | steadySendFails (n : Nat)
  /-- The endpoint receives a request and answers it. -/
  | answer (i : Nat) (t2 t3 : UInt64)
  /-- A response enters the socket's queue. -/
  | arrive (i : Nat)
  | loseRequest (i : Nat)
  | duplicateRequest (i : Nat)
  | loseResponse (i : Nat)
  | duplicateResponse (i : Nat)
  /-- `recv` of a waiting task returns. -/
  | recv (task : Task) (t4 : UInt64)
  /-- `recv` of `clock_sync_once` returns an error. -/
  | onceRecvFails
  /-- A second has passed. -/
  | steadyTimeout (n : Nat)
  deriving Repr, DecidableEq

/-- The action sends a request. -/
def Action.sends : Action → Bool
  | .onceSend _ _ | .steadySend _ _ => true
  | _ => false

/-- The action cannot happen in the state. -/
inductive Disabled where
  | disabled
  deriving Repr, DecidableEq

namespace ClockSocket

/-- The request that `task` is waiting for. -/
def pending (s : ClockSocket) : Task → Option Pending
  | .once => s.once
  | .steady n => (s.steady n).pending

def setSteady (s : ClockSocket) (n : Nat) (t : SteadyTask) : ClockSocket :=
  { s with steady := Function.update s.steady n t }

/-- The next request, as a task sees it. -/
def nextPending (s : ClockSocket) (t1 : UInt64) : Pending := { request := s.sent.length, t1 }

/-- `send_to` puts the request on its way. -/
def sendRequest (s : ClockSocket) (seq : UInt16) (t1 : UInt64) : ClockSocket :=
  { s with
    sent := s.sent ++ [t1]
    requests := s.requests ++ [⟨s.sent.length, (clockRequest seq t1).encode⟩] }

/-- `recv` into a zeroed buffer of `SIZE` bytes. -/
def respBuf (bytes : List UInt8) : List UInt8 :=
  (bytes ++ List.replicate ClockSyncPacket.SIZE 0).take ClockSyncPacket.SIZE

/-- What both tasks do with a datagram: decode it, and update the clock with
the `t1` of the request they are waiting for. -/
def updateWith (s : ClockSocket) (p : Pending) (d : Datagram) (t4 : UInt64) :
    ClockSocket × List Update :=
  match ClockSyncPacket.decode (respBuf d.bytes) with
  | .error _ => (s, [])
  | .ok response =>
    ({ s with clockState := s.clockState.update p.t1 response.t2 response.t3 t4 },
      [{ request := p.request, origin := d.request, t1 := p.t1, t2 := response.t2,
         t3 := response.t3, t4 }])

/-- The end of an iteration of a steady task that read a datagram: the interval
follows the clock if the clock was updated. -/
def steadyNext (t : SteadyTask) (updates : List Update) (clock : ClockState) : SteadyTask :=
  { t with
    pending := none
    seq := t.seq + 1
    currentIntervalMs :=
      if updates.isEmpty then t.currentIntervalMs else clock.suggestedIntervalMs }

/-- The task that was waiting goes on. -/
def resume (s : ClockSocket) (task : Task) (updates : List Update) : ClockSocket :=
  match task with
  | .once => { s with once := none }
  | .steady n => s.setSteady n (steadyNext (s.steady n) updates s.clockState)

/-- The response of the endpoint to the `i`-th request on its way. -/
def answerRequest (s : ClockSocket) (i : Nat) (d : Datagram) (t2 t3 : UInt64) : ClockSocket :=
  let (endpoint, response) := clockSyncReceive s.endpoint d.bytes t2 t3
  { s with
    endpoint
    requests := s.requests.eraseIdx i
    responses := s.responses ++ (response.map fun r => ⟨d.request, r.encode⟩).toList
    stamped := s.stamped ++ (response.map fun r => (d.request, r.t2, r.t3)).toList }

def step (s : ClockSocket) : Action → Except Disabled (ClockSocket × List Update)
  | .onceSend seq t1 =>
    match s.once with
    | some _ => .error .disabled
    | none => .ok ({ s.sendRequest seq t1 with once := some (s.nextPending t1) }, [])
  | .steadySend n t1 =>
    if (s.steady n).ended || (s.steady n).pending.isSome then .error .disabled
    else
      .ok ((s.sendRequest (s.steady n).seq t1).setSteady n
        { s.steady n with pending := some (s.nextPending t1) }, [])
  | .steadySendFails n =>
    if (s.steady n).ended || (s.steady n).pending.isSome then .error .disabled
    else .ok (s.setSteady n { s.steady n with ended := true }, [])
  | .answer i t2 t3 =>
    match s.requests[i]? with
    | none => .error .disabled
    | some d => .ok (s.answerRequest i d t2 t3, [])
  | .arrive i =>
    match s.responses[i]? with
    | none => .error .disabled
    | some d =>
      .ok ({ s with responses := s.responses.eraseIdx i, queue := s.queue ++ [d] }, [])
  | .loseRequest i => .ok ({ s with requests := s.requests.eraseIdx i }, [])
  | .duplicateRequest i =>
    .ok ({ s with requests := s.requests ++ (s.requests[i]?).toList }, [])
  | .loseResponse i => .ok ({ s with responses := s.responses.eraseIdx i }, [])
  | .duplicateResponse i =>
    .ok ({ s with responses := s.responses ++ (s.responses[i]?).toList }, [])
  | .recv task t4 =>
    match s.pending task, s.queue with
    | some p, d :: queue =>
      let (s, updates) := { s with queue }.updateWith p d t4
      .ok (s.resume task updates, updates)
    | _, _ => .error .disabled
  | .onceRecvFails =>
    match s.once with
    | none => .error .disabled
    | some _ => .ok ({ s with once := none }, [])
  | .steadyTimeout n =>
    match (s.steady n).pending with
    | none => .error .disabled
    | some _ =>
      .ok (s.setSteady n
        { s.steady n with
          pending := none, currentIntervalMs := 500, seq := (s.steady n).seq + 1 }, [])

end ClockSocket

end Oaat.Controller
