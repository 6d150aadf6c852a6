/-
Oaat.Endpoint.ClockSync — both ends of a clock exchange
(`oaat-endpoint/src/sync.rs`: `SharedClock`, `PtsTracker`;
`oaat-endpoint/src/transport.rs`: `clock_sync_loop`;
`oaat-controller/src/clock_responder.rs`: `ClockResponder`).

A loop iteration is a function of the datagram and of the clock readings that
the iteration takes. The controller's responder answers requests and nothing
else. The endpoint answers requests too, and feeds a response to its clock
unless the response is more than a second old.
-/
import Oaat.Core.Clock
import Oaat.Core.Wire
import Oaat.Lib.MachineInt

namespace Oaat.Endpoint

open Oaat.Core Oaat.Lib

/-! ## The shared clock -/

/-- `f64::round`: half away from zero. -/
def roundNs (q : ℚ) : Int := if 0 ≤ q then ⌊q + 1 / 2⌋ else ⌈q - 1 / 2⌉

/-- The clock state, and what it publishes: the offset as `i64`, the RTT as
`u64` (both casts saturate) and whether it is bootstrapped. -/
structure SharedClock where
  state : ClockState
  offsetNs : Int
  rttNs : Nat
  bootstrapped : Bool

namespace SharedClock

def new : SharedClock := { state := .new, offsetNs := 0, rttNs := 0, bootstrapped := false }

def update (c : SharedClock) (t1 t2 t3 t4 : UInt64) : SharedClock :=
  let state := c.state.update t1 t2 t3 t4
  { state
    offsetNs := max (-2 ^ 63) (min (roundNs state.offsetNs) (2 ^ 63 - 1))
    rttNs := min (roundNs state.rttNs).toNat (2 ^ 64 - 1)
    bootstrapped := state.isBootstrapped }

/-- An `i64` operation that saturates. -/
def saturate (v : Int) : Int := max (-2 ^ 63) (min v (2 ^ 63 - 1))

/-- A controller-domain timestamp in the local clock domain. -/
def controllerToLocal (c : SharedClock) (controllerNs : UInt64) : UInt64 :=
  asU64 (max (saturate (asI64 controllerNs - c.offsetNs)) 0)

/-- A local timestamp in the controller clock domain. -/
def localToController (c : SharedClock) (localNs : UInt64) : UInt64 :=
  asU64 (max (saturate (asI64 localNs + c.offsetNs)) 0)

end SharedClock

/-! ## Where playback should be -/

/-- The timestamp of frame 0, and the rate. -/
structure PtsTracker where
  startNs : UInt64
  sampleRate : UInt32
  deriving Repr, DecidableEq

/-- Playback error in frames at `nowNs`. `expected as i64` keeps the low 64 bits
of a `u128`. -/
def PtsTracker.driftFrames (build : Build) (t : PtsTracker) (nowNs : UInt64) (framesPlayed : Nat) :
    Except Panic Int :=
  let elapsedNs := nowNs.toNat - t.startNs.toNat
  let expected := elapsedNs * t.sampleRate.toNat / 1_000_000_000
  build.i64 ((expected : Int).bmod (2 ^ 64) - (framesPlayed : Int).bmod (2 ^ 64))

/-! ## Datagrams -/

/-- The response to a request, stamped at its reception and at its sending. -/
def respond (pkt : ClockSyncPacket) (t2 t3 : UInt64) : ClockSyncPacket :=
  { version := 1, kind := .response, sequence := pkt.sequence, t1 := pkt.t1, t2, t3 }

/-- A received datagram as a clock packet; too short or malformed ones are
skipped. `recv_from` cuts a longer one to the buffer. -/
def clockPacket (datagram : List UInt8) : Option ClockSyncPacket :=
  if datagram.length < ClockSyncPacket.SIZE then none
  else (ClockSyncPacket.decode (datagram.take ClockSyncPacket.SIZE)).toOption

/-- The request that `clock_sync_loop` sends. -/
def clockRequest (sequence : UInt16) (t1 : UInt64) : ClockSyncPacket :=
  { version := 1, kind := .request, sequence, t1, t2 := 0, t3 := 0 }

/-- `t4.saturating_sub(pkt.t1) > 1_000_000_000` -/
def stale (pkt : ClockSyncPacket) (t4 : UInt64) : Bool :=
  t4.toNat - pkt.t1.toNat > 1000000000

/-- An iteration of the endpoint's `clock_sync_loop`: the clock after it and the
response it sends. `now` and `later` are its readings of `now_ns()`. -/
def clockSyncReceive (clock : SharedClock) (datagram : List UInt8) (now later : UInt64) :
    SharedClock × Option ClockSyncPacket :=
  match clockPacket datagram with
  | none => (clock, none)
  | some pkt =>
    match pkt.kind with
    | .request => (clock, some (respond pkt now later))
    | .response =>
      if stale pkt now then (clock, none)
      else (clock.update pkt.t1 pkt.t2 pkt.t3 now, none)

/-- An iteration of the controller's `ClockResponder`. -/
def responderReceive (datagram : List UInt8) (t2 t3 : UInt64) : Option ClockSyncPacket :=
  match clockPacket datagram with
  | none => none
  | some pkt => if pkt.kind ≠ .request then none else some (respond pkt t2 t3)

/-! ## What is published -/

/-- The published offset and flag are those of the state. -/
structure Published (c : SharedClock) : Prop where
  offset : c.offsetNs = SharedClock.saturate (roundNs c.state.offsetNs)
  bootstrapped : c.bootstrapped = c.state.isBootstrapped
  count : c.state.bootstrapCount = 10

theorem published_new : Published .new where
  offset := by decide +kernel
  bootstrapped := rfl
  count := rfl

theorem Published.update {c : SharedClock} (h : Published c) (t1 t2 t3 t4 : UInt64) :
    Published (c.update t1 t2 t3 t4) where
  offset := rfl
  bootstrapped := rfl
  count := by
    rw [SharedClock.update, ClockState.update_bootstrapCount]
    exact h.count

theorem Published.receive {c : SharedClock} (h : Published c) (datagram : List UInt8)
    (now later : UInt64) : Published (clockSyncReceive c datagram now later).1 := by
  unfold clockSyncReceive
  split
  next => exact h
  next =>
    split
    next => exact h
    next =>
      split
      next => exact h
      next => exact h.update _ _ _ _

/-! ## Packets that arrive -/

theorem length_encode_clock (p : ClockSyncPacket) : p.encode.length = ClockSyncPacket.SIZE := by
  simp [ClockSyncPacket.encode, ClockSyncPacket.SIZE]

theorem clockPacket_encode {p : ClockSyncPacket} (hv : p.version = 1) :
    clockPacket p.encode = some p := by
  have hlen := length_encode_clock p
  rw [clockPacket, if_neg (by omega), List.take_of_length_le (by omega),
    ClockSyncPacket.decode_encode p hv]
  rfl

end Oaat.Endpoint
