/-
Oaat.Core.Fec — XOR forward error correction (`oaat-core/src/fec.rs`).

The encoder and the receiver are translated branch by branch. What can stop
the Rust code is visible in the types: `FecReceiver.feed` and `flush` return
`Except Panic`, because they index a list of known slots, unwrap a search, and
do machine arithmetic on counters and on timestamps taken from the network.
The arithmetic is read under either cargo profile (`Build`).

The `u64` counters are natural numbers kept below `2 ^ 64` by `Build.u64`.
A slot vector is a list of options; `Vec::drain(..).flatten()` is
`filterMap id`.
-/
import Oaat.Core.Wire
import Oaat.Lib.MachineInt
import Oaat.Lib.Parity
import Oaat.Lib.Run

namespace Oaat.Core

open Oaat.Lib

/-! ## Encoder -/

/-- The group sizes `FecEncoder::new` asserts: `(2..=16).contains(&group_size)`. -/
abbrev GroupSize := { n : UInt8 // 2 ≤ n ∧ n ≤ 16 }

structure FecEncoder where
  groupSize : GroupSize
  parity : List UInt8
  lenXor : UInt16
  count : UInt8
  deriving Repr, DecidableEq

/-- Parity data returned when an encoder group completes. -/
structure FecParity where
  payload : List UInt8
  lenXor : UInt16
  deriving Repr, DecidableEq

namespace FecEncoder

def new (groupSize : GroupSize) : FecEncoder :=
  { groupSize, parity := [], lenXor := 0, count := 0 }

/-- Index the NEXT data packet will occupy within its group. -/
def nextIndex (enc : FecEncoder) : UInt8 := enc.count

/-- `parity.resize(n, 0)` on a vector that only grows, then `parity[i] ^= b`
for every byte of the payload. -/
def mix (parity payload : List UInt8) : List UInt8 :=
  let parity :=
    if payload.length > parity.length then padTo 0 payload.length parity else parity
  xorInto (· ^^^ ·) parity payload

def feed (enc : FecEncoder) (payload : List UInt8) : FecEncoder × Option FecParity :=
  let enc :=
    if enc.count = 0 then
      { enc with parity := List.replicate payload.length 0, lenXor := 0 }
    else enc
  let enc :=
    { enc with
      parity := mix enc.parity payload
      lenXor := enc.lenXor ^^^ UInt16.ofNat payload.length
      count := enc.count + 1 }
  if enc.count ≥ enc.groupSize.val then
    ({ enc with count := 0, parity := [] },
      some { payload := enc.parity, lenXor := enc.lenXor })
  else (enc, none)

end FecEncoder

/-! ## Receiver -/

/-- A packet as handled by the receiver: header and payload. -/
abbrev FecPacket := AudioPacketHeader × List UInt8

structure FecReceiver where
  baseSeq : Option UInt16
  prevBaseSeq : Option UInt16
  slots : List (Option FecPacket)
  parity : Option (UInt16 × List UInt8)
  groupSize : UInt8
  recovered : Nat
  lost : Nat
  deriving Repr, DecidableEq

namespace FecReceiver

def new : FecReceiver :=
  { baseSeq := none, prevBaseSeq := none, slots := [], parity := none,
    groupSize := 0, recovered := 0, lost := 0 }

/-- `slots.iter().filter(|s| s.is_none()).count()` -/
def missing (slots : List (Option FecPacket)) : Nat := slots.countP (·.isNone)

/-- The filled slots with their positions, in order. -/
def known (slots : List (Option FecPacket)) : List (Nat × AudioPacketHeader) :=
  slots.zipIdx.filterMap fun s => s.1.map fun p => (s.2, p.1)

/-- The value at slot `idx` on the line through the values `v0` at slot `i0`
and `v1` at slot `i1`, in `i64` arithmetic and clamped at zero. -/
def extrapolate (b : Build) (i0 i1 idx : Nat) (v0 v1 : UInt64) : Except Panic UInt64 := do
  let di : Int := max ((i1 : Int) - i0) 1
  let diff ← b.i64 (asI64 v1 - asI64 v0)
  let step := diff.tdiv di
  let d : Int := (idx : Int) - i0
  let shift ← b.i64 (step * d)
  let v ← b.i64 (asI64 v0 + shift)
  return asU64 (max v 0)

/-- PTS and sample offset of a recovered packet: linearly extrapolated from the
two nearest received packets, or copied when only one is known. -/
def timestamps (b : Build) (idx : Nat) (first : Nat × AudioPacketHeader)
    (rest : List (Nat × AudioPacketHeader)) : Except Panic (UInt64 × UInt64) :=
  match rest with
  | [] => .ok (first.2.ptsNs, first.2.sampleOffset)
  | second :: _ => do
    let pts ← extrapolate b first.1 second.1 idx first.2.ptsNs second.2.ptsNs
    let offset ← extrapolate b first.1 second.1 idx first.2.sampleOffset second.2.sampleOffset
    return (pts, offset)

def synthesizeHeader (b : Build) (r : FecReceiver) (idx : Nat) (payloadLen : UInt16) :
    Except Panic AudioPacketHeader :=
  match known r.slots with
  | [] => .error .indexOutOfBounds
  | (i0, h0) :: rest => do
    let t ← timestamps b idx (i0, h0) rest
    return {
      version := h0.version
      flags := PacketFlags.empty
      format := h0.format
      sequence := r.baseSeq.getD 0 + UInt16.ofNat idx
      streamId := h0.streamId
      ptsNs := t.1
      sampleOffset := t.2
      payloadLen
      fecGroupSize := r.groupSize
      fecIndex := UInt8.ofNat idx
      fecLenXor := 0 }

def takeGroup (r : FecReceiver) : FecReceiver × List FecPacket :=
  ({ r with prevBaseSeq := r.baseSeq, baseSeq := none, parity := none, slots := [] },
    r.slots.filterMap id)

/-- The payload rebuilt from the parity and the other payloads of the group:
`recovered[j] ^= b` for every byte that the parity reaches, then a cut to the
length left over in `lenXor`. -/
def rebuiltPayload (others : List (List UInt8)) (lenXor : UInt16) (parityPayload : List UInt8) :
    List UInt8 :=
  let recovered := others.foldl (xorInto (· ^^^ ·)) parityPayload
  let recoveredLen := (others.map fun p => UInt16.ofNat p.length).foldl (· ^^^ ·) lenXor
  recovered.take recoveredLen.toNat

/-- Rebuild the one missing packet from the parity `(lenXor, parityPayload)`
and emit the group. -/
def rebuild (b : Build) (r : FecReceiver) (lenXor : UInt16) (parityPayload : List UInt8) :
    Except Panic (FecReceiver × List FecPacket) :=
  match r.slots.findIdx? (·.isNone) with
  | none => .error .expectFailed
  | some idx => do
    let recovered := rebuiltPayload ((r.slots.filterMap id).map (·.2)) lenXor parityPayload
    let header ← synthesizeHeader b r idx (UInt16.ofNat recovered.length)
    let total ← b.u64 (r.recovered + 1)
    return { r with slots := r.slots.set idx (some (header, recovered)),
                    parity := none, recovered := total }.takeGroup

/-- Emit the group if complete, or recover the single missing packet if the
parity is available. -/
def tryComplete (b : Build) (r : FecReceiver) : Except Panic (FecReceiver × List FecPacket) :=
  if missing r.slots = 0 ∧ r.slots ≠ [] then .ok r.takeGroup
  else if missing r.slots = 1 then
    match r.parity with
    | none => .ok (r, [])
    | some (lenXor, parityPayload) => r.rebuild b lenXor parityPayload
  else .ok (r, [])

/-- Emit whatever the current group holds, in order (missing packets are
counted as lost). -/
def flush (b : Build) (r : FecReceiver) : Except Panic (FecReceiver × List FecPacket) :=
  if r.baseSeq.isNone then .ok (r, [])
  else do
    let lost ← b.u64 (r.lost + missing r.slots)
    return { r with lost }.takeGroup

/-- A packet that carries parity instead of audio. -/
def isParity (p : FecPacket) : Bool := p.1.flags.contains PacketFlags.fec

/-- The base sequence a packet claims: a parity follows its group's last data
packet, a data packet lies `fecIndex` after the first. -/
def parityBase (p : FecPacket) : UInt16 := p.1.sequence - p.1.fecGroupSize.toUInt16

def dataBase (p : FecPacket) : UInt16 := p.1.sequence - p.1.fecIndex.toUInt16

/-- Start assembling the group that the data packet `p` belongs to. -/
def openGroup (r : FecReceiver) (p : FecPacket) : FecReceiver :=
  { r with
    baseSeq := some (dataBase p)
    groupSize := p.1.fecGroupSize
    slots := List.replicate p.1.fecGroupSize.toNat none
    parity := none }

/-- Put a data packet in its slot, if the group has one at that index. -/
def store (r : FecReceiver) (p : FecPacket) : FecReceiver :=
  if p.1.fecIndex.toNat < r.slots.length then
    { r with slots := r.slots.set p.1.fecIndex.toNat (some p) }
  else r

/-- Feed a received packet; returns the packets to deliver, in order. -/
def feed (b : Build) (r : FecReceiver) (p : FecPacket) :
    Except Panic (FecReceiver × List FecPacket) :=
  if p.1.fecGroupSize = 0 ∧ ¬ isParity p then do
    -- no FEC on this packet: emit directly, flushing any group first
    let (r, out) ← r.flush b
    return (r, out ++ [p])
  else if isParity p then
    if r.baseSeq = some (parityBase p) then
      { r with parity := some (p.1.fecLenXor, p.2) }.tryComplete b
    else
      -- parity for an already flushed (or never seen) group: useless
      .ok (r, [])
  else if r.prevBaseSeq = some (dataBase p) ∧ r.baseSeq ≠ some (dataBase p) then
    -- straggler from the previously flushed group
    .ok (r, [p])
  else if r.baseSeq ≠ some (dataBase p) then do
    -- group switch: flush whatever the previous group had
    let (r, out) ← r.flush b
    let (r, more) ← ((r.openGroup p).store p).tryComplete b
    return (r, out ++ more)
  else (r.store p).tryComplete b

/-- What the owner of a receiver does with it. -/
inductive Input where
  | packet (p : FecPacket)
  | flush
  deriving Repr, DecidableEq

def step (b : Build) (r : FecReceiver) : Input → Except Panic (FecReceiver × List FecPacket)
  | .packet p => r.feed b p
  | .flush => r.flush b

end FecReceiver

end Oaat.Core
