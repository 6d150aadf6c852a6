/-
Oaat.Core.Time — the clock of a process (`oaat-core/src/time.rs`).

`Instant` never steps, and `SystemTime` may at any time. `AnchoredClock` reads
the wall clock once, and then advances with `Instant` alone. A reading of
`Instant` is the nanoseconds since an origin of the machine's own; an anchor
is read in three steps, and time passes between them.
-/
import Mathlib.Algebra.Group.Nat.Defs

namespace Oaat.Core

structure AnchoredClock where
  anchorWallNs : UInt64
  anchorMonoNs : UInt64
  deriving Repr, DecidableEq

namespace AnchoredClock

/-- The sources are read once each, `mono_ns` first. -/
def withSources (wallNs monoNs : UInt64) : AnchoredClock :=
  { anchorWallNs := wallNs, anchorMonoNs := monoNs }

/-- `mono_ns()` is `monoNs` now; both operations saturate. -/
def nowNs (c : AnchoredClock) (monoNs : UInt64) : UInt64 :=
  let elapsed := monoNs.toNat - c.anchorMonoNs.toNat
  .ofNat (min (c.anchorWallNs.toNat + elapsed) (2 ^ 64 - 1))

end AnchoredClock

/-- What the clocks of a machine show: `Instant`, and `SystemTime` since the epoch. -/
structure Clocks where
  instant : Nat
  wallNs : UInt64
  deriving Repr, DecidableEq

/-- The clock that `AnchoredClock::system` builds, with the origin that its
`mono_ns` holds. -/
structure SystemClock where
  origin : Nat
  clock : AnchoredClock
  deriving Repr, DecidableEq

namespace SystemClock

/-- `origin.elapsed().as_nanos() as u64` -/
def monoNs (origin : Nat) (c : Clocks) : UInt64 := .ofNat (c.instant - origin)

/-- `AnchoredClock::system`: the readings for the origin, for the monotonic
anchor and for the wall clock. -/
def system (origin mono wall : Clocks) : SystemClock :=
  { origin := origin.instant
    clock := .withSources wall.wallNs (monoNs origin.instant mono) }

def nowNs (s : SystemClock) (now : Clocks) : UInt64 := s.clock.nowNs (monoNs s.origin now)

end SystemClock

/-- A call of `now_ns()`: what the clocks show when it reads them. The first
three readings are taken by the first call only. -/
structure NowCall where
  origin : Clocks
  mono : Clocks
  wall : Clocks
  now : Clocks

/-- `now_ns()`: `CLOCK` is set by the first call. -/
def nowNs (lock : Option SystemClock) (c : NowCall) : SystemClock × UInt64 :=
  let clock := lock.getD (.system c.origin c.mono c.wall)
  (clock, clock.nowNs c.now)

/-- The values of a process' calls. -/
def nowNsAll : Option SystemClock → List NowCall → List UInt64
  | _, [] => []
  | lock, c :: calls =>
    let (clock, ns) := nowNs lock c
    ns :: nowNsAll (some clock) calls

end Oaat.Core
