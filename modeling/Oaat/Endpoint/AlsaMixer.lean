/-
Oaat.Endpoint.AlsaMixer — the hardware volume scale
(`oaat-endpoint/src/alsa_mixer.rs`).

The protocol's level 0–100 is put onto the control's raw range, and a raw
value is read back as a level, in `i32` throughout. The `amixer` processes and
the parsing of what they print are left out.
-/
import Oaat.Lib.MachineInt

namespace Oaat.Endpoint

open Oaat.Lib

/-- `i32` division by a divisor that is not zero: it truncates, and the one
quotient that does not fit panics under either profile. -/
def divI32 (x y : Int32) : Except Panic Int32 :=
  if InI32 (x.toInt.tdiv y.toInt) then .ok (.ofInt (x.toInt.tdiv y.toInt))
  else .error .overflow

/-- Map protocol level 0–100 onto the control's `[min, max]` range (rounded). -/
def scaleLevelToRaw (b : Build) (level : UInt8) (min max : Int32) : Except Panic Int32 := do
  let level : Int := (level.toNat.min 100 : Nat)
  let span ← b.i32 (max.toInt - min.toInt)
  let product ← b.i32 (level * span.toInt)
  let sum ← b.i32 (product.toInt + 50)
  b.i32 (min.toInt + sum.toInt.tdiv 100)

/-- Inverse of `scaleLevelToRaw`. -/
def scaleRawToLevel (b : Build) (raw min max : Int32) : Except Panic UInt8 := do
  let span ← b.i32 (max.toInt - min.toInt)
  if span = 0 then return 0
  let above ← b.i32 (raw.toInt - min.toInt)
  let product ← b.i32 (above.toInt * 100)
  let sum ← b.i32 (product.toInt + span.toInt.tdiv 2)
  let pct ← divI32 sum span
  return .ofNat (pct.toInt.toNat.min 100)

end Oaat.Endpoint
