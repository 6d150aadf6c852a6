/-
Oaat.Core.Capability — capability strings
(`oaat-core/src/capability.rs`: `Capabilities`).

Strings are lists of characters. The variables of `parse` are a `Capabilities`
that starts from what they start from.
-/
import Oaat.Core.Basic
import Oaat.Lib.Text
import Mathlib.Algebra.Group.Nat.Defs

namespace Oaat.Core

open Oaat.Lib

structure Capabilities where
  pcmMaxRateKhz : UInt32
  pcmMaxBits : UInt8
  dsdMaxMultiplier : Option UInt16
  flac : Bool
  opus : Bool
  truehd : Bool
  eac3 : Bool
  deriving Repr, DecidableEq

namespace Capabilities

def unset : Capabilities :=
  { pcmMaxRateKhz := 0, pcmMaxBits := 0, dsdMaxMultiplier := none, flac := false, opus := false
    truehd := false, eac3 := false }

/-- `parse::<u32>`, `parse::<u8>` and `parse::<u16>`. -/
def parseU32 (s : List Char) : Option UInt32 := (Text.parseUnsigned (2 ^ 32) s).map .ofNat

def parseU8 (s : List Char) : Option UInt8 := (Text.parseUnsigned (2 ^ 8) s).map .ofNat

def parseU16 (s : List Char) : Option UInt16 := (Text.parseUnsigned (2 ^ 16) s).map .ofNat

/-- One part between commas. -/
def parsePart (s : List Char) (caps : Capabilities) (part : List Char) :
    Except OaatError Capabilities :=
  let part := Text.trimBy Text.isWhitespace part
  match Text.stripPrefix "pcm:".toList part with
  | some pcm =>
    match Text.splitOnce "/".toList pcm with
    | none => .error (.invalidCapabilityString s)
    | some (rateS, bitsS) =>
      match parseU32 rateS with
      | none => .error (.invalidCapabilityString s)
      | some rate =>
        match parseU8 bitsS with
        | none => .error (.invalidCapabilityString s)
        | some bits => .ok { caps with pcmMaxRateKhz := rate, pcmMaxBits := bits }
  | none =>
    match Text.stripPrefix "dsd:".toList part with
    | some dsd =>
      match parseU16 dsd with
      | none => .error (.invalidCapabilityString s)
      | some multiplier => .ok { caps with dsdMaxMultiplier := some multiplier }
    | none =>
      if part = "flac".toList then .ok { caps with flac := true }
      else if part = "opus".toList then .ok { caps with opus := true }
      else if part = "truehd".toList then .ok { caps with truehd := true }
      else if part = "eac3".toList then .ok { caps with eac3 := true }
      else .ok caps

def parse (s : List Char) : Except OaatError Capabilities := do
  let caps ← (s.splitOn ',').foldlM (parsePart s) unset
  if caps.pcmMaxRateKhz = 0 then .error (.invalidCapabilityString s)
  else .ok caps

def pcmMaxRateHz (caps : Capabilities) : UInt32 := caps.pcmMaxRateKhz * 1000

/-- `Display` -/
def display (caps : Capabilities) : List Char :=
  ["pcm:".toList, (toString caps.pcmMaxRateKhz).toList, "/".toList,
    (toString caps.pcmMaxBits).toList,
    match caps.dsdMaxMultiplier with
    | some dsd => ",dsd:".toList ++ (toString dsd).toList
    | none => [],
    if caps.flac then ",flac".toList else [],
    if caps.opus then ",opus".toList else [],
    if caps.truehd then ",truehd".toList else [],
    if caps.eac3 then ",eac3".toList else []].flatten

end Capabilities

end Oaat.Core
