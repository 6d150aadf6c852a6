/-
Oaat.Endpoint.AlsaDevices — the device name that the ALSA output opens
(`oaat-endpoint/src/alsa_direct.rs`: `resolve_device_name`,
`plughw_from_aplay_line`, `dsd_hw_device`), and the one it lists
(`PlaybackDevice`).

Names are lists of characters.
-/
import Oaat.Lib.Text
import Mathlib.Algebra.Group.Nat.Defs

namespace Oaat.Endpoint

open Oaat.Lib.Text

/-- `str::trim` -/
def trim (s : List Char) : List Char := trimBy isWhitespace s

/-- `parse::<u32>` -/
def parseU32 (s : List Char) : Option Nat := parseUnsigned (2 ^ 32) s

/-- `card 1: Hugo2 [Chord Hugo2], device 0: USB Audio [USB Audio]` to
`plughw:CARD=Hugo2,DEV=0`. -/
def plughwFromAplayLine (line : List Char) : Option (List Char) := do
  let rest ← stripPrefix "card ".toList line
  let (_, rest) ← splitOnce ": ".toList rest
  let (cardId, rest) ← splitOnce " [".toList rest
  let (_, rest) ← splitOnce "], device ".toList rest
  let (dev, _) ← splitOnce ":".toList rest
  let dev ← parseU32 (trim dev)
  let cardId := trim cardId
  if cardId.isEmpty || cardId.any isWhitespace then none
  else some ("plughw:CARD=".toList ++ cardId ++ ",DEV=".toList ++ (toString dev).toList)

/-- The name the writer opens for the configured one. -/
def resolveDeviceName (requested : Option (List Char)) : List Char :=
  match requested with
  | none => "default".toList
  | some name =>
    if "hw:".toList.isPrefixOf name || "plughw:".toList.isPrefixOf name ||
        "default".toList.isPrefixOf name || "sysdefault:".toList.isPrefixOf name then name
    else
      match plughwFromAplayLine name with
      | some plughw => plughw
      | none => "default".toList

/-- A playback PCM of an ALSA card. -/
structure PlaybackDevice where
  card : Int32
  cardId : List Char
  cardName : List Char
  device : UInt32
  pcmId : List Char
  pcmName : List Char
  deriving Repr, DecidableEq

namespace PlaybackDevice

/-- As `aplay -l` lists it. -/
def aplayLine (d : PlaybackDevice) : List Char :=
  ["card ".toList, (toString d.card).toList, ": ".toList, d.cardId, " [".toList, d.cardName,
    "], device ".toList, (toString d.device).toList, ": ".toList, d.pcmId, " [".toList, d.pcmName,
    "]".toList].flatten

/-- The name that the output opens for PCM. -/
def plughwName (d : PlaybackDevice) : List Char :=
  if d.cardId.isEmpty then
    "plughw:".toList ++ (toString d.card).toList ++ ",".toList ++ (toString d.device).toList
  else
    "plughw:CARD=".toList ++ d.cardId ++ ",DEV=".toList ++ (toString d.device).toList

end PlaybackDevice

/-- A raw device suitable for native DSD. -/
def dsdHwDevice (device : List Char) : List Char :=
  if "hw:".toList.isPrefixOf device then device
  else
    match stripPrefix "sysdefault:CARD=".toList device with
    | some rest => "hw:CARD=".toList ++ trim (rest.takeWhile (· ≠ ',')) ++ ",DEV=0".toList
    | none =>
      match stripPrefix "plughw:".toList device with
      | some rest => "hw:".toList ++ rest
      | none => device

end Oaat.Endpoint
