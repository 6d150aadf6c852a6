/-
Oaat.Endpoint.DsdProbe — the DAC that the endpoint plays on when none is
configured, and the native DSD rates that it announces
(`oaat-endpoint/src/alsa_direct.rs`: `choose_dac`, `announced_dsd_max`).

What the cards are called and what a card answers when it is probed are
inputs. `to_lowercase` is one too: the names are any text.
-/
import Oaat.Endpoint.AlsaOutput
import Mathlib.Data.List.TakeWhile

namespace Oaat.Endpoint

open Oaat.Core Oaat.Lib.Text

/-! ## The default DAC -/

/-- A `PlaybackDevice` with what the choice of a DAC reads besides its names. -/
structure SoundCard extends PlaybackDevice where
  /-- Kernel driver. -/
  driver : List Char
  deriving Repr, DecidableEq

/-- `str::contains` -/
def contains (pat s : List Char) : Bool := (splitOnce pat s).isSome

namespace SoundCard

section

variable (toLowercase : List Char → List Char)

def text (d : SoundCard) : List Char :=
  toLowercase (" ".toList.intercalate [d.cardId, d.cardName, d.pcmId, d.pcmName])

def isHdmi (d : SoundCard) : Bool := contains "hdmi".toList (d.text toLowercase)

def isUsb (d : SoundCard) : Bool :=
  d.driver = "USB-Audio".toList || contains "usb".toList (d.text toLowercase)

/-- The headphone jack and other on-board outputs. -/
def isBuiltin (d : SoundCard) : Bool :=
  let t := d.text toLowercase
  contains "bcm2835".toList t || contains "headphones".toList t || contains "builtin".toList t

end

end SoundCard

/-- A USB card, else one named "DAC", else the only card left without HDMI and
on-board outputs. -/
def chooseDac (toLowercase : List Char → List Char) (devices : List SoundCard) :
    Option (List Char) :=
  let candidates := devices.filter fun d => !d.isHdmi toLowercase
  match candidates.find? fun d => d.isUsb toLowercase with
  | some d => some d.plughwName
  | none =>
    match candidates.find? fun d => contains "dac".toList (d.text toLowercase) with
    | some d => some d.plughwName
    | none =>
      let external := candidates.filter fun d => !d.isBuiltin toLowercase
      match external with
      | [] => none
      | first :: _ =>
        if external.all fun d => d.card = first.card then some first.plughwName else none

/-! ## The announced rates -/

def DSD_MULTIPLIERS : List UInt16 := [64, 128, 256, 512]

/-- Why the probe returned no rates. -/
inductive DsdProbeError where
  /-- The device opened and refused the format. -/
  | refused (text : String)
  /-- The probe could not run at all. -/
  | unavailable (text : String)
  deriving Repr, DecidableEq

/-- The `DSD_U32_BE` frame rate of a multiplier. -/
def dsdU32Rate (multiplier : UInt16) : UInt32 := multiplier.toUInt32 * 44100 / 32

/-- What a device answers to the rates that it is probed with. -/
abbrev DsdProbe := List Char → List UInt32 → Except DsdProbeError (List UInt32)

/-- The highest multiplier to announce: its rate and every lower one's are
accepted. -/
def announcedDsdMax (deviceName : Option (List Char)) (probe : DsdProbe) : Option UInt16 :=
  let device := dsdHwDevice (resolveDeviceName deviceName)
  if "hw:".toList.isPrefixOf device then
    match probe device (DSD_MULTIPLIERS.map dsdU32Rate) with
    | .ok accepted =>
      (DSD_MULTIPLIERS.takeWhile fun m => accepted.contains (dsdU32Rate m)).getLast?
    | .error _ => none
  else none

/-! ## What is announced -/

/-- In ascending order, all up to the last of the first that satisfy `p` do. -/
theorem of_le_getLast_takeWhile {p : UInt16 → Bool} {ms : List UInt16}
    (hsorted : ms.Pairwise (· < ·)) {m last : UInt16} (hm : m ∈ ms)
    (hlast : (ms.takeWhile p).getLast? = some last) (hle : m ≤ last) : p m = true := by
  have hin : last ∈ ms.takeWhile p := List.mem_of_getLast? hlast
  rw [← List.takeWhile_append_dropWhile (p := p) (l := ms)] at hsorted hm
  rcases List.mem_append.mp hm with hm | hm
  · exact List.mem_takeWhile_imp hm
  · have hlt := (List.pairwise_append.mp hsorted).2.2 last hin m hm
    exact absurd hle (UInt16.not_le.mpr hlt)

theorem pairwise_multipliers : DSD_MULTIPLIERS.Pairwise (· < ·) := by decide

/-- **Everything up to the announced maximum was accepted**, by the device that
native DSD opens. -/
theorem announcedDsdMax_accepted {deviceName : Option (List Char)} {probe : DsdProbe}
    {highest m : UInt16} (h : announcedDsdMax deviceName probe = some highest)
    (hm : m ∈ DSD_MULTIPLIERS) (hle : m ≤ highest) :
    ∃ accepted,
      probe (dsdHwDevice (resolveDeviceName deviceName)) (DSD_MULTIPLIERS.map dsdU32Rate) =
        .ok accepted ∧ dsdU32Rate m ∈ accepted := by
  unfold announcedDsdMax at h
  dsimp only at h
  split at h
  next =>
    split at h
    next accepted hprobe =>
      refine ⟨accepted, hprobe, ?_⟩
      have haccepted := of_le_getLast_takeWhile pairwise_multipliers hm h hle
      simpa using haccepted
    next => cases h
  next => cases h

/-! ## What is chosen -/

/-- **HDMI is never chosen**, and a card is not passed over for one that is not
a USB card if it is. -/
theorem chooseDac_spec {toLowercase : List Char → List Char} {devices : List SoundCard}
    {name : List Char} (h : chooseDac toLowercase devices = some name) :
    ∃ d ∈ devices, d.isHdmi toLowercase = false ∧ name = d.plughwName ∧
      (d.isUsb toLowercase = false →
        ∀ d' ∈ devices, d'.isUsb toLowercase = true → d'.isHdmi toLowercase = true) := by
  have hcandidate : ∀ d ∈ devices.filter (fun d => !d.isHdmi toLowercase),
      d ∈ devices ∧ d.isHdmi toLowercase = false := by
    intro d hd
    simpa using hd
  unfold chooseDac at h
  dsimp only at h
  split at h
  next d hd =>
    cases h
    obtain ⟨hmem, hhdmi⟩ := hcandidate d (List.mem_of_find?_eq_some hd)
    have husb := List.find?_some hd
    exact ⟨d, hmem, hhdmi, rfl, fun hnot => absurd husb (by simp [hnot])⟩
  next hnone =>
    have hpassed : ∀ d' ∈ devices, d'.isUsb toLowercase = true →
        d'.isHdmi toLowercase = true := by
      intro d' hd' husb
      by_contra hhdmi
      have hnot := List.find?_eq_none.mp hnone d' (by simp [hd', hhdmi])
      exact hnot husb
    split at h
    next d hd =>
      cases h
      obtain ⟨hmem, hhdmi⟩ := hcandidate d (List.mem_of_find?_eq_some hd)
      exact ⟨d, hmem, hhdmi, rfl, fun _ => hpassed⟩
    next =>
      split at h
      next => cases h
      next first rest hexternal =>
        split at h
        next =>
          cases h
          have hfirst : first ∈
              (devices.filter fun d => !d.isHdmi toLowercase).filter
                fun d => !d.isBuiltin toLowercase := by
            rw [hexternal]
            exact List.mem_cons_self
          obtain ⟨hmem, hhdmi⟩ := hcandidate first (List.mem_of_mem_filter hfirst)
          exact ⟨first, hmem, hhdmi, rfl, fun _ => hpassed⟩
        next => cases h

end Oaat.Endpoint
