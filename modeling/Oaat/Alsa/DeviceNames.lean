/-
Oaat.Alsa.DeviceNames — from the listed device back to the opened one.

`aplay_line` puts the card's id and name, the device number and the PCM's names
between separators, and `plughw_from_aplay_line` cuts the line at the same
separators. `picked_device_iff` says for which cards the cuts are the seams: the
id must be there and free of whitespace, and the name must not bring the
separator in front of the device number, unless what it brings reads as the same
number.
-/
import Oaat.Endpoint.AlsaDevices
import Mathlib.Data.Bool.AllAny

namespace Oaat.Alsa

open Oaat.Endpoint Oaat.Lib Oaat.Lib.Text

theorem isWhitespace_of_digit {n : Nat} {c : Char} (h : c ∈ Nat.toDigits 10 n) :
    isWhitespace c = false :=
  isWhitespace_of_isDigit (isDigit_toDigits h)

/-! ## The device number -/

/-- What stands between the card's name and the line's end is read as this device
number. -/
def ReadsAs (device : UInt32) (behind : List Char) : Prop :=
  ∃ number rest, splitOnce ":".toList behind = some (number, rest) ∧
    parseU32 (trim number) = some device.toNat

/-- What follows the first separator that the card's name brings, if it brings one,
reads as the device's number. -/
def NameReadsBack (d : PlaybackDevice) : Prop :=
  ∀ before behind, splitOnce "], device ".toList d.cardName = some (before, behind) →
    ReadsAs d.device behind

/-- The end of a line, from the card's name on. -/
def deviceNumber (afterId : List Char) : Option Nat := do
  let (_, rest) ← splitOnce "], device ".toList afterId
  let (dev, _) ← splitOnce ":".toList rest
  parseU32 (trim dev)

/-- What is read from the text in front of the first colon. -/
theorem readNumber_eq (s : List Char) :
    (splitOnce ":".toList s).bind (fun r => parseU32 (trim r.1)) =
      if ':' ∈ s then parseU32 (trim (s.takeWhile (· ≠ ':'))) else none := by
  show (splitOnce [':'] s).bind _ = _
  rw [splitOnce_singleton]
  split <;> rfl

theorem readsAs_iff (device : UInt32) (s : List Char) :
    ReadsAs device s ↔
      (splitOnce ":".toList s).bind (fun r => parseU32 (trim r.1)) = some device.toNat := by
  simp only [ReadsAs, Option.bind_eq_some_iff, Prod.exists]

/-- A number behind the card's name is read up to its colon, so the rest of the
line does not matter if the name's rest has one. If it has none, what is read goes
over the separator behind the name and is no number. -/
theorem readNumber_append (s digits t : List Char) :
    (splitOnce ":".toList (s ++ ("], device ".toList ++ (digits ++ ':' :: t)))).bind
        (fun r => parseU32 (trim r.1)) =
      (splitOnce ":".toList s).bind (fun r => parseU32 (trim r.1)) := by
  rw [readNumber_eq, readNumber_eq]
  have hcolon : ':' ∈ s ++ ("], device ".toList ++ (digits ++ ':' :: t)) := by simp
  rw [if_pos hcolon]
  by_cases hs : ':' ∈ s
  · have hlen : (s.takeWhile (· ≠ ':')).length ≠ s.length := by
      intro heq
      have hall := List.takeWhile_eq_self_iff.mp
        ((List.takeWhile_prefix (· ≠ ':')).eq_of_length heq) ':' hs
      simp at hall
    rw [if_pos hs, List.takeWhile_append, if_neg hlen]
  · rw [if_neg hs]
    have hall : ∀ c ∈ s, (decide (c ≠ ':')) = true := by
      intro c hc
      refine decide_eq_true ?_
      rintro rfl
      exact hs hc
    have hmem : ']' ∈ (s ++ ("], device ".toList ++ (digits ++ ':' :: t))).takeWhile (· ≠ ':') := by
      rw [List.takeWhile_append_of_pos hall]
      exact List.mem_append_right _ (by simp)
    exact parseUnsigned_of_mem (mem_trimBy hmem (by decide)) (by decide) (by decide)

/-- The line's own number. -/
theorem readNumber_digits (device : UInt32) (t : List Char) :
    (splitOnce ":".toList (Nat.toDigits 10 device.toNat ++ ':' :: t)).bind
      (fun r => parseU32 (trim r.1)) = some device.toNat := by
  have hall : ∀ c ∈ Nat.toDigits 10 device.toNat, (decide (c ≠ ':')) = true := by
    intro c hc
    refine decide_eq_true ?_
    rintro rfl
    have := isDigit_toDigits hc
    simp at this
  have htake : (Nat.toDigits 10 device.toNat ++ ':' :: t).takeWhile (· ≠ ':') =
      Nat.toDigits 10 device.toNat := by
    rw [List.takeWhile_append_of_pos hall]
    simp
  rw [readNumber_eq, if_pos (by simp), htake, trim,
    trimBy_of_none fun c hc => isWhitespace_of_digit hc, parseU32,
    parseUnsigned_toDigits device.toNat_lt]

/-- **The number that the line is read with** is the device's own exactly when the
name reads back. -/
theorem deviceNumber_iff (d : PlaybackDevice) (t : List Char) :
    deviceNumber (d.cardName ++ "], device ".toList ++
        (Nat.toDigits 10 d.device.toNat ++ ':' :: t)) = some d.device.toNat ↔
      NameReadsBack d := by
  have hsep : "], device ".toList = ']' :: ", device ".toList := rfl
  have hsplit := splitOnce_append (c := ']') (p := ", device ".toList) (by decide)
    (Nat.toDigits 10 d.device.toNat ++ ':' :: t) d.cardName
  rw [← hsep] at hsplit
  have hnumber : ∀ s, deviceNumber s = (splitOnce "], device ".toList s).bind fun r =>
      (splitOnce ":".toList r.2).bind fun r => parseU32 (trim r.1) := fun _ => rfl
  rw [hnumber, hsplit]
  unfold NameReadsBack
  cases h : splitOnce "], device ".toList d.cardName with
  | none => simpa using readNumber_digits d.device t
  | some r =>
    obtain ⟨before, behind⟩ := r
    simp only [Option.bind_some, List.append_assoc, readNumber_append, ← readsAs_iff]
    simp

/-! ## The line -/

theorem mem_toString_card {card : Int32} {c : Char} (h : c ∈ (toString card).toList) :
    c = '-' ∨ c.isDigit = true := by
  change c ∈ (Int.repr card.toInt).toList at h
  cases hcard : card.toInt with
  | ofNat n =>
    rw [hcard] at h
    simp only [Int.repr, Nat.toList_repr] at h
    exact .inr (isDigit_toDigits h)
  | negSucc n =>
    rw [hcard] at h
    simp only [Int.repr, String.toList_append, Nat.toList_repr] at h
    rcases List.mem_append.mp h with h | h
    · exact .inl (by simpa using h)
    · exact .inr (isDigit_toDigits h)

/-- What stands behind the device number. -/
def pcmText (d : PlaybackDevice) : List Char :=
  ' ' :: d.pcmId ++ " [".toList ++ d.pcmName ++ "]".toList

theorem aplayLine_eq (d : PlaybackDevice) :
    d.aplayLine = "card ".toList ++ ((toString d.card).toList ++ ": ".toList ++
      (d.cardId ++ " [".toList ++ (d.cardName ++ "], device ".toList ++
        (Nat.toDigits 10 d.device.toNat ++ ':' :: pcmText d)))) := by
  have hdevice : (toString d.device).toList = Nat.toDigits 10 d.device.toNat :=
    toList_toString d.device.toNat
  have hcolon : ": ".toList = [':', ' '] := rfl
  unfold PlaybackDevice.aplayLine
  simp only [hdevice, pcmText, hcolon, List.flatten_cons, List.flatten_nil, List.append_nil,
    List.append_assoc, List.cons_append, List.nil_append]

/-- The line of a card whose id brings no whitespace is cut behind the id. -/
theorem plughwFromAplayLine_line {d : PlaybackDevice}
    (hid : ∀ c ∈ d.cardId, isWhitespace c = false) :
    plughwFromAplayLine d.aplayLine =
      (deviceNumber (d.cardName ++ "], device ".toList ++
        (Nat.toDigits 10 d.device.toNat ++ ':' :: pcmText d))).bind fun dev =>
          if d.cardId.isEmpty then none
          else some ("plughw:CARD=".toList ++ d.cardId ++ ",DEV=".toList ++
            Nat.toDigits 10 dev) := by
  have hcard : splitOnce ": ".toList ((toString d.card).toList ++ ": ".toList ++
      (d.cardId ++ " [".toList ++ (d.cardName ++ "], device ".toList ++
        (Nat.toDigits 10 d.device.toNat ++ ':' :: pcmText d)))) =
      some ((toString d.card).toList, d.cardId ++ " [".toList ++ (d.cardName ++
        "], device ".toList ++ (Nat.toDigits 10 d.device.toNat ++ ':' :: pcmText d))) := by
    have hno : ':' ∉ (toString d.card).toList := by
      intro h
      rcases mem_toString_card h with h | h <;> simp at h
    refine (splitOnce_append (c := ':') (p := [' ']) (by decide) _ _).trans ?_
    rw [splitOnce_of_not_mem hno]
  have hsplit : splitOnce " [".toList (d.cardId ++ " [".toList ++ (d.cardName ++
      "], device ".toList ++ (Nat.toDigits 10 d.device.toNat ++ ':' :: pcmText d))) =
      some (d.cardId, d.cardName ++ "], device ".toList ++
        (Nat.toDigits 10 d.device.toNat ++ ':' :: pcmText d)) := by
    have hno : ' ' ∉ d.cardId := by
      intro h
      have := hid ' ' h
      simp [isWhitespace] at this
    refine (splitOnce_append (c := ' ') (p := ['[']) (by decide) _ _).trans ?_
    rw [splitOnce_of_not_mem hno]
  have htrim : trim d.cardId = d.cardId := by
    exact trimBy_of_none hid
  have hany : d.cardId.any isWhitespace = false := List.any_eq_false.mpr (by simpa using hid)
  rw [plughwFromAplayLine, aplayLine_eq, stripPrefix_append]
  simp only [Option.bind_eq_bind, Option.bind_some, hcard, hsplit, htrim, hany, Bool.or_false,
    toList_toString, deviceNumber, Option.bind_assoc]

/-- A translated name has a card id without whitespace. -/
theorem plughwFromAplayLine_shape {line p : List Char} (h : plughwFromAplayLine line = some p) :
    ∃ cardId dev, (∀ c ∈ cardId, isWhitespace c = false) ∧
      p = "plughw:CARD=".toList ++ cardId ++ ",DEV=".toList ++ Nat.toDigits 10 dev := by
  simp only [plughwFromAplayLine, Option.bind_eq_bind, Option.bind_eq_some_iff] at h
  obtain ⟨rest, -, ⟨card, rest₁⟩, -, ⟨cardId, rest₂⟩, -, ⟨name, rest₃⟩, -, ⟨dev, rest₄⟩, -, n, -,
    hout⟩ := h
  split at hout
  · cases hout
  · next hid =>
    rw [Bool.or_eq_true, not_or, List.any_eq_true] at hid
    obtain ⟨-, hid⟩ := hid
    refine ⟨trim cardId, n, ?_, ?_⟩
    · intro c hc
      by_contra hw
      exact hid ⟨c, hc, by simpa using hw⟩
    · rw [← Option.some.inj hout, toList_toString]

/-- A line that `aplay_line` printed names nothing that ALSA opens as it stands. -/
theorem resolveDeviceName_line (d : PlaybackDevice) :
    resolveDeviceName (some d.aplayLine) =
      (plughwFromAplayLine d.aplayLine).getD "default".toList := by
  have hprefix : ∀ (pat : List Char) {p : List Char} {c : Char}, pat = c :: p → c ≠ 'c' →
      pat.isPrefixOf d.aplayLine = false := by
    rintro _ p c rfl hc
    rw [aplayLine_eq]
    exact Bool.eq_false_iff.mpr fun h =>
      hc (List.cons_prefix_cons.mp (List.isPrefixOf_iff_prefix.mp h)).1
  have hhw := hprefix "hw:".toList rfl (by decide)
  have hplughw := hprefix "plughw:".toList rfl (by decide)
  have hdefault := hprefix "default".toList rfl (by decide)
  have hsysdefault := hprefix "sysdefault:".toList rfl (by decide)
  unfold resolveDeviceName
  simp only [hhw, hplughw, hdefault, hsysdefault, Bool.or_false,
    Bool.false_eq_true, if_false]
  cases plughwFromAplayLine d.aplayLine <;> rfl

/-- Nothing that a line resolves to has whitespace. -/
theorem resolved_no_whitespace (line : List Char) :
    ∀ c ∈ (plughwFromAplayLine line).getD "default".toList, isWhitespace c = false := by
  cases h : plughwFromAplayLine line with
  | none => exact List.all_iff_forall_prop.mp (by decide)
  | some p =>
    obtain ⟨cardId, dev, hid, rfl⟩ := plughwFromAplayLine_shape h
    have hplughw : ∀ c ∈ "plughw:CARD=".toList, isWhitespace c = false :=
      List.all_iff_forall_prop.mp (by decide)
    have hdev : ∀ c ∈ ",DEV=".toList, isWhitespace c = false :=
      List.all_iff_forall_prop.mp (by decide)
    intro c hc
    simp only [Option.getD_some, List.mem_append] at hc
    rcases hc with ((hc | hc) | hc) | hc
    · exact hplughw c hc
    · exact hid c hc
    · exact hdev c hc
    · exact isWhitespace_of_digit hc

/-- A card without an id is opened by its number, which no line is translated to. -/
theorem resolved_ne_number (d : PlaybackDevice) (line : List Char) :
    (plughwFromAplayLine line).getD "default".toList ≠
      "plughw:".toList ++
        ((toString d.card).toList ++ ",".toList ++ (toString d.device).toList) := by
  cases h : plughwFromAplayLine line with
  | none =>
    intro heq
    have hd : 'd' = 'p' := (List.cons.inj heq).1
    simp at hd
  | some p =>
    obtain ⟨cardId, dev, -, rfl⟩ := plughwFromAplayLine_shape h
    intro heq
    have hsplit : "plughw:CARD=".toList = "plughw:".toList ++ "CARD=".toList := rfl
    rw [Option.getD_some, hsplit, List.append_assoc, List.append_assoc, List.append_assoc,
      List.append_cancel_left_eq] at heq
    cases hcard : (toString d.card).toList with
    | nil =>
      rw [hcard] at heq
      have hc : 'C' = ',' := (List.cons.inj heq).1
      simp at hc
    | cons c cs =>
      rw [hcard] at heq
      obtain rfl : 'C' = c := (List.cons.inj heq).1
      have hmem : 'C' ∈ (toString d.card).toList := by simp [hcard]
      rcases mem_toString_card hmem with h | h <;> simp at h

/-- **The device that is picked.** The line printed for a device is resolved to the
name of that device exactly when the card has an id without whitespace and the
card's name reads back. -/
theorem picked_device_iff (d : PlaybackDevice) :
    resolveDeviceName (some d.aplayLine) = d.plughwName ↔
      d.cardId ≠ [] ∧ (∀ c ∈ d.cardId, isWhitespace c = false) ∧ NameReadsBack d := by
  have hdevice : (toString d.device).toList = Nat.toDigits 10 d.device.toNat :=
    toList_toString d.device.toNat
  rw [resolveDeviceName_line]
  by_cases hnil : d.cardId = []
  · refine iff_of_false ?_ (fun h => h.1 hnil)
    have hname : d.plughwName = "plughw:".toList ++
        ((toString d.card).toList ++ ",".toList ++ (toString d.device).toList) := by
      simp only [PlaybackDevice.plughwName, hnil, List.isEmpty_nil, if_true, List.append_assoc]
    rw [hname]
    exact resolved_ne_number d _
  · have hname : d.plughwName = "plughw:CARD=".toList ++ d.cardId ++ ",DEV=".toList ++
        Nat.toDigits 10 d.device.toNat := by
      simp only [PlaybackDevice.plughwName, List.isEmpty_eq_false_iff.mpr hnil, hdevice,
        Bool.false_eq_true, if_false]
    rw [hname]
    by_cases hid : ∀ c ∈ d.cardId, isWhitespace c = false
    · rw [plughwFromAplayLine_line hid, ← deviceNumber_iff d (pcmText d),
        and_iff_right hnil, and_iff_right hid]
      cases hnumber : deviceNumber (d.cardName ++ "], device ".toList ++
          (Nat.toDigits 10 d.device.toNat ++ ':' :: pcmText d)) with
      | none =>
        refine iff_of_false ?_ (by simp)
        intro heq
        have hd : 'd' = 'p' := (List.cons.inj heq).1
        simp at hd
      | some n =>
        simp only [Option.bind_some, List.isEmpty_eq_false_iff.mpr hnil, Bool.false_eq_true,
          if_false, Option.getD_some, List.append_cancel_left_eq, Option.some.injEq]
        exact ⟨toDigits_injective, fun h => by rw [h]⟩
    · refine iff_of_false ?_ (fun h => hid h.2.1)
      intro heq
      refine hid fun c hc => resolved_no_whitespace d.aplayLine c ?_
      rw [heq]
      simp [hc]

/-- A USB device whose name brings a colon but no separator. -/
example : NameReadsBack
    { card := 3, cardId := "Hugo2".toList, cardName := "Chord: Hugo2".toList, device := 0
      pcmId := [], pcmName := [] } := by
  intro before behind h
  simp [splitOnce, List.isPrefixOf] at h

/-- A card whose id ALSA does not report is listed, and opened as `default`. -/
theorem cardWithoutId_plays_on_default :
    ∃ d : PlaybackDevice,
      d.plughwName = "plughw:1,0".toList ∧
      resolveDeviceName (some d.aplayLine) = "default".toList :=
  ⟨{ card := 1, cardId := [], cardName := "Some DAC".toList, device := 0
     pcmId := "USB Audio".toList, pcmName := "USB Audio".toList }, by decide +kernel,
    by decide +kernel⟩

end Oaat.Alsa
