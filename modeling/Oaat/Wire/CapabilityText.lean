/-
Oaat.Wire.CapabilityText — capability strings and what is read from them.

A part of a capability string either names a capability, with its value or with
one that does not parse, or is skipped (`Part`). `parse` depends on the list of
these only (`parse_eq_result`), and parts that name different capabilities can be
taken in any order (`Part.apply_comm`). Hence the two results: what `display`
prints is read back, and a string that names each capability at most once may be
permuted, padded and mixed with unknown parts.
-/
import Oaat.Core.Capability
import Mathlib.Data.Bool.AllAny
import Mathlib.Data.List.Perm.Basic
import Mathlib.Data.List.Pairwise

namespace Oaat.Wire

open Oaat.Core Oaat.Lib

/-! ## Parts -/

inductive Capability where
  | pcm | dsd | flac | opus | truehd | eac3
  deriving Repr, DecidableEq

/-- A part of a capability string: a value is `none` where it does not parse. -/
inductive Part where
  | pcm (limits : Option (UInt32 × UInt8))
  | dsd (multiplier : Option UInt16)
  | flac | opus | truehd | eac3
  | unknown
  deriving Repr, DecidableEq

namespace Part

/-- The capability that a part names. -/
def names : Part → Option Capability
  | pcm _ => some .pcm
  | dsd _ => some .dsd
  | flac => some .flac
  | opus => some .opus
  | truehd => some .truehd
  | eac3 => some .eac3
  | unknown => none

/-- The capabilities after a part, if its value parses. -/
def apply (part : Part) (caps : Capabilities) : Option Capabilities :=
  match part with
  | pcm limits => limits.map fun l => { caps with pcmMaxRateKhz := l.1, pcmMaxBits := l.2 }
  | dsd multiplier => multiplier.map fun m => { caps with dsdMaxMultiplier := some m }
  | flac => some { caps with flac := true }
  | opus => some { caps with opus := true }
  | truehd => some { caps with truehd := true }
  | eac3 => some { caps with eac3 := true }
  | unknown => some caps

end Part

/-- The limits of a `pcm:` part, from behind its prefix. -/
def pcmLimits (pcm : List Char) : Option (UInt32 × UInt8) :=
  (Text.splitOnce "/".toList pcm).bind fun (rateS, bitsS) =>
    (Capabilities.parseU32 rateS).bind fun rate =>
      (Capabilities.parseU8 bitsS).map fun bits => (rate, bits)

/-- What a part of a string is, without the whitespace around it. -/
def partOf (part : List Char) : Part :=
  let part := Text.trimBy Text.isWhitespace part
  match Text.stripPrefix "pcm:".toList part with
  | some pcm => .pcm (pcmLimits pcm)
  | none =>
    match Text.stripPrefix "dsd:".toList part with
    | some dsd => .dsd (Capabilities.parseU16 dsd)
    | none =>
      if part = "flac".toList then .flac
      else if part = "opus".toList then .opus
      else if part = "truehd".toList then .truehd
      else if part = "eac3".toList then .eac3
      else .unknown

/-- `parse` fails with the string it was given. -/
def orInvalid {α : Type} (s : List Char) (r : Option α) : Except OaatError α :=
  match r with
  | some a => .ok a
  | none => .error (.invalidCapabilityString s)

theorem parsePart_eq (s : List Char) (caps : Capabilities) (part : List Char) :
    Capabilities.parsePart s caps part = orInvalid s ((partOf part).apply caps) := by
  simp only [Capabilities.parsePart, partOf, pcmLimits]
  cases Text.stripPrefix "pcm:".toList (Text.trimBy Text.isWhitespace part) with
  | some pcm =>
    cases hsplit : Text.splitOnce "/".toList pcm with
    | none =>
      simp only [hsplit]
      rfl
    | some r =>
      cases hrate : Capabilities.parseU32 r.1 with
      | none =>
        simp only [hsplit, hrate, Option.bind_some]
        rfl
      | some rate =>
        cases hbits : Capabilities.parseU8 r.2 <;>
          simp only [hsplit, hrate, hbits, Option.bind_some] <;> rfl
  | none =>
    cases Text.stripPrefix "dsd:".toList (Text.trimBy Text.isWhitespace part) with
    | some dsd => cases hdsd : Capabilities.parseU16 dsd <;> simp only [hdsd] <;> rfl
    | none =>
      simp only
      split_ifs <;> rfl

/-! ## The result of a list of parts -/

/-- One part more, unless an earlier one has failed. -/
def addPart (caps : Option Capabilities) (part : Part) : Option Capabilities :=
  caps.bind part.apply

/-- A string without a PCM rate fails as well. -/
def result (parts : List Part) : Option Capabilities :=
  (parts.foldl addPart (some Capabilities.unset)).filter fun caps => caps.pcmMaxRateKhz ≠ 0

theorem foldl_addPart_none (parts : List Part) : parts.foldl addPart none = none := by
  induction parts with
  | nil => rfl
  | cons part parts ih => exact ih

theorem foldlM_parsePart (s : List Char) : ∀ (parts : List (List Char)) (caps : Capabilities),
    parts.foldlM (Capabilities.parsePart s) caps =
      orInvalid s ((parts.map partOf).foldl addPart (some caps))
  | [], _ => rfl
  | part :: parts, caps => by
      rw [List.foldlM_cons, parsePart_eq, List.map_cons, List.foldl_cons, addPart, Option.bind_some]
      cases (partOf part).apply caps with
      | none =>
        rw [foldl_addPart_none]
        rfl
      | some caps' => exact foldlM_parsePart s parts caps'

/-- **What a capability string says** is a function of its parts. -/
theorem parse_eq_result (s : List Char) :
    Capabilities.parse s = orInvalid s (result ((s.splitOn ',').map partOf)) := by
  rw [Capabilities.parse, foldlM_parsePart, result]
  cases ((s.splitOn ',').map partOf).foldl addPart (some Capabilities.unset) with
  | none => rfl
  | some caps =>
    by_cases hrate : caps.pcmMaxRateKhz = 0
    · simp [orInvalid, hrate, Option.filter, bind, Except.bind]
    · simp [orInvalid, hrate, Option.filter, bind, Except.bind]

/-! ## Rearranged parts -/

/-- Parts that name different capabilities can be taken in either order. -/
theorem Part.apply_comm {a b : Part} (h : a.names = b.names → a = b) (caps : Capabilities) :
    (a.apply caps).bind b.apply = (b.apply caps).bind a.apply := by
  by_cases hnames : a.names = b.names
  · rw [h hnames]
  · rcases a with (_ | _) | (_ | _) | _ | _ | _ | _ | _ <;>
      rcases b with (_ | _) | (_ | _) | _ | _ | _ | _ | _ <;>
      first | rfl | exact absurd rfl hnames

/-- Only unknown parts name nothing. -/
theorem Part.eq_unknown {a : Part} (h : a.names = none) : a = .unknown := by
  cases a <;> first | rfl | cases h

/-- Each capability is named at most once. -/
def NamesOnce (parts : List (List Char)) : Prop :=
  (parts.filterMap fun part => (partOf part).names).Nodup

instance (parts : List (List Char)) : Decidable (NamesOnce parts) :=
  inferInstanceAs (Decidable (List.Nodup _))

/-- Whitespace aside, no capability and nothing with the prefix of one. -/
def IsUnknown (part : List Char) : Prop :=
  let part := Text.trimBy Text.isWhitespace part
  ¬ "pcm:".toList <+: part ∧ ¬ "dsd:".toList <+: part ∧
    part ∉ ["flac".toList, "opus".toList, "truehd".toList, "eac3".toList]

/-- The second list of parts comes from the first by permuting it, by whitespace
around parts, and by unknown parts between them. -/
inductive Rearranged : List (List Char) → List (List Char) → Prop where
  | perm {parts parts' : List (List Char)} (h : parts.Perm parts') : Rearranged parts parts'
  | pad (front back : List (List Char)) (part : List Char) {pre post : List Char}
      (hpre : ∀ c ∈ pre, Text.isWhitespace c = true)
      (hpost : ∀ c ∈ post, Text.isWhitespace c = true) :
      Rearranged (front ++ part :: back) (front ++ (pre ++ part ++ post) :: back)
  | unknown (front back : List (List Char)) {part : List Char} (h : IsUnknown part) :
      Rearranged (front ++ back) (front ++ part :: back)
  | trans {a b c : List (List Char)} (h₁ : Rearranged a b) (h₂ : Rearranged b c) : Rearranged a c

theorem partOf_pad {pre post : List Char} (part : List Char)
    (hpre : ∀ c ∈ pre, Text.isWhitespace c = true)
    (hpost : ∀ c ∈ post, Text.isWhitespace c = true) :
    partOf (pre ++ part ++ post) = partOf part := by
  simp only [partOf, Text.trimBy_append_right _ hpost, Text.trimBy_append_left _ hpre]

theorem partOf_unknown {part : List Char} (h : IsUnknown part) : partOf part = .unknown := by
  obtain ⟨hpcm, hdsd, hflags⟩ := h
  have hp : Text.stripPrefix "pcm:".toList (Text.trimBy Text.isWhitespace part) = none :=
    if_neg fun h => hpcm (List.isPrefixOf_iff_prefix.mp h)
  have hd : Text.stripPrefix "dsd:".toList (Text.trimBy Text.isWhitespace part) = none :=
    if_neg fun h => hdsd (List.isPrefixOf_iff_prefix.mp h)
  simp only [List.mem_cons, List.not_mem_nil, or_false, not_or] at hflags
  simp only [partOf, hp, hd, if_neg hflags.1, if_neg hflags.2.1, if_neg hflags.2.2.1,
    if_neg hflags.2.2.2]

/-- Permuted parts give the same result, if each capability is named once. -/
theorem result_perm {parts parts' : List (List Char)} (h : parts.Perm parts')
    (honce : NamesOnce parts) : result (parts.map partOf) = result (parts'.map partOf) := by
  have hcomm : ∀ a ∈ parts.map partOf, ∀ b ∈ parts.map partOf, ∀ caps,
      addPart (addPart caps a) b = addPart (addPart caps b) a := by
    intro a ha b hb caps
    cases caps with
    | none => rfl
    | some caps =>
      refine Part.apply_comm (fun hnames => ?_) caps
      by_contra hne
      have hpair : (parts.map partOf).Pairwise fun a b => a.names = b.names → a.names = none := by
        rw [NamesOnce, List.Nodup, List.pairwise_filterMap] at honce
        refine List.pairwise_map.mpr (honce.imp ?_)
        intro p q hpq heq
        by_contra hsome
        obtain ⟨c, hc⟩ := Option.ne_none_iff_exists'.mp hsome
        exact hpq c hc c (heq ▸ hc) rfl
      have : Std.Symm fun a b : Part => a.names = b.names → a.names = none :=
        ⟨fun p q hpq heq => heq.trans (hpq heq.symm)⟩
      have hnone := hpair.forall ha hb hne hnames
      exact hne ((Part.eq_unknown hnone).trans (Part.eq_unknown (hnames ▸ hnone)).symm)
  rw [result, result, (h.map partOf).foldl_eq' hcomm]

/-- **Rearranged parts** give the same result. -/
theorem result_rearranged {parts parts' : List (List Char)} (h : Rearranged parts parts')
    (honce : NamesOnce parts) :
    NamesOnce parts' ∧ result (parts.map partOf) = result (parts'.map partOf) := by
  induction h with
  | perm h => exact ⟨(h.filterMap _).nodup_iff.mp honce, result_perm h honce⟩
  | pad front back part hpre hpost =>
    have hpad := partOf_pad part hpre hpost
    simp only [NamesOnce, List.filterMap_append, List.filterMap_cons, List.map_append,
      List.map_cons,
      hpad] at honce ⊢
    exact ⟨honce, trivial⟩
  | unknown front back h =>
    have hunknown := partOf_unknown h
    simp only [NamesOnce, List.filterMap_append, List.filterMap_cons, List.map_append,
      List.map_cons,
      hunknown, Part.names, result, List.foldl_append, List.foldl_cons] at honce ⊢
    refine ⟨honce, ?_⟩
    cases (front.map partOf).foldl addPart (some Capabilities.unset) <;> rfl
  | trans _ _ ih₁ ih₂ =>
    obtain ⟨honce', heq₁⟩ := ih₁ honce
    obtain ⟨honce'', heq₂⟩ := ih₂ honce'
    exact ⟨honce'', heq₁.trans heq₂⟩

/-! ## What `display` prints -/

/-- The parts of the printed text. -/
def printedParts (caps : Capabilities) : List (List Char) :=
  ("pcm:".toList ++ (Nat.toDigits 10 caps.pcmMaxRateKhz.toNat ++ "/".toList ++
      Nat.toDigits 10 caps.pcmMaxBits.toNat)) ::
    ((caps.dsdMaxMultiplier.toList.map fun dsd => "dsd:".toList ++ Nat.toDigits 10 dsd.toNat) ++
      (if caps.flac then ["flac".toList] else []) ++
      (if caps.opus then ["opus".toList] else []) ++
      (if caps.truehd then ["truehd".toList] else []) ++
      (if caps.eac3 then ["eac3".toList] else []))

theorem intercalate_cons_eq (first : List Char) (rest : List (List Char)) :
    [','].intercalate (first :: rest) = first ++ rest.flatMap fun part => ',' :: part := by
  induction rest generalizing first with
  | nil => simp
  | cons part rest ih =>
    rw [List.intercalate_cons_cons, ih, List.flatMap_cons]
    simp

theorem display_eq (caps : Capabilities) :
    caps.display = [','].intercalate (printedParts caps) := by
  have hrate : (toString caps.pcmMaxRateKhz).toList = Nat.toDigits 10 caps.pcmMaxRateKhz.toNat :=
    Text.toList_toString caps.pcmMaxRateKhz.toNat
  have hbits : (toString caps.pcmMaxBits).toList = Nat.toDigits 10 caps.pcmMaxBits.toNat :=
    Text.toList_toString caps.pcmMaxBits.toNat
  have hflag : ∀ (flag : Bool) (name : List Char),
      (if flag then [name] else []).flatMap (fun part => ',' :: part) =
        if flag then ',' :: name else [] := by
    intro flag name
    cases flag <;> simp
  rw [printedParts, intercalate_cons_eq]
  unfold Capabilities.display
  cases caps.dsdMaxMultiplier with
  | none =>
    simp only [List.flatMap_append, hflag, hrate, hbits, List.flatten_cons, List.flatten_nil,
      List.append_nil, List.append_assoc]
    rfl
  | some dsd =>
    have hdsd : (toString dsd).toList = Nat.toDigits 10 dsd.toNat := Text.toList_toString dsd.toNat
    simp only [List.flatMap_append, hflag, hrate, hbits, hdsd, List.flatten_cons,
      List.flatten_nil, Option.toList_some, List.map_cons, List.map_nil, List.flatMap_cons,
      List.flatMap_nil, List.cons_append, List.append_nil, List.append_assoc]
    rfl

/-- No part has a comma or whitespace. -/
theorem mem_printedParts {caps : Capabilities} {part : List Char} (h : part ∈ printedParts caps)
    {c : Char} (hc : c ∈ part) : c ≠ ',' ∧ Text.isWhitespace c = false := by
  have hdigit : ∀ {n : Nat}, c ∈ Nat.toDigits 10 n → c ≠ ',' ∧ Text.isWhitespace c = false := by
    intro n hn
    have hn := Text.isDigit_toDigits hn
    refine ⟨?_, Text.isWhitespace_of_isDigit hn⟩
    rintro rfl
    simp at hn
  have hname : ∀ {name : List Char}, (∀ c ∈ name, c ≠ ',' ∧ Text.isWhitespace c = false) →
      c ∈ name → c ≠ ',' ∧ Text.isWhitespace c = false := fun hall hc => hall c hc
  simp only [printedParts, List.mem_cons, List.mem_append, List.mem_map] at h
  rcases h with rfl | ((((⟨dsd, -, rfl⟩ | h) | h) | h) | h)
  · simp only [List.mem_append] at hc
    rcases hc with hc | ((hc | hc) | hc)
    · exact hname (List.all_iff_forall_prop.mp (by decide)) hc
    · exact hdigit hc
    · exact hname (List.all_iff_forall_prop.mp (by decide)) hc
    · exact hdigit hc
  · rcases List.mem_append.mp hc with hc | hc
    · exact hname (List.all_iff_forall_prop.mp (by decide)) hc
    · exact hdigit hc
  all_goals
    split at h
    · obtain rfl := List.mem_singleton.mp h
      exact hname (List.all_iff_forall_prop.mp (by decide)) hc
    · simp at h

theorem partOf_pcm (rate : UInt32) (bits : UInt8)
    (htrim : ∀ c ∈ "pcm:".toList ++ (Nat.toDigits 10 rate.toNat ++ "/".toList ++
      Nat.toDigits 10 bits.toNat), Text.isWhitespace c = false) :
    partOf ("pcm:".toList ++ (Nat.toDigits 10 rate.toNat ++ "/".toList ++
      Nat.toDigits 10 bits.toNat)) = .pcm (some (rate, bits)) := by
  have hslash : '/' ∉ Nat.toDigits 10 rate.toNat := by
    intro h
    have := Text.isDigit_toDigits h
    simp at this
  have hsplit : Text.splitOnce "/".toList (Nat.toDigits 10 rate.toNat ++ "/".toList ++
      Nat.toDigits 10 bits.toNat) =
      some (Nat.toDigits 10 rate.toNat, Nat.toDigits 10 bits.toNat) := by
    refine (Text.splitOnce_append (c := '/') (p := []) (by simp) _ _).trans ?_
    rw [Text.splitOnce_of_not_mem hslash]
  have hrate : Capabilities.parseU32 (Nat.toDigits 10 rate.toNat) = some rate := by
    rw [Capabilities.parseU32, Text.parseUnsigned_toDigits rate.toNat_lt]
    simp
  have hbits : Capabilities.parseU8 (Nat.toDigits 10 bits.toNat) = some bits := by
    rw [Capabilities.parseU8, Text.parseUnsigned_toDigits bits.toNat_lt]
    simp
  simp only [partOf, Text.trimBy_of_none htrim, Text.stripPrefix_append, pcmLimits, hsplit, hrate,
    hbits, Option.bind_some, Option.map_some]

theorem partOf_dsd (dsd : UInt16)
    (htrim : ∀ c ∈ "dsd:".toList ++ Nat.toDigits 10 dsd.toNat, Text.isWhitespace c = false) :
    partOf ("dsd:".toList ++ Nat.toDigits 10 dsd.toNat) = .dsd (some dsd) := by
  have hpcm : Text.stripPrefix "pcm:".toList ("dsd:".toList ++ Nat.toDigits 10 dsd.toNat) = none :=
    rfl
  have hdsd : Capabilities.parseU16 (Nat.toDigits 10 dsd.toNat) = some dsd := by
    rw [Capabilities.parseU16, Text.parseUnsigned_toDigits dsd.toNat_lt]
    simp
  simp only [partOf, Text.trimBy_of_none htrim, hpcm, Text.stripPrefix_append, hdsd]

/-- What the printed parts say. -/
theorem map_partOf_printedParts (caps : Capabilities) :
    (printedParts caps).map partOf =
      .pcm (some (caps.pcmMaxRateKhz, caps.pcmMaxBits)) ::
        ((caps.dsdMaxMultiplier.toList.map fun dsd => Part.dsd (some dsd)) ++
          (if caps.flac then [.flac] else []) ++ (if caps.opus then [.opus] else []) ++
          (if caps.truehd then [.truehd] else []) ++ (if caps.eac3 then [.eac3] else [])) := by
  have hclean : ∀ part ∈ printedParts caps, ∀ c ∈ part, Text.isWhitespace c = false :=
    fun part hpart c hc => (mem_printedParts hpart hc).2
  have hpcm := partOf_pcm caps.pcmMaxRateKhz caps.pcmMaxBits
    (hclean _ List.mem_cons_self)
  have hdsd : (caps.dsdMaxMultiplier.toList.map fun dsd => "dsd:".toList ++
      Nat.toDigits 10 dsd.toNat).map partOf =
        caps.dsdMaxMultiplier.toList.map fun dsd => Part.dsd (some dsd) := by
    cases hmax : caps.dsdMaxMultiplier with
    | none => rfl
    | some dsd =>
      have hmem : "dsd:".toList ++ Nat.toDigits 10 dsd.toNat ∈ printedParts caps := by
        refine List.mem_cons_of_mem _ ?_
        simp only [List.mem_append, List.mem_map, hmax, Option.toList_some, List.mem_singleton]
        exact .inl (.inl (.inl (.inl ⟨dsd, rfl, rfl⟩)))
      have hpart := partOf_dsd dsd (hclean _ hmem)
      simp only [Option.toList_some, List.map_cons, List.map_nil, hpart]
  have hflag : ∀ (flag : Bool) {name : List Char} {part : Part}, partOf name = part →
      (if flag then [name] else []).map partOf = if flag then [part] else [] := by
    rintro flag name _ rfl
    cases flag <;> rfl
  rw [printedParts, List.map_cons, hpcm]
  have hflac : partOf "flac".toList = .flac := rfl
  have hopus : partOf "opus".toList = .opus := rfl
  have htruehd : partOf "truehd".toList = .truehd := rfl
  have heac3 : partOf "eac3".toList = .eac3 := rfl
  simp only [List.map_append, hdsd, hflag _ hflac, hflag _ hopus, hflag _ htruehd, hflag _ heac3]

/-- **Round trip.** -/
theorem parse_display {caps : Capabilities} (hrate : caps.pcmMaxRateKhz ≠ 0) :
    Capabilities.parse caps.display = .ok caps := by
  have hsplit : caps.display.splitOn ',' = printedParts caps := by
    rw [display_eq]
    refine List.splitOn_intercalate ',' ?_ (List.cons_ne_nil _ _)
    intro part hpart hcomma
    exact (mem_printedParts hpart hcomma).1 rfl
  have hresult : result ((printedParts caps).map partOf) = some caps := by
    rw [map_partOf_printedParts]
    obtain ⟨rate, bits, dsd, flac, opus, truehd, eac3⟩ := caps
    cases dsd <;> cases flac <;> cases opus <;> cases truehd <;> cases eac3 <;>
      exact Option.filter_some_pos (by simpa using hrate)
  rw [parse_eq_result, hsplit, hresult]
  rfl

/-- A string that parses has a PCM rate. -/
theorem rate_of_parse {s : List Char} {caps : Capabilities} (h : Capabilities.parse s = .ok caps) :
    caps.pcmMaxRateKhz ≠ 0 := by
  rw [parse_eq_result] at h
  cases hr : result ((s.splitOn ',').map partOf) with
  | none => simp [hr, orInvalid] at h
  | some c =>
    obtain rfl : c = caps := by simpa [hr, orInvalid] using h
    simpa using (Option.filter_eq_some_iff.mp hr).2

/-- **Capability strings.** Capabilities with a PCM rate are read back from their
text. A string that names each capability at most once gives the same result as
any string with its parts permuted, padded and mixed with unknown ones: the same
capabilities, or a failure on both. Hence what a string says is what the text of
its capabilities says. -/
theorem capability_strings :
    (∀ caps : Capabilities, 1 ≤ caps.pcmMaxRateKhz → Capabilities.parse caps.display = .ok caps) ∧
    (∀ s s' : List Char, NamesOnce (s.splitOn ',') → Rearranged (s.splitOn ',') (s'.splitOn ',') →
      ∃ r, Capabilities.parse s = orInvalid s r ∧ Capabilities.parse s' = orInvalid s' r) ∧
    ∀ (s : List Char) (caps : Capabilities), Capabilities.parse s = .ok caps →
      Capabilities.parse caps.display = .ok caps := by
  refine ⟨?_, ?_, ?_⟩
  · intro caps hrate
    refine parse_display ?_
    rintro h
    simp [h] at hrate
  · intro s s' honce hmoved
    refine ⟨result ((s.splitOn ',').map partOf), parse_eq_result s, ?_⟩
    rw [(result_rearranged hmoved honce).2]
    exact parse_eq_result s'
  · intro s caps h
    exact parse_display (rate_of_parse h)

/-- Two parts in the other order, one of them padded, and one that is not known. -/
theorem capability_strings_permuted :
    Capabilities.parse " flac ,mqa,pcm:192/24".toList =
      .ok { Capabilities.unset with pcmMaxRateKhz := 192, pcmMaxBits := 24, flac := true } := by
  have hprinted := capability_strings.1
    { Capabilities.unset with pcmMaxRateKhz := 192, pcmMaxBits := 24, flac := true }
    (by decide +kernel)
  have hswap : Rearranged ("pcm:192/24,flac".toList.splitOn ',')
      ["flac".toList, "pcm:192/24".toList] :=
    .perm (List.Perm.swap _ _ _)
  have hspace : ∀ c ∈ [' '], Text.isWhitespace c = true := by simp [Text.isWhitespace]
  have hpad : Rearranged ["flac".toList, "pcm:192/24".toList]
      [" flac ".toList, "pcm:192/24".toList] :=
    .pad [] ["pcm:192/24".toList] "flac".toList hspace hspace
  have hmqa : Rearranged [" flac ".toList, "pcm:192/24".toList]
      (" flac ,mqa,pcm:192/24".toList.splitOn ',') :=
    .unknown [" flac ".toList] ["pcm:192/24".toList]
      (⟨by decide +kernel, by decide +kernel, by decide +kernel⟩ : IsUnknown "mqa".toList)
  obtain ⟨r, hr, hr'⟩ := capability_strings.2.1 _ _ (by decide +kernel)
    ((hswap.trans hpad).trans hmqa)
  have hsame : orInvalid "pcm:192/24,flac".toList r = .ok _ := hr.symm.trans hprinted
  cases r with
  | none => cases hsame
  | some caps => rw [hr', ← hsame]; rfl

end Oaat.Wire
