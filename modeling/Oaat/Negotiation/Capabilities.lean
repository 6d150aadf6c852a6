/-
Oaat.Negotiation.Capabilities — verdicts and the announced capabilities.

A counter-proposal should end the negotiation: the endpoint takes it when it is
proposed, and it keeps to the limits and to the family of the proposed rate. An
accept should keep to every limit. Neither is always so. `best_rate_in_family`
("the highest sample rate in the same family that does not exceed `max_rate`")
falls back on the lowest rate of a family that has none, and a proposal is
judged by the DSD multiplier that it may leave out and not by its channels. The
main theorems say when a counter-proposal settles, and when an accept is within
the capabilities.
-/
import Oaat.Endpoint.Negotiate

namespace Oaat.Negotiation

open Oaat.Core Oaat.Endpoint

/-! ## Verdicts -/

/-- The checks that an accepted proposal has passed. -/
def Passes (caps : EndpointCapabilities) (fp : FormatPropose) : Prop :=
  fp.format ∈ caps.formats ∧
    (fp.format.isPcm = true →
      fp.sampleRate ≤ caps.pcmMaxRate ∧ fp.bitsPerSample ≤ caps.pcmMaxBits) ∧
    (fp.format.isDsd = true →
      ∃ max, caps.dsdMaxRate = some max ∧ fp.dsdRate.getD 64 ≤ max)

/-- What a proposal that exceeds the PCM limits is countered with. -/
def counterTo (caps : EndpointCapabilities) (fp : FormatPropose) : FormatCounter :=
  { streamId := fp.streamId
    format := fp.format
    sampleRate :=
      if fp.sampleRate ≤ caps.pcmMaxRate then fp.sampleRate
      else bestRateInFamily fp.sampleRate caps.pcmMaxRate
    channels := fp.channels
    channelLayout := fp.channelLayout
    bitsPerSample :=
      if fp.bitsPerSample ≤ caps.pcmMaxBits then fp.bitsPerSample else caps.pcmMaxBits
    dsdRate := fp.dsdRate }

section

variable {caps : EndpointCapabilities} {fp : FormatPropose}

theorem not_isDsd_of_isPcm {f : AudioFormat} (h : f.isPcm = true) : f.isDsd = false := by
  cases f <;> first | rfl | cases h

theorem negotiateFormat_unlisted (h : fp.format ∉ caps.formats) :
    isFormatAccept (negotiateFormat caps fp) = false ∧
      ∀ c, negotiateFormat caps fp ≠ .formatCounter c := by
  simp only [negotiateFormat, h, not_false_eq_true, if_true]
  exact ⟨rfl, fun c hc => by cases hc⟩

theorem negotiateFormat_pcm (h : fp.format ∈ caps.formats) (hpcm : fp.format.isPcm = true) :
    negotiateFormat caps fp =
      if fp.sampleRate ≤ caps.pcmMaxRate ∧ fp.bitsPerSample ≤ caps.pcmMaxBits then
        .formatAccept fp.streamId
      else .formatCounter (counterTo caps fp) := by
  simp only [negotiateFormat, h, not_true_eq_false, if_false, hpcm, if_true, counterTo,
    Bool.and_eq_true, decide_eq_true_eq]

theorem negotiateFormat_other (h : fp.format ∈ caps.formats) (hpcm : fp.format.isPcm = false) :
    (isFormatAccept (negotiateFormat caps fp) = true ↔
      (fp.format.isDsd = true → ∃ max, caps.dsdMaxRate = some max ∧ fp.dsdRate.getD 64 ≤ max)) ∧
      ∀ c, negotiateFormat caps fp ≠ .formatCounter c := by
  simp only [negotiateFormat, h, not_true_eq_false, if_false, hpcm, Bool.false_eq_true]
  split
  next hdsd =>
    split
    next hnone =>
      refine ⟨iff_of_false Bool.false_ne_true ?_, fun c hc => by cases hc⟩
      intro hall
      obtain ⟨max, hmax, -⟩ := hall hdsd
      rw [hnone] at hmax
      cases hmax
    next max hmax =>
      split
      next habove =>
        refine ⟨iff_of_false Bool.false_ne_true ?_, fun c hc => by cases hc⟩
        intro hall
        obtain ⟨max', hmax', hle⟩ := hall hdsd
        obtain rfl : max = max' := Option.some.inj (hmax.symm.trans hmax')
        exact UInt16.not_le.mpr habove hle
      next hwithin =>
        refine ⟨iff_of_true rfl ?_, fun c hc => by cases hc⟩
        intro _
        exact ⟨max, hmax, UInt16.not_lt.mp hwithin⟩
  next hdsd => exact ⟨iff_of_true rfl fun h => absurd h hdsd, fun c hc => by cases hc⟩

/-- A proposal is accepted when it passes the checks. -/
theorem isFormatAccept_iff :
    isFormatAccept (negotiateFormat caps fp) = true ↔ Passes caps fp := by
  by_cases hlisted : fp.format ∈ caps.formats
  · cases hpcm : fp.format.isPcm with
    | true =>
      have hdsd := not_isDsd_of_isPcm hpcm
      rw [negotiateFormat_pcm hlisted hpcm, Passes, hpcm, hdsd]
      split
      next hok => exact iff_of_true rfl ⟨hlisted, fun _ => hok, fun h => by cases h⟩
      next hnot => exact iff_of_false Bool.false_ne_true fun h => hnot (h.2.1 rfl)
    | false =>
      rw [(negotiateFormat_other hlisted hpcm).1, Passes, hpcm]
      constructor
      · intro h
        refine ⟨hlisted, ?_, h⟩
        intro hfalse
        cases hfalse
      · intro h
        exact h.2.2
  · rw [(negotiateFormat_unlisted hlisted).1]
    exact iff_of_false Bool.false_ne_true fun h => hlisted h.1

theorem eq_formatCounter_iff {c : FormatCounter} :
    negotiateFormat caps fp = .formatCounter c ↔
      fp.format ∈ caps.formats ∧ fp.format.isPcm = true ∧
        ¬ (fp.sampleRate ≤ caps.pcmMaxRate ∧ fp.bitsPerSample ≤ caps.pcmMaxBits) ∧
        counterTo caps fp = c := by
  by_cases hlisted : fp.format ∈ caps.formats
  · cases hpcm : fp.format.isPcm with
    | true =>
      rw [negotiateFormat_pcm hlisted hpcm]
      split
      next hok => exact iff_of_false (fun h => by cases h) fun h => h.2.2.1 hok
      next hnot =>
        rw [Message.formatCounter.injEq]
        exact ⟨fun h => ⟨hlisted, rfl, hnot, h⟩, fun h => h.2.2.2⟩
    | false =>
      refine iff_of_false ((negotiateFormat_other hlisted hpcm).2 c) ?_
      exact fun h => by cases h.2.1
  · exact iff_of_false ((negotiateFormat_unlisted hlisted).2 c) fun h => hlisted h.1

end

/-! ## Rates and families -/

section

variable {family : SampleRateFamily} {rate maxRate : UInt32}

theorem mem_rates_of (h : SampleRateFamily.of rate = some family) : rate ∈ family.rates := by
  unfold SampleRateFamily.of at h
  split at h
  next hmem =>
    cases h
    exact hmem
  next =>
    split at h
    next hmem =>
      cases h
      exact hmem
    next => cases h

theorem of_eq_of_mem (h : rate ∈ family.rates) : SampleRateFamily.of rate = some family := by
  cases family <;>
    simp only [SampleRateFamily.rates, List.mem_cons, List.not_mem_nil, or_false] at h <;>
    rcases h with rfl | rfl | rfl | rfl | rfl <;> rfl

/-- The lowest rate of a family comes first. -/
theorem headD_le (h : rate ∈ family.rates) :
    family.rates.headD 0 ∈ family.rates ∧ family.rates.headD 0 ≤ rate := by
  cases family <;>
    simp only [SampleRateFamily.rates, List.mem_cons, List.not_mem_nil, or_false] at h <;>
    rcases h with rfl | rfl | rfl | rfl | rfl <;> decide

/-- The highest rate of the family within the maximum, where there is one. -/
theorem bestRateInFamily_of_some {r : UInt32} (h : SampleRateFamily.of rate = some family)
    (hr : r ∈ family.rates) (hle : r ≤ maxRate) :
    bestRateInFamily rate maxRate ∈ family.rates ∧ bestRateInFamily rate maxRate ≤ maxRate := by
  simp only [bestRateInFamily, h]
  cases hfind : family.rates.reverse.find? (fun r => r ≤ maxRate) with
  | none =>
    rw [List.find?_eq_none] at hfind
    exact absurd (decide_eq_true hle) (hfind r (List.mem_reverse.mpr hr))
  | some best =>
    have hbest := List.find?_some hfind
    exact ⟨List.mem_reverse.mp (List.mem_of_find?_eq_some hfind), of_decide_eq_true hbest⟩

/-- The fallback exceeds the maximum, as every rate of the family does. -/
theorem bestRateInFamily_of_none (h : SampleRateFamily.of rate = some family)
    (hnone : ∀ r ∈ family.rates, ¬ r ≤ maxRate) : ¬ bestRateInFamily rate maxRate ≤ maxRate := by
  have hfind : family.rates.reverse.find? (fun r => r ≤ maxRate) = none := by
    rw [List.find?_eq_none]
    intro r hr
    simpa using hnone r (List.mem_reverse.mp hr)
  simp only [bestRateInFamily, h, hfind]
  exact hnone _ (headD_le (mem_rates_of h)).1

theorem bestRateInFamily_unknown (h : SampleRateFamily.of rate = none) :
    bestRateInFamily rate maxRate = maxRate := by
  simp only [bestRateInFamily, h]

end

/-! ## Counter-proposals -/

/-- A counter-proposal is accepted when it is proposed, whatever else the proposal
says; it is within the limits and below what was proposed, and in the family of
the proposed rate. -/
def CounterSettles (caps : EndpointCapabilities) (fp : FormatPropose) : Prop :=
  ∀ c, negotiateFormat caps fp = .formatCounter c →
    (∀ again : FormatPropose, again.format = c.format → again.sampleRate = c.sampleRate →
      again.channels = c.channels → again.bitsPerSample = c.bitsPerSample →
      isFormatAccept (negotiateFormat caps again) = true) ∧
    c.sampleRate ≤ caps.pcmMaxRate ∧ c.bitsPerSample ≤ caps.pcmMaxBits ∧
    c.sampleRate ≤ fp.sampleRate ∧ c.bitsPerSample ≤ fp.bitsPerSample ∧
    ∀ family, SampleRateFamily.of fp.sampleRate = some family →
      SampleRateFamily.of c.sampleRate = some family

/-- The family of the proposed rate has a rate within the maximum. -/
def FamilyWithin (caps : EndpointCapabilities) (fp : FormatPropose) : Prop :=
  ∀ family, SampleRateFamily.of fp.sampleRate = some family →
    ∃ r ∈ family.rates, r ≤ caps.pcmMaxRate

section

variable {caps : EndpointCapabilities} {fp : FormatPropose}

theorem counterTo_sampleRate (h : FamilyWithin caps fp) :
    (counterTo caps fp).sampleRate ≤ caps.pcmMaxRate ∧
      (counterTo caps fp).sampleRate ≤ fp.sampleRate ∧
      ∀ family, SampleRateFamily.of fp.sampleRate = some family →
        SampleRateFamily.of (counterTo caps fp).sampleRate = some family := by
  simp only [counterTo]
  split
  next hle => exact ⟨hle, UInt32.le_refl _, fun family hfamily => hfamily⟩
  next habove =>
    have hmax : caps.pcmMaxRate ≤ fp.sampleRate := UInt32.le_of_lt (UInt32.not_le.mp habove)
    cases hof : SampleRateFamily.of fp.sampleRate with
    | none =>
      rw [bestRateInFamily_unknown hof]
      exact ⟨UInt32.le_refl _, hmax, fun family hfamily => by cases hfamily⟩
    | some family =>
      obtain ⟨r, hr, hle⟩ := h family hof
      obtain ⟨hmem, hbest⟩ := bestRateInFamily_of_some hof hr hle
      refine ⟨hbest, UInt32.le_trans hbest hmax, ?_⟩
      intro family' hfamily'
      cases hfamily'
      exact of_eq_of_mem hmem

theorem counterTo_bitsPerSample (caps : EndpointCapabilities) (fp : FormatPropose) :
    (counterTo caps fp).bitsPerSample ≤ caps.pcmMaxBits ∧
      (counterTo caps fp).bitsPerSample ≤ fp.bitsPerSample := by
  simp only [counterTo]
  split
  next hle => exact ⟨hle, UInt8.le_refl _⟩
  next habove => exact ⟨UInt8.le_refl _, UInt8.le_of_lt (UInt8.not_le.mp habove)⟩

/-- **A counter-proposal settles the negotiation**, exactly when the family of the
proposed rate has a rate within the maximum (or it is no listed PCM format, and
is not countered). -/
theorem counter_settles_iff (caps : EndpointCapabilities) (fp : FormatPropose) :
    CounterSettles caps fp ↔
      (fp.format ∈ caps.formats → fp.format.isPcm = true → FamilyWithin caps fp) := by
  constructor
  · intro hsettles hlisted hpcm family hfamily
    by_contra hnone
    have habove : ∀ r ∈ family.rates, ¬ r ≤ caps.pcmMaxRate := fun r hr hle => hnone ⟨r, hr, hle⟩
    have hrate : ¬ fp.sampleRate ≤ caps.pcmMaxRate := habove _ (mem_rates_of hfamily)
    have hcounter : negotiateFormat caps fp = .formatCounter (counterTo caps fp) :=
      eq_formatCounter_iff.mpr ⟨hlisted, hpcm, fun hok => hrate hok.1, rfl⟩
    have hle := (hsettles _ hcounter).2.1
    simp only [counterTo, hrate, if_false] at hle
    exact bestRateInFamily_of_none hfamily habove hle
  · intro hwithin c hcounter
    obtain ⟨hlisted, hpcm, -, rfl⟩ := eq_formatCounter_iff.mp hcounter
    obtain ⟨hrate, hbelow, hfamily⟩ := counterTo_sampleRate (hwithin hlisted hpcm)
    obtain ⟨hbits, hfewer⟩ := counterTo_bitsPerSample caps fp
    refine ⟨?_, hrate, hbits, hbelow, hfewer, hfamily⟩
    intro again hformat hagain _ hdepth
    have hsame : again.format = fp.format := hformat
    rw [isFormatAccept_iff, Passes, hsame, hagain, hdepth, not_isDsd_of_isPcm hpcm]
    exact ⟨hlisted, fun _ => ⟨hrate, hbits⟩, fun h => by cases h⟩

end

/-- An endpoint that plays up to 22.05 kHz. -/
def lowRate : EndpointCapabilities :=
  { pcmMaxRate := 22050, pcmMaxBits := 16, dsdMaxRate := none, channelsMax := 2,
    formats := [.pcmS16le], volume := none, gapless := true, seek := true }

/-- What it is proposed, and proposes in turn. -/
def cdRate : FormatPropose :=
  { streamId := "a", format := .pcmS16le, sampleRate := 44100, channels := 2,
    channelLayout := .stereo, bitsPerSample := 16, dsdRate := none }

/-- It counters 44.1 kHz with 44.1 kHz, again and again. -/
theorem lowRate_counters_itself :
    negotiateFormat lowRate cdRate = .formatCounter (counterTo lowRate cdRate) ∧
      (counterTo lowRate cdRate).sampleRate = 44100 ∧ ¬ CounterSettles lowRate cdRate := by
  have hcounter : negotiateFormat lowRate cdRate = .formatCounter (counterTo lowRate cdRate) := by
    decide +kernel
  have hrate : (counterTo lowRate cdRate).sampleRate = 44100 := by decide +kernel
  refine ⟨hcounter, hrate, ?_⟩
  intro hsettles
  have hle := (hsettles _ hcounter).2.1
  rw [hrate] at hle
  exact absurd hle (by decide)

/-! ## Accepts -/

/-- The DSD bit rate of a proposal: its sample rate for `DSD_U8`. How the sample
rate of the wider formats counts is `wide`. -/
def dsdBitRate (wide : AudioFormat → UInt32 → Nat) (fp : FormatPropose) : Nat :=
  if fp.format = .dsdU8 then fp.sampleRate.toNat else wide fp.format fp.sampleRate

/-- The channels of a proposal are within the capabilities, and so is its DSD bit
rate. -/
def ChannelsAndBitRateWithin (wide : AudioFormat → UInt32 → Nat) (caps : EndpointCapabilities)
    (fp : FormatPropose) : Prop :=
  1 ≤ fp.channels ∧ fp.channels ≤ caps.channelsMax ∧
    (fp.format.isDsd = true →
      ∀ max, caps.dsdMaxRate = some max → dsdBitRate wide fp ≤ max.toNat * 44100)

/-- An accepted proposal is within every limit. -/
def AcceptWithin (wide : AudioFormat → UInt32 → Nat) (caps : EndpointCapabilities)
    (fp : FormatPropose) : Prop :=
  isFormatAccept (negotiateFormat caps fp) = true →
    fp.format ∈ caps.formats ∧ 1 ≤ fp.channels ∧ fp.channels ≤ caps.channelsMax ∧
    (fp.format.isPcm = true →
      fp.sampleRate ≤ caps.pcmMaxRate ∧ fp.bitsPerSample ≤ caps.pcmMaxBits) ∧
    (fp.format.isDsd = true →
      ∃ max, caps.dsdMaxRate = some max ∧ dsdBitRate wide fp ≤ max.toNat * 44100)

/-- **An accept is within the capabilities**, exactly when a proposal that passes
the checks that there are has channels and a DSD bit rate within them too. -/
theorem accept_within_iff (wide : AudioFormat → UInt32 → Nat) (caps : EndpointCapabilities)
    (fp : FormatPropose) :
    AcceptWithin wide caps fp ↔ (Passes caps fp → ChannelsAndBitRateWithin wide caps fp) := by
  unfold AcceptWithin
  rw [isFormatAccept_iff]
  refine forall_congr' fun hpasses => ?_
  obtain ⟨hlisted, hpcm, hdsd⟩ := hpasses
  constructor
  · rintro ⟨-, hone, hmax, -, hrate⟩
    refine ⟨hone, hmax, ?_⟩
    intro hformat max hsome
    obtain ⟨max', hsome', hle⟩ := hrate hformat
    obtain rfl : max = max' := Option.some.inj (hsome.symm.trans hsome')
    exact hle
  · rintro ⟨hone, hmax, hrate⟩
    refine ⟨hlisted, hone, hmax, hpcm, ?_⟩
    intro hformat
    obtain ⟨max, hsome, -⟩ := hdsd hformat
    exact ⟨max, hsome, hrate hformat max hsome⟩

/-- The sample rate counts words. -/
def wordRate : AudioFormat → UInt32 → Nat
  | .dsdU16le, sampleRate => 16 * sampleRate.toNat
  | _, sampleRate => 32 * sampleRate.toNat

/-- An endpoint that plays DSD64. -/
def dsd64Only : EndpointCapabilities :=
  { pcmMaxRate := 192000, pcmMaxBits := 24, dsdMaxRate := some 64, channelsMax := 2,
    formats := [.pcmS24le, .dsdU8], volume := none, gapless := true, seek := true }

/-- DSD256, without the multiplier, as the controller proposes it. -/
def dsd256 : FormatPropose :=
  { streamId := "a", format := .dsdU8, sampleRate := 11289600, channels := 2,
    channelLayout := .stereo, bitsPerSample := 1, dsdRate := none }

/-- Eight channels. -/
def sevenPointOne : FormatPropose :=
  { streamId := "b", format := .pcmS24le, sampleRate := 48000, channels := 8,
    channelLayout := .sevenPointOne, bitsPerSample := 24, dsdRate := none }

/-- DSD256 and eight channels are accepted by an endpoint that has announced DSD64
and two. -/
theorem dsd64Only_accepts :
    negotiateFormat dsd64Only dsd256 = .formatAccept "a" ∧
      dsdBitRate wordRate dsd256 = 256 * 44100 ∧ ¬ AcceptWithin wordRate dsd64Only dsd256 ∧
      negotiateFormat dsd64Only sevenPointOne = .formatAccept "b" ∧
      ¬ AcceptWithin wordRate dsd64Only sevenPointOne := by
  have hdsd : negotiateFormat dsd64Only dsd256 = .formatAccept "a" := by decide +kernel
  have height : negotiateFormat dsd64Only sevenPointOne = .formatAccept "b" := by decide +kernel
  have hrate : dsdBitRate wordRate dsd256 = 256 * 44100 := rfl
  refine ⟨hdsd, hrate, ?_, height, ?_⟩
  · intro hwithin
    obtain ⟨max, hmax, hle⟩ := (hwithin (by rw [hdsd]; rfl)).2.2.2.2 rfl
    cases hmax
    rw [hrate] at hle
    exact absurd hle (by decide)
  · intro hwithin
    exact absurd (hwithin (by rw [height]; rfl)).2.2.1 (by decide)

end Oaat.Negotiation
