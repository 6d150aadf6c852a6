/-
Oaat.Negotiation.Discovery — what a controller discovers is what the session
accepts.

An endpoint announces itself twice: in its mDNS record, as a line of text, and
in the session, as its capabilities. Both are built from one configuration. A
controller that goes by the record alone proposes what the session accepts; the
only formats that it misses are at rates above the last whole kHz.
-/
import Oaat.Cli.Startup
import Oaat.Negotiation.Capabilities
import Oaat.Wire.CapabilityText

namespace Oaat.Negotiation

open Oaat.Core Oaat.Endpoint Oaat.Controller Oaat.Lib
open Oaat.Cli (CapabilitiesSection announcedFormats mdnsCaps announcement)

/-- The integer PCM formats that an endpoint announces. -/
def isInteger : AudioFormat → Bool
  | .pcmS16le | .pcmS24le | .pcmS32le => true
  | _ => false

/-- The record says that the endpoint plays this. -/
def Shown (caps : Capabilities) (fp : FormatPropose) : Prop :=
  if fp.format.isPcm then
    isInteger fp.format = true ∧ fp.sampleRate ≤ caps.pcmMaxRateHz ∧
      fp.bitsPerSample ≤ caps.pcmMaxBits
  else if fp.format.isDsd then
    ∃ max, caps.dsdMaxMultiplier = some max ∧ fp.dsdRate.getD 64 ≤ max
  else fp.format = .flac ∧ caps.flac = true

/-- The keys of the record. Lookups ignore case, and no two of these differ in case
only. -/
def recordKeys : List (List Char) :=
  ["v", "id", "name", "caps", "ch", "ip", "vol", "model", "vendor", "fw"].map String.toList

/-- The service is resolved with what was registered under these keys. -/
structure Carries {Ip : Type} (a : EndpointAnnouncement) (ip : List Char)
    (info : ResolvedService Ip) : Prop where
  addressed : info.addressesV4 ≠ []
  port : info.port = a.port
  get : ∀ key ∈ recordKeys, ∀ value, (key, value) ∈ a.props ip ↔ info.get key = some value

section

variable {Ip : Type} {a : EndpointAnnouncement} {ip : List Char} {info : ResolvedService Ip}

theorem parseU8_toString (n : UInt8) : Capabilities.parseU8 (toString n).toList = some n := by
  have htext : (toString n).toList = Nat.toDigits 10 n.toNat := by
    change (String.ofList (Nat.toDigits 10 n.toNat)).toList = _
    rw [String.toList_ofList]
  rw [htext, Capabilities.parseU8, Text.parseUnsigned_toDigits n.toNat_lt]
  simp

/-- What the record says under a key. -/
theorem Carries.get_eq (h : Carries a ip info) {key : List Char} {value : Option (List Char)}
    (hmem : key ∈ recordKeys) (hkey : ∀ v, (key, v) ∈ a.props ip ↔ value = some v) :
    info.get key = value := by
  refine Option.ext fun v => ?_
  rw [← h.get key hmem, hkey]

theorem Carries.get_some (h : Carries a ip info) {key value : List Char}
    (hmem : key ∈ recordKeys) (hkey : ∀ v, (key, v) ∈ a.props ip ↔ v = value) :
    info.get key = some value := by
  refine h.get_eq hmem fun v => ?_
  rw [hkey, Option.some.injEq, eq_comm]

/-- **The record is read back.** -/
theorem parseEndpoint_of_carries (h : Carries a ip info)
    (hkhz : a.capabilities.pcmMaxRateKhz ≠ 0) :
    ∃ addr ∈ info.addressesV4, parseEndpoint info = some
      { name := a.instanceName, endpointId := a.endpointId, addr := (addr, a.port),
        capabilities := some a.capabilities, channelsMax := a.channelsMax, model := a.model,
        vendor := a.vendor } := by
  obtain ⟨addr, addrs, haddrs⟩ := List.exists_cons_of_ne_nil h.addressed
  have hid : info.get "id".toList = some a.endpointId := by
    refine h.get_some (by decide) fun v => ?_
    simp [EndpointAnnouncement.props]
  have hname : info.get "name".toList = some a.instanceName := by
    refine h.get_some (by decide) fun v => ?_
    simp [EndpointAnnouncement.props]
  have hcaps : info.get "caps".toList = some a.capabilities.display := by
    refine h.get_some (by decide) fun v => ?_
    simp [EndpointAnnouncement.props]
  have hch : info.get "ch".toList = some (toString a.channelsMax).toList := by
    refine h.get_some (by decide) fun v => ?_
    simp [EndpointAnnouncement.props]
  have hmodel : info.get "model".toList = a.model := by
    refine h.get_eq (by decide) fun v => ?_
    simp [EndpointAnnouncement.props]
  have hvendor : info.get "vendor".toList = a.vendor := by
    refine h.get_eq (by decide) fun v => ?_
    simp [EndpointAnnouncement.props]
  refine ⟨addr, by simp [haddrs], ?_⟩
  simp only [parseEndpoint, haddrs, List.head?_cons, hid, hname, hcaps, hch, hmodel, hvendor,
    h.port, Option.bind_eq_bind, Option.bind_some, Option.getD_some, Wire.parse_display hkhz,
    parseU8_toString, Except.toOption, Option.pure_def]

end

/-! ## The record and the session -/

/-- At a rate between the last whole kHz and the maximum. -/
def AboveKhz (capsConfig : CapabilitiesSection) (fp : FormatPropose) : Prop :=
  isInteger fp.format = true ∧ fp.bitsPerSample ≤ capsConfig.pcmMaxBits ∧
    (mdnsCaps capsConfig none).pcmMaxRateHz < fp.sampleRate ∧
    fp.sampleRate ≤ capsConfig.pcmMaxRate

section

variable {capsConfig : CapabilitiesSection} {dsdMax : Option UInt16} {fp : FormatPropose}

theorem mem_announcedFormats_pcm (hpcm : fp.format.isPcm = true) :
    fp.format ∈ announcedFormats capsConfig dsdMax ↔ isInteger fp.format = true := by
  cases hf : capsConfig.flac <;> cases hm : dsdMax.isSome <;> cases hformat : fp.format <;>
    simp_all [announcedFormats, AudioFormat.isPcm, isInteger]

theorem mem_announcedFormats_other (hpcm : fp.format.isPcm = false)
    (hdsd : fp.format.isDsd = false) :
    fp.format ∈ announcedFormats capsConfig dsdMax ↔
      fp.format = .flac ∧ capsConfig.flac = true := by
  cases hf : capsConfig.flac <;> cases hm : dsdMax.isSome <;> cases hformat : fp.format <;>
    simp_all [announcedFormats, AudioFormat.isPcm, AudioFormat.isDsd]

/-- The rate of the record is the maximum cut to whole kHz. -/
theorem pcmMaxRateHz_le : (mdnsCaps capsConfig dsdMax).pcmMaxRateHz ≤ capsConfig.pcmMaxRate := by
  have hcut : capsConfig.pcmMaxRate.toNat / 1000 * 1000 ≤ capsConfig.pcmMaxRate.toNat :=
    Nat.div_mul_le_self _ _
  have hlt := capsConfig.pcmMaxRate.toNat_lt
  rw [UInt32.le_iff_toNat_le, Capabilities.pcmMaxRateHz, UInt32.toNat_mul, mdnsCaps,
    UInt32.toNat_div]
  change capsConfig.pcmMaxRate.toNat / 1000 * 1000 % 2 ^ 32 ≤ _
  rw [Nat.mod_eq_of_lt (by omega)]
  exact hcut

/-- **The session accepts what the record shows**, and rates above its last kHz. -/
theorem isFormatAccept_iff_shown :
    isFormatAccept (negotiateFormat (Cli.capabilities capsConfig dsdMax) fp) = true ↔
      Shown (mdnsCaps capsConfig dsdMax) fp ∨ AboveKhz capsConfig fp := by
  rw [isFormatAccept_iff, Passes, Shown]
  cases hpcm : fp.format.isPcm with
  | true =>
    have hdsd := not_isDsd_of_isPcm hpcm
    have hcut : (mdnsCaps capsConfig dsdMax).pcmMaxRateHz ≤ capsConfig.pcmMaxRate :=
      pcmMaxRateHz_le
    change fp.format ∈ announcedFormats capsConfig dsdMax ∧ _ ↔ _
    rw [mem_announcedFormats_pcm hpcm]
    simp only [hdsd, Bool.false_eq_true, forall_false, and_true, if_true, forall_const]
    constructor
    · rintro ⟨hinteger, hrate, hbits⟩
      by_cases hwithin : fp.sampleRate ≤ (mdnsCaps capsConfig dsdMax).pcmMaxRateHz
      · exact .inl ⟨hinteger, hwithin, hbits⟩
      · exact .inr ⟨hinteger, hbits, UInt32.not_le.mp hwithin, hrate⟩
    · rintro (⟨hinteger, hwithin, hbits⟩ | ⟨hinteger, hbits, -, hrate⟩)
      · exact ⟨hinteger, UInt32.le_trans hwithin hcut, hbits⟩
      · exact ⟨hinteger, hrate, hbits⟩
  | false =>
    have hnot : ¬ AboveKhz capsConfig fp := by
      rintro ⟨hinteger, -⟩
      cases hformat : fp.format <;> simp_all [isInteger, AudioFormat.isPcm]
    rw [or_iff_left hnot]
    change fp.format ∈ announcedFormats capsConfig dsdMax ∧ _ ↔ _
    cases hdsd : fp.format.isDsd with
    | true =>
      rw [Cli.mem_announcedFormats_dsd hdsd]
      simp only [Bool.false_eq_true, false_implies, true_and, forall_const, if_false, if_true]
      constructor
      · exact fun h => h.2
      · rintro ⟨max, hmax, hle⟩
        exact ⟨Option.isSome_iff_exists.mpr ⟨max, hmax⟩, max, hmax, hle⟩
    | false =>
      rw [mem_announcedFormats_other hpcm hdsd]
      simp [mdnsCaps]

end

def kitchenCaps : CapabilitiesSection :=
  { CapabilitiesSection.default with pcmMaxRate := 176400, pcmMaxBits := 24 }

def kitchenRecord : EndpointAnnouncement :=
  announcement "Kitchen".toList "ep-1".toList "1.0".toList 9740 false kitchenCaps (some 64)

def kitchenService : ResolvedService Nat :=
  { addressesV4 := [1], port := 9740, fullname := []
    get := fun key => (kitchenRecord.props []).lookup key }

/-- 24 bits at this rate. -/
def kitchenProposal (sampleRate : UInt32) : FormatPropose :=
  { streamId := "s", format := .pcmS24le, sampleRate, channels := 2, channelLayout := .stereo
    bitsPerSample := 24, dsdRate := none }

theorem mem_iff_lookup {props : List (List Char × List Char)} (hnodup : (props.map (·.1)).Nodup)
    (key value : List Char) : (key, value) ∈ props ↔ props.lookup key = some value := by
  induction props with
  | nil => simp
  | cons prop rest ih =>
    obtain ⟨k, v⟩ := prop
    rw [List.map_cons, List.nodup_cons] at hnodup
    rw [List.mem_cons, Prod.mk.injEq, ih hnodup.2, List.lookup_cons]
    by_cases hkey : key = k
    · subst hkey
      have hnone : rest.lookup key = none := by
        refine List.lookup_eq_none_iff.mpr fun p hp => ?_
        have hne : key ≠ p.1 := by
          rintro rfl
          exact hnodup.1 (List.mem_map.mpr ⟨p, hp, rfl⟩)
        simpa using hne
      simp [hnone, eq_comm]
    · simp only [hkey, false_and, false_or, beq_eq_false_iff_ne.mpr hkey]

theorem carries_kitchen : Carries kitchenRecord [] kitchenService where
  addressed := by decide
  port := rfl
  get key _ value := mem_iff_lookup (by decide +kernel) key value

end Oaat.Negotiation
