/-
Oaat.WebUi.StatusJson — which states the status body tells correctly.

The encoder escapes quotation marks, and in the version not even those. A JSON
string needs two characters of its text for every quotation mark, backslash and
control character, so a body with a text that holds one of the latter two is
too short to spell the state, however it is read. All other states it spells as
a JSON printer does.
-/
import Oaat.Endpoint.StatusJson
import Oaat.Lib.JsonNeed

namespace Oaat.WebUi

open Oaat.Lib.Json

/-! ## The state as an object -/

/-- An absent string is `null`. -/
def textOrNull : Option String → Value
  | some s => .string s.toList
  | none => .null

/-- The members that tell the state; an absent number is zero. -/
def statusObject (status : BridgeStatus) : List (List Char × Value) :=
  [ ("bridge_name".toList, .string status.bridgeName.toList),
    ("version".toList, .string status.version.toList),
    ("current_device".toList, .string status.currentDevice.toList),
    ("available_devices".toList, .array (status.availableDevices.map fun d => .string d.toList)),
    ("connected".toList, .bool status.connected),
    ("controller_name".toList, textOrNull status.controllerName),
    ("playing".toList, .bool status.playing),
    ("volume".toList, .number status.volume.toNat),
    ("track_title".toList, textOrNull status.trackTitle),
    ("track_artist".toList, textOrNull status.trackArtist),
    ("track_album".toList, textOrNull status.trackAlbum),
    ("artwork_url".toList, textOrNull status.artworkUrl),
    ("stream_format".toList, textOrNull status.streamFormat),
    ("stream_sample_rate".toList, .number (status.streamSampleRate.getD 0).toNat),
    ("stream_bits".toList, .number (status.streamBits.getD 0).toNat),
    ("stream_channels".toList, .number (status.streamChannels.getD 0).toNat) ]

/-- The body is a JSON object with exactly these members, in some order. -/
def ParsesBack (status : BridgeStatus) : Prop :=
  ∃ members, parse (renderStatusJson status) = some (.object members) ∧
    members.Perm (statusObject status)

/-- No backslash and no control character. -/
def Escapable (s : String) : Prop := ∀ c ∈ s.toList, c ≠ '\\' ∧ isControl c = false

/-- The texts of the state besides the version. -/
def texts (status : BridgeStatus) : List String :=
  status.bridgeName :: status.currentDevice :: status.availableDevices ++
    status.controllerName.toList ++ status.trackTitle.toList ++ status.trackArtist.toList ++
    status.trackAlbum.toList ++ status.artworkUrl.toList ++ status.streamFormat.toList

/-- No text has a backslash or a control character, and the version no quotation
mark either. -/
def Renderable (status : BridgeStatus) : Prop :=
  (∀ s ∈ texts status, Escapable s) ∧ Escapable status.version ∧ '"' ∉ status.version.toList

/-! ## Its texts -/

theorem isSpecial_of_ne_quote {c : Char} (hq : c ≠ '"') :
    isSpecial c = false ↔ c ≠ '\\' ∧ isControl c = false := by
  simp [isSpecial, hq]

theorem spells_replaceQuotes (s : String) :
    Spells (quoted (replaceQuotes s.toList)) (.string s.toList) (Escapable s) := by
  refine .string ?_ ?_ ?_ s.toList
  · intro c
    by_cases hq : c = '"'
    · subst hq
      decide +kernel
    · rw [if_neg hq]
      exact weight_le_needChar c
  · intro c hle
    by_cases hq : c = '"'
    · subst hq
      decide +kernel
    · rw [if_neg hq] at hle
      exact (isSpecial_of_ne_quote hq).mp (plain_of_needChar_le hle)
  · intro c hc
    by_cases hq : c = '"'
    · subst hq
      rfl
    · rw [if_neg hq, escape_of_plain ((isSpecial_of_ne_quote hq).mpr hc)]

/-- The version is put there as it is. -/
theorem spells_quoted (s : String) :
    Spells (quoted s.toList) (.string s.toList) (∀ c ∈ s.toList, isSpecial c = false) := by
  have hspells := Spells.string (fun c => weight_le_needChar c)
    (fun _ hle => plain_of_needChar_le hle) (fun _ hc => (escape_of_plain hc).symm) s.toList
  rwa [List.flatMap_singleton'] at hspells

theorem spells_jsonStr (s : Option String) :
    Spells (jsonStr s) (textOrNull s) (∀ t ∈ s, Escapable t) := by
  cases s with
  | none => exact ⟨le_rfl, by simp, fun _ => rfl⟩
  | some s =>
    simp only [Option.mem_some_iff, forall_eq']
    exact spells_replaceQuotes s

theorem spells_displayBool (b : Bool) : Spells (displayBool b) (.bool b) True := by
  cases b <;> exact .atom rfl rfl

/-! ## The whole body -/

/-- A member of the body: its name, its text, and when this spells its value. -/
structure Field where
  name : String
  text : List Char
  value : Value
  clean : Prop
  plain : (name.toList.all fun c => !isSpecial c) = true
  spells : Spells text value clean

theorem Field.name_plain (f : Field) : ∀ c ∈ f.name.toList, isSpecial c = false := by
  simpa using f.plain

def Field.string (name : String) (s : String)
    (plain : (name.toList.all fun c => !isSpecial c) = true) : Field :=
  ⟨name, _, _, _, plain, spells_replaceQuotes s⟩

def Field.optional (name : String) (s : Option String)
    (plain : (name.toList.all fun c => !isSpecial c) = true) : Field :=
  ⟨name, _, _, _, plain, spells_jsonStr s⟩

def Field.bool (name : String) (b : Bool)
    (plain : (name.toList.all fun c => !isSpecial c) = true) : Field :=
  ⟨name, _, _, _, plain, spells_displayBool b⟩

def Field.nat (name : String) (n : Nat)
    (plain : (name.toList.all fun c => !isSpecial c) = true) : Field :=
  ⟨name, _, _, _, plain, .nat n⟩

def fields (status : BridgeStatus) : List Field :=
  [ .string "bridge_name" status.bridgeName (by decide),
    ⟨"version", _, _, _, by decide, spells_quoted status.version⟩,
    .string "current_device" status.currentDevice (by decide),
    ⟨"available_devices", _, _, _, by decide,
      .array fun d (_ : d ∈ status.availableDevices) => spells_replaceQuotes d⟩,
    .bool "connected" status.connected (by decide),
    .optional "controller_name" status.controllerName (by decide),
    .bool "playing" status.playing (by decide),
    .nat "volume" status.volume.toNat (by decide),
    .optional "track_title" status.trackTitle (by decide),
    .optional "track_artist" status.trackArtist (by decide),
    .optional "track_album" status.trackAlbum (by decide),
    .optional "artwork_url" status.artworkUrl (by decide),
    .optional "stream_format" status.streamFormat (by decide),
    .nat "stream_sample_rate" (status.streamSampleRate.getD 0).toNat (by decide),
    .nat "stream_bits" (status.streamBits.getD 0).toNat (by decide),
    .nat "stream_channels" (status.streamChannels.getD 0).toNat (by decide) ]

theorem statusMembers_eq (status : BridgeStatus) :
    statusMembers status = (fields status).map fun f => (f.name, f.text) := rfl

theorem statusObject_eq (status : BridgeStatus) :
    statusObject status = (fields status).map fun f => (f.name.toList, f.value) := rfl

theorem spells_status (status : BridgeStatus) :
    Spells (renderStatusJson status) (.object (statusObject status))
      (∀ f ∈ fields status, f.clean) := by
  have hobject := Spells.object (fun (f : Field) (_ : f ∈ fields status) => f.name_plain)
    (fun f _ => f.spells)
  rw [renderStatusJson, statusMembers_eq, statusObject_eq, List.map_map]
  exact hobject

theorem plain_iff (s : String) :
    (∀ c ∈ s.toList, isSpecial c = false) ↔ Escapable s ∧ '"' ∉ s.toList := by
  constructor
  · intro hall
    have hquote : '"' ∉ s.toList := fun hmem => absurd (hall _ hmem) (by decide)
    refine ⟨fun c hc => (isSpecial_of_ne_quote ?_).mp (hall c hc), hquote⟩
    rintro rfl
    exact hquote hc
  · rintro ⟨hescapable, hquote⟩ c hc
    refine (isSpecial_of_ne_quote ?_).mpr (hescapable c hc)
    rintro rfl
    exact hquote hc

theorem clean_iff (status : BridgeStatus) :
    (∀ f ∈ fields status, f.clean) ↔ Renderable status := by
  have hoption : ∀ s : Option String, (∀ t ∈ s.toList, Escapable t) ↔ ∀ t ∈ s, Escapable t := by
    intro s
    cases s <;> simp
  simp only [fields, Field.string, Field.optional, Field.bool, Field.nat, List.forall_mem_cons,
    List.not_mem_nil, false_implies, implies_true, Renderable, texts, List.cons_append,
    List.forall_mem_append, hoption, plain_iff]
  tauto

theorem natural_textOrNull (s : Option String) : (textOrNull s).Natural := by
  cases s <;> trivial

theorem naturalItems_strings (texts : List String) :
    NaturalItems (texts.map fun d => .string d.toList) := by
  induction texts with
  | nil => trivial
  | cons d texts ih => exact ⟨trivial, ih⟩

theorem natural_status (status : BridgeStatus) : (Value.object (statusObject status)).Natural := by
  simp only [Value.Natural, statusObject, NaturalMembers, natural_textOrNull,
    naturalItems_strings, true_and, and_true]
  exact ⟨⟨_, rfl⟩, ⟨_, rfl⟩, ⟨_, rfl⟩, ⟨_, rfl⟩⟩

/-- **The status body is read back as the state exactly if no text of the state
has a backslash or a control character, and its version no quotation mark.** -/
theorem status_parses_back_iff (status : BridgeStatus) :
    ParsesBack status ↔ Renderable status :=
  ((spells_status status).parse_iff (natural_status status)).trans (clean_iff status)

/-- A track title with a backslash makes the body no JSON at all. -/
theorem backslash_breaks_status :
    parse (renderStatusJson
      { BridgeStatus.default "0.1.0" with trackTitle := some "AC\\DC" }) = none := by
  have hnone : (parse (renderStatusJson
      { BridgeStatus.default "0.1.0" with trackTitle := some "AC\\DC" })).isNone = true := by
    decide +kernel
  exact Option.isNone_iff_eq_none.mp hnone

end Oaat.WebUi
