/-
Oaat.Control.Compatibility — a control connection between versions
(`oaat-core/src/message.rs` over `oaat-core/src/codec.rs`).

A peer may write a message with its members in another order, with members and
release reasons that came later, and without members that came later; it may
space and escape its text as it likes. However its frames are cut, the messages
that are read are the ones it meant, and both ends act on them as on their own
version's.

`serde` and `serde_json` are parameters. Of the derived `Deserialize` the theorem
takes what `serde` documents about single changes.
-/
import Oaat.Control.Reads
import Oaat.Core.MessageJson
import Mathlib.Data.List.TakeWhile

namespace Oaat.Control

open Oaat.Core Oaat.Core.FrameCodec Oaat.Lib Oaat.Lib.Versions

/-- `serde_json`, from texts to what they denote and back, and the `Serialize` and
`Deserialize` that `serde` derives for `Message`. An error is its text. -/
structure Serde where
  write : Content → List UInt8
  read : List UInt8 → Except String Content
  ser : Message → Content
  de : Content → Except String Message

/-- `serde_json` at the type `Message`. -/
def Serde.json (j : Serde) : SerdeJson where
  toVec msg := j.write (j.ser msg)
  fromSlice text := j.read text >>= j.de

/-- What `serde` documents of a derived `Deserialize` under the attributes of `Message`. -/
structure Serde.Documented (j : Serde) : Prop where
  /-- Members come in any order, the tag of an enum among them. -/
  order : Indifferent .order Json.message j.de
  /-- Without `deny_unknown_fields` an unknown member is skipped. -/
  unknown : Indifferent .unknown Json.message j.de
  /-- `default`: a member that is missing has its default. -/
  default : Indifferent .default Json.message j.de
  /-- `other`: the variant for every name that no variant has. -/
  other : Indifferent .other Json.message j.de

theorem Serde.Documented.indifferent {j : Serde} (h : j.Documented) :
    ∀ c, Indifferent c Json.message j.de
  | .order => h.order
  | .unknown => h.unknown
  | .default => h.default
  | .other => h.other

/-- The text is the message, as some version writes it. -/
def Spells (j : Serde) (msg : Message) (text : List UInt8) : Prop :=
  ∃ t, j.read text = .ok t ∧ Varies Json.message t (j.ser msg)

section

variable {j : Serde} {msg : Message} {text : List UInt8}

theorem Spells.fromSlice (hj : j.Documented) (hround : j.de (j.ser msg) = .ok msg)
    (h : Spells j msg text) : j.json.fromSlice text = .ok msg := by
  obtain ⟨t, hread, ht⟩ := h
  simp only [Serde.json, hread]
  exact ht.read hj.indifferent hround

/-- The frames of any texts decode one by one. -/
theorem drain_frames (serde : SerdeJson) : ∀ texts : List (List UInt8),
    (∀ text ∈ texts, text.length ≤ MAX_FRAME_SIZE) →
      (decoder serde).drain (texts.flatMap frame) = (texts.map (item serde), [])
  | [], _ => rfl
  | text :: texts, h => by
      obtain ⟨hlen, hmore⟩ := List.forall_mem_cons.mp h
      have hnext : (decoder serde).next ((text :: texts).flatMap frame) =
          some (item serde text, texts.flatMap frame) := nextItem_frame hlen _
      rw [Decoder.drain_of_some hnext, drain_frames serde texts hmore]
      rfl

/-- The frames of a connection, each the text of a message. -/
theorem drain_spelled {frames : List (Message × List UInt8)}
    (h : ∀ f ∈ frames, j.json.fromSlice f.2 = .ok f.1 ∧ f.2.length ≤ MAX_FRAME_SIZE) :
    (decoder j.json).drain ((frames.map (·.2)).flatMap frame) =
      ((frames.map (·.1)).map .ok, []) := by
  have hlen : ∀ text ∈ frames.map (·.2), text.length ≤ MAX_FRAME_SIZE := by
    intro text htext
    obtain ⟨f, hf, rfl⟩ := List.mem_map.mp htext
    exact (h f hf).2
  rw [drain_frames j.json _ hlen, List.map_map, List.map_map]
  have hitems : ∀ f ∈ frames, (item j.json ∘ (·.2)) f = ((.ok ∘ (·.1)) f : Item) := by
    intro f hf
    simp only [Function.comp, item, Message.decodeJson, (h f hf).1]
  rw [List.map_congr_left hitems]

end

/-! ## The reads of a conversation -/

section

variable {role : Role} {serde : SerdeJson} {s : Session} {text : List UInt8}

theorem exists_messages : ∀ {items : List Item}, (∀ x ∈ items, x.isOk = true) →
    ∃ msgs : List Message, items = msgs.map .ok
  | [], _ => ⟨[], rfl⟩
  | .error _ :: _, h => absurd (h _ List.mem_cons_self) (by simp [Except.isOk, Except.toBool])
  | .ok msg :: items, h => by
      obtain ⟨msgs, hmsgs⟩ := exists_messages (List.forall_mem_cons.mp h).2
      exact ⟨msg :: msgs, by rw [hmsgs, List.map_cons]⟩

/-- Behind the greeting every read will do, as long as all frames are messages. -/
theorem running_readOk : ∀ (chunks : List (List UInt8)) (s : Session),
    (s.phase = .running ∧
      ∀ x ∈ ((decoder serde).drain (s.codec.buf ++ chunks.flatten)).1, x.isOk = true) ∨
      s.phase = .ended →
    Along (readStep role serde) (ReadOk role serde) s chunks
  | [], _, _ => trivial
  | chunk :: chunks, s, .inr hend => by
      have hread : s.read role serde chunk = (s, []) := by rw [Session.read, hend]
      refine ⟨by simp [ReadOk, hend], fun s' o hs' => running_readOk chunks s' (.inr ?_)⟩
      obtain ⟨rfl, -⟩ := Prod.mk.inj (hread.symm.trans (Except.ok.inj hs'))
      exact hend
  | chunk :: chunks, s, .inl ⟨hphase, hall⟩ => by
      rw [List.flatten_cons, ← List.append_assoc, Decoder.drain_append] at hall
      have hhead := fun x hx => hall x (List.mem_append_left _ hx)
      have hrest := fun x hx => hall x (List.mem_append_right _ hx)
      obtain ⟨msgs, hmsgs⟩ := exists_messages hhead
      have hok : ReadOk role serde s chunk := by
        have hnil : ((decoder serde).drain (s.codec.buf ++ chunk)).1.dropWhile (·.isOk) = [] :=
          List.dropWhile_eq_nil_iff.mpr hhead
        cases role <;> simp [ReadOk, hphase, hnil]
      have hread := ((read_cases role serde s chunk).1 hok).2
      rw [hphase, hmsgs, Phase.items_ok] at hread
      refine ⟨hok, fun s' o hs' => running_readOk chunks s' ?_⟩
      rw [congrArg Prod.fst (Except.ok.inj hs')] at hread
      cases hread with
      | alive _ hphase' hbuf => exact .inl ⟨hphase', by rwa [hbuf]⟩
      | finished hend _ => exact .inr hend

/-- The reads that bring the greeting bring nothing else. -/
theorem greeting_readOk {greeting : Message}
    (hgreeting : role.greeting greeting = some PROTOCOL_VERSION)
    (hitem : item serde text = .ok greeting) (hlen : text.length ≤ MAX_FRAME_SIZE)
    {post : List (List UInt8)}
    (hall : ∀ x ∈ ((decoder serde).drain post.flatten).1, x.isOk = true) :
    ∀ (pre : List (List UInt8)) (s : Session), s.phase = .handshake →
      (decoder serde).next s.codec.buf = none → s.codec.buf ++ pre.flatten = frame text →
      Along (readStep role serde) (ReadOk role serde) s (pre ++ post)
  | [], s, _, hnone, hbytes => by
      rw [List.flatten_nil, List.append_nil] at hbytes
      have hsome : (decoder serde).next (frame text ++ []) = _ := nextItem_frame hlen []
      rw [List.append_nil, ← hbytes, hnone] at hsome
      cases hsome
  | chunk :: pre, s, hphase, _, hbytes => by
      have hfeed : s.codec.feed chunk = ⟨s.codec.buf ++ chunk⟩ := rfl
      rw [List.flatten_cons, ← List.append_assoc] at hbytes
      obtain ⟨x, r, hnext, hd⟩ | ⟨hnone, hd⟩ | ⟨hjam, e, hd⟩ :=
        decodeNext_cases serde (s.codec.buf ++ chunk)
      · -- the frame is complete with this read
        have hwhole : (decoder serde).next (frame text ++ []) = _ := nextItem_frame hlen []
        rw [List.append_nil, ← hbytes, (decoder serde).extend hnext] at hwhole
        obtain ⟨rfl, hrest⟩ := Prod.mk.inj (Option.some.inj hwhole)
        obtain ⟨rfl, hpre⟩ := List.append_eq_nil_iff.mp hrest
        rw [hitem] at hd
        have hread : s.read role serde chunk = _ := read_handshake_some hphase hd
        simp only [Phase.item, greet, hgreeting, ne_eq, not_true_eq_false, if_false] at hread
        refine ⟨?_, fun s' o hs' => running_readOk (pre ++ post) s' (.inl ?_)⟩
        · have hnil : (decoder serde).drain [] = ([], []) := Decoder.drain_of_none rfl
          simp [ReadOk, hphase, Decoder.drain_of_some hnext, hnil]
        · obtain ⟨rfl, -⟩ := Prod.mk.inj (hread.symm.trans (Except.ok.inj hs'))
          refine ⟨rfl, ?_⟩
          rwa [List.flatten_append, hpre]
      · have hread : s.read role serde chunk = (⟨.handshake, ⟨s.codec.buf ++ chunk⟩⟩, []) := by
          rw [Session.read, hphase]
          simp only [hfeed, hd]
        refine ⟨by simp [ReadOk, hphase, Decoder.drain_of_none hnone], fun s' o hs' => ?_⟩
        obtain ⟨rfl, -⟩ := Prod.mk.inj (hread.symm.trans (Except.ok.inj hs'))
        exact greeting_readOk hgreeting hitem hlen hall pre _ rfl hnone hbytes
      · have hread : s.read role serde chunk = (⟨.ended, ⟨s.codec.buf ++ chunk⟩⟩, []) := by
          rw [Session.read, hphase]
          simp only [hfeed, hd]
        refine ⟨by simp [ReadOk, hphase, Decoder.drain_of_none (hjam.next serde)], ?_⟩
        intro s' o hs'
        obtain ⟨rfl, -⟩ := Prod.mk.inj (hread.symm.trans (Except.ok.inj hs'))
        exact running_readOk (pre ++ post) _ (.inr rfl)

end

/-- **Versions understand each other.** Whatever another version makes of its
messages, and however their frames are cut, they are read as the messages, and
nothing is left over. An end that is greeted in this protocol version, by reads that
bring the greeting and nothing else, acts on every message. -/
theorem versions_understand (j : Serde) {role : Role} {greeting : Message × List UInt8}
    {frames : List (Message × List UInt8)} (hj : j.Documented)
    (hround : ∀ f ∈ greeting :: frames, j.de (j.ser f.1) = .ok f.1)
    (hgreeting : role.greeting greeting.1 = some PROTOCOL_VERSION)
    (hframes : ∀ f ∈ greeting :: frames, Spells j f.1 f.2 ∧ f.2.length ≤ MAX_FRAME_SIZE) :
    (∀ chunks : List (List UInt8),
      chunks.flatten = ((greeting :: frames).map (·.2)).flatMap frame →
      receiveAll j.json .new chunks = (((greeting :: frames).map (·.1)).map .ok, ⟨[]⟩)) ∧
    ∀ pre post : List (List UInt8), pre.flatten = frame greeting.2 →
      post.flatten = (frames.map (·.2)).flatMap frame →
      ∃ s, run (readStep role j.json) .new (pre ++ post) =
        .ok (s, greeting.1 :: frames.map (·.1)) := by
  have hread : ∀ f ∈ greeting :: frames,
      j.json.fromSlice f.2 = .ok f.1 ∧ f.2.length ≤ MAX_FRAME_SIZE := fun f hf =>
    ⟨(hframes f hf).1.fromSlice hj (hround f hf), (hframes f hf).2⟩
  obtain ⟨hfirst, hmore⟩ := List.forall_mem_cons.mp hread
  have hdrain := drain_spelled hmore
  refine ⟨?_, ?_⟩
  · intro chunks hchunks
    rw [receiveAll_new, hchunks, drain_spelled hread]
  · intro pre post hpre hpost
    have hitem : item j.json greeting.2 = .ok greeting.1 := by
      simp only [item, Message.decodeJson, hfirst.1]
    have hall : ∀ x ∈ ((decoder j.json).drain post.flatten).1, x.isOk = true := by
      rw [hpost, hdrain]
      intro x hx
      obtain ⟨msg, -, rfl⟩ := List.mem_map.mp hx
      rfl
    have hok : Along (readStep role j.json) (ReadOk role j.json) .new (pre ++ post) :=
      greeting_readOk hgreeting hitem hfirst.2 hall pre .new rfl rfl hpre
    obtain ⟨s, hrun⟩ := run_of_readOk hok
    refine ⟨s, hrun.trans ?_⟩
    have hnext : (decoder j.json).next ((pre ++ post).flatten) =
        some (.ok greeting.1, post.flatten) := by
      rw [List.flatten_append, hpre, ← hitem]
      exact nextItem_frame hfirst.2 _
    rw [acted, Decoder.drain_of_some hnext, hpost, hdrain]
    simp only [Phase.items, Phase.item, greet, hgreeting, ne_eq, not_true_eq_false, if_false,
      Phase.items_ok, List.singleton_append]

/-! ## Across versions -/

def helloAckText : List UInt8 := SerdeJson.table.ascii
  ["\x7b\"type\":\"hello_ack\",\"protocol_version\":1,\"endpoint_id\":\"e\",",
    "\"endpoint_name\":\"n\",\"capabilities\":\x7b\"pcm_max_rate\":192000,",
    "\"pcm_max_bits\":24,\"channels_max\":2,\"formats\":[\"PCM_S16LE\"]\x7d,",
    "\"audio_port\":1,\"clock_port\":2,\"buffer_size_ms\":1000\x7d"]

def releaseText : List UInt8 := SerdeJson.table.ascii
  ["\x7b\"reason\":\"power_save\",\"since_ms\":250,\"stream_id\":\"s\",",
    "\"type\":\"endpoint_release\"\x7d"]

/-- An endpoint that predates native DSD, volume, gapless and seek. -/
def olderCapabilities : Members :=
  [("pcm_max_rate", .int 192000), ("pcm_max_bits", .int 24), ("channels_max", .int 2),
    ("formats", .array [.string "PCM_S16LE"])]

/-- From an endpoint that also predates `features`. -/
def olderHelloAck : Members :=
  [("type", .string "hello_ack"), ("protocol_version", .int 1), ("endpoint_id", .string "e"),
    ("endpoint_name", .string "n"), ("capabilities", .object olderCapabilities),
    ("audio_port", .int 1), ("clock_port", .int 2), ("buffer_size_ms", .int 1000)]

/-- From an endpoint with a reason and a member that are not known here. -/
def laterRelease : Members :=
  [("reason", .string "power_save"), ("since_ms", .int 250), ("stream_id", .string "s"),
    ("type", .string "endpoint_release")]

def sampleRelease : Message := .endpointRelease { streamId := "s", reason := .other }

/-- Endpoints with PCM of 16 bits only, and releases. -/
def sampleSer : Message → Content
  | .helloAck a => .object [("type", .string "hello_ack"),
      ("protocol_version", .int a.protocolVersion.toNat), ("endpoint_id", .string a.endpointId),
      ("endpoint_name", .string a.endpointName),
      ("capabilities", .object [("pcm_max_rate", .int a.capabilities.pcmMaxRate.toNat),
        ("pcm_max_bits", .int a.capabilities.pcmMaxBits.toNat), ("dsd_max_rate", .null),
        ("channels_max", .int a.capabilities.channelsMax.toNat),
        ("formats", .array [.string "PCM_S16LE"]), ("volume", .null),
        ("gapless", .bool a.capabilities.gapless), ("seek", .bool a.capabilities.seek)]),
      ("audio_port", .int a.audioPort.toNat), ("clock_port", .int a.clockPort.toNat),
      ("buffer_size_ms", .int a.bufferSizeMs.toNat)]
  | .endpointRelease er => .object [("type", .string "endpoint_release"),
      ("stream_id", .string er.streamId),
      ("reason", .string (if er.reason = .localSource then "local_source" else "other"))]
  | _ => .null

def sampleDe (t : Content) : Except String Message :=
  match normal Json.message t with
  | some (.object [(_, .string "hello_ack"), (_, .int version), (_, .string endpointId),
      (_, .string endpointName), (_, .object [(_, .int rate), (_, .int bits), (_, .null),
        (_, .int channels), (_, .array [.string "PCM_S16LE"]), (_, .null), (_, .bool gapless),
        (_, .bool seek)]), (_, .int audio), (_, .int clock), (_, .int buffer), (_, .array [])]) =>
    .ok (.helloAck
      { protocolVersion := .ofNat version.toNat, endpointId, endpointName
        capabilities := { pcmMaxRate := .ofNat rate.toNat, pcmMaxBits := .ofNat bits.toNat
                          dsdMaxRate := none, channelsMax := .ofNat channels.toNat
                          formats := [.pcmS16le], volume := none, gapless, seek }
        audioPort := .ofNat audio.toNat, clockPort := .ofNat clock.toNat
        bufferSizeMs := .ofNat buffer.toNat, features := [] })
  | some (.object [(_, .string "endpoint_release"), (_, .string streamId),
      (_, .string reason)]) =>
    .ok (.endpointRelease
      { streamId, reason := if reason = "local_source" then .localSource else .other })
  | _ => .error "data did not match any variant"

/-- What this version writes of the messages. -/
def sampleTexts : SerdeJson := .table [
  (sampleHelloAck, ["\x7b\"type\":\"hello_ack\",\"protocol_version\":1,\"endpoint_id\":\"e\",",
    "\"endpoint_name\":\"n\",\"capabilities\":\x7b\"pcm_max_rate\":192000,",
    "\"pcm_max_bits\":24,\"dsd_max_rate\":null,\"channels_max\":2,",
    "\"formats\":[\"PCM_S16LE\"],\"volume\":null,\"gapless\":false,\"seek\":false\x7d,",
    "\"audio_port\":1,\"clock_port\":2,\"buffer_size_ms\":1000\x7d"]),
  (sampleRelease, ["\x7b\"type\":\"endpoint_release\",\"stream_id\":\"s\",",
    "\"reason\":\"other\"\x7d"])]

/-- `serde` and `serde_json` on these messages and texts. -/
def sampleJson : Serde where
  write t :=
    match sampleDe t with
    | .ok msg => sampleTexts.toVec msg
    | .error _ => []
  read text :=
    if text = helloAckText then .ok (.object olderHelloAck)
    else if text = releaseText then .ok (.object laterRelease)
    else .error "expected value at line 1 column 1"
  ser := sampleSer
  de := sampleDe

theorem documented_sampleJson : sampleJson.Documented := by
  have hsame : ∀ c, Indifferent c Json.message sampleDe := fun c t u a h hu => by
    rwa [sampleDe, h.normal_eq]
  exact ⟨hsame .order, hsame .unknown, hsame .default, hsame .other⟩

theorem varies_olderCapabilities : Varies Json.capabilities (.object olderCapabilities)
    (.object [("pcm_max_rate", .int 192000), ("pcm_max_bits", .int 24), ("dsd_max_rate", .null),
      ("channels_max", .int 2), ("formats", .array [.string "PCM_S16LE"]), ("volume", .null),
      ("gapless", .bool false), ("seek", .bool false)]) := by
  refine (Varies.absent (olderCapabilities.take 2) (k := "dsd_max_rate") rfl rfl).trans ?_
  refine (Varies.absent (_ :: _ :: _ :: _ :: [_]) (k := "volume") rfl rfl).trans ?_
  refine (Varies.absent (_ :: _ :: _ :: _ :: _ :: [_]) (k := "gapless") rfl rfl).trans ?_
  exact Varies.absent (_ :: _ :: _ :: _ :: _ :: _ :: [_]) (k := "seek") rfl rfl

theorem spells_olderHelloAck : Spells sampleJson sampleHelloAck helloAckText := by
  refine ⟨.object olderHelloAck, by simp [sampleJson], ?_⟩
  have h : Varies (.struct (("type", .leaf, none) :: Json.helloAck)) (.object olderHelloAck)
      (sampleSer sampleHelloAck) :=
    Varies.member (olderHelloAck.take 4) rfl varies_olderCapabilities
  exact (Varies.variant rfl rfl h).1

theorem spells_laterRelease : Spells sampleJson sampleRelease releaseText := by
  have hne : releaseText ≠ helloAckText := by decide +kernel
  refine ⟨.object laterRelease, by simp [sampleJson, hne], ?_⟩
  have h : Varies (.struct (("type", .leaf, none) :: Json.endpointRelease)) (.object laterRelease)
      (sampleSer sampleRelease) := by
    have hreason : Varies Json.releaseReason (.string "power_save") (.string "other") :=
      (Edit.other rfl (by decide +kernel)).varies
    have hsince : Varies (.struct (("type", .leaf, none) :: Json.endpointRelease))
        (.object (("since_ms", .int 250) :: laterRelease.eraseIdx 1))
        (.object (laterRelease.eraseIdx 1)) := (Edit.unknown rfl rfl).varies
    have hswap := List.Perm.swap ("since_ms", Content.int 250) ("reason", .string "power_save")
      (laterRelease.drop 2)
    have hreverse := List.reverse_perm (laterRelease.eraseIdx 1)
    exact ((Varies.perm hswap).trans hsince).trans ((Varies.perm hreverse.symm).trans
      (Varies.member (laterRelease.eraseIdx 1).reverse.dropLast rfl hreason))
  exact (Varies.variant rfl rfl h).1

/-- An older endpoint's greeting, and a later one's release. -/
theorem versions_understand_laterRelease :
    (∀ chunks : List (List UInt8), chunks.flatten = [helloAckText, releaseText].flatMap frame →
      receiveAll sampleJson.json .new chunks =
        ([.ok sampleHelloAck, .ok sampleRelease], ⟨[]⟩)) ∧
    ∃ s, run (readStep .controller sampleJson.json) .new
        ([(frame helloAckText).take 3, (frame helloAckText).drop 3] ++ [frame releaseText]) =
      .ok (s, [sampleHelloAck, sampleRelease]) := by
  have hgreeting : Role.controller.greeting (sampleHelloAck, helloAckText).1 =
      some PROTOCOL_VERSION := rfl
  have hround : ∀ f ∈ [(sampleHelloAck, helloAckText), (sampleRelease, releaseText)],
      sampleJson.de (sampleJson.ser f.1) = .ok f.1 :=
    List.forall_mem_cons.mpr ⟨rfl, List.forall_mem_cons.mpr ⟨rfl, by simp⟩⟩
  have hframes : ∀ f ∈ [(sampleHelloAck, helloAckText), (sampleRelease, releaseText)],
      Spells sampleJson f.1 f.2 ∧ f.2.length ≤ MAX_FRAME_SIZE :=
    List.forall_mem_cons.mpr ⟨⟨spells_olderHelloAck, by decide +kernel⟩,
      List.forall_mem_cons.mpr ⟨⟨spells_laterRelease, by decide +kernel⟩, by simp⟩⟩
  obtain ⟨hchunks, hreads⟩ :=
    versions_understand sampleJson documented_sampleJson hround hgreeting hframes
  exact ⟨hchunks, hreads _ _ (by simp) (by simp)⟩

end Oaat.Control
