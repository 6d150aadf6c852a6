/-
Oaat.Core.Codec — length-prefixed framing of the control connection
(`oaat-core/src/codec.rs`).

`decodeNext` returns its result and the codec after it: a frame whose JSON does
not parse is consumed like any other, an oversized length consumes nothing.
`receiveAll` is a receiver that feeds each read and then calls `decodeNext` until
there is nothing more. Its loop is the drain of a `Decoder`, whose items are the
messages and the JSON errors, and so it is independent of how the bytes were cut
into reads.
-/
import Oaat.Core.Message
import Oaat.Lib.Incremental

namespace Oaat.Core

open Oaat.Lib

def MAX_FRAME_SIZE : Nat := 16 * 1024 * 1024

structure FrameCodec where
  buf : List UInt8
  deriving Repr, DecidableEq

/-- A frame that was taken off the buffer: a message, or its JSON error. -/
abbrev Item := Except OaatError Message

namespace FrameCodec

def new : FrameCodec := ⟨[]⟩

def feed (c : FrameCodec) (data : List UInt8) : FrameCodec := ⟨c.buf ++ data⟩

def decodeNext (serde : SerdeJson) (c : FrameCodec) :
    Except OaatError (Option Message) × FrameCodec :=
  if c.buf.length < 4 then (.ok none, c)
  else
    let len := ofBe (c.buf.take 4)
    if len > MAX_FRAME_SIZE then (.error (.messageTooLarge len), c)
    else if c.buf.length < 4 + len then (.ok none, c)
    else
      let rest := c.buf.drop 4
      let c : FrameCodec := ⟨rest.drop len⟩
      match Message.decodeJson serde (rest.take len) with
      | .error e => (.error (.json e), c)
      | .ok msg => (.ok (some msg), c)

/-- Calls of `decodeNext` in a loop, until it returns `Ok(None)` or `MessageTooLarge`:
the other results, and the codec then. -/
def decodeUpTo (serde : SerdeJson) : Nat → FrameCodec → List Item × FrameCodec
  | 0, c => ([], c)
  | calls + 1, c =>
    match decodeNext serde c with
    | (.ok none, c) => ([], c)
    | (.error (.messageTooLarge _), c) => ([], c)
    | (.ok (some msg), c) =>
      let (items, c) := decodeUpTo serde calls c
      (.ok msg :: items, c)
    | (.error e, c) =>
      let (items, c) := decodeUpTo serde calls c
      (.error e :: items, c)

/-- The whole loop: a call that goes on takes a frame off the buffer, so there are no
more such calls than bytes. -/
def decodeAll (serde : SerdeJson) (c : FrameCodec) : List Item × FrameCodec :=
  decodeUpTo serde c.buf.length c

/-- Feed the chunks, with the loop after each of them. -/
def receiveAll (serde : SerdeJson) : FrameCodec → List (List UInt8) → List Item × FrameCodec
  | c, [] => ([], c)
  | c, chunk :: chunks =>
    let (items, c) := decodeAll serde (c.feed chunk)
    let (more, c) := receiveAll serde c chunks
    (items ++ more, c)

/-! ## Frames -/

/-- A byte string as one frame. -/
def frame (json : List UInt8) : List UInt8 := toBe 4 json.length ++ json

/-- The result of decoding one frame. -/
def item (serde : SerdeJson) (json : List UInt8) : Item :=
  match Message.decodeJson serde json with
  | .error e => .error (.json e)
  | .ok msg => .ok msg

/-- How a buffer begins. -/
inductive Front (buf : List UInt8) : Prop
  | short (h : buf.length < 4)
  | tooLarge (h : 4 ≤ buf.length) (hlen : MAX_FRAME_SIZE < ofBe (buf.take 4))
  | open_ (h : 4 ≤ buf.length) (hlen : ofBe (buf.take 4) ≤ MAX_FRAME_SIZE)
      (hopen : buf.length < 4 + ofBe (buf.take 4))
  | frame (json rest : List UInt8) (hlen : json.length ≤ MAX_FRAME_SIZE)
      (heq : buf = frame json ++ rest)

theorem front (buf : List UInt8) : Front buf := by
  by_cases hshort : buf.length < 4
  · exact .short hshort
  · by_cases hlarge : MAX_FRAME_SIZE < ofBe (buf.take 4)
    · exact .tooLarge (by omega) hlarge
    · by_cases hopen : buf.length < 4 + ofBe (buf.take 4)
      · exact .open_ (by omega) (by omega) hopen
      · have hlen : ((buf.drop 4).take (ofBe (buf.take 4))).length = ofBe (buf.take 4) := by
          rw [List.length_take, List.length_drop]; omega
        refine .frame ((buf.drop 4).take (ofBe (buf.take 4)))
          ((buf.drop 4).drop (ofBe (buf.take 4))) (by omega) ?_
        have hhead : toBe 4 (ofBe (buf.take 4)) = buf.take 4 := by
          have := toBe_ofBe (buf.take 4)
          rwa [List.length_take, Nat.min_eq_left (by omega)] at this
        rw [FrameCodec.frame, hlen, hhead, List.append_assoc, List.take_append_drop,
          List.take_append_drop]

section

variable {serde : SerdeJson} {buf json rest : List UInt8}

theorem ofBe_frame (hlen : json.length ≤ MAX_FRAME_SIZE) (rest : List UInt8) :
    ofBe ((frame json ++ rest).take 4) = json.length := by
  have htake : (frame json ++ rest).take 4 = toBe 4 json.length := by
    rw [frame, List.append_assoc, List.take_append_of_le_length (by simp)]
    exact List.take_of_length_le (by simp)
  have hmax : MAX_FRAME_SIZE < 256 ^ 4 := by decide
  rw [htake, ofBe_toBe_of_lt (by omega)]

/-- **A complete frame** is decoded and consumed, whether or not it parses. -/
theorem decodeNext_frame (serde : SerdeJson) (hlen : json.length ≤ MAX_FRAME_SIZE)
    (rest : List UInt8) :
    decodeNext serde ⟨frame json ++ rest⟩ = ((item serde json).map some, ⟨rest⟩) := by
  have hsize : (frame json ++ rest).length = 4 + json.length + rest.length := by
    simp [frame]
    omega
  have hdrop : (frame json ++ rest).drop 4 = json ++ rest := by
    rw [frame, List.append_assoc]
    exact List.drop_left' (by simp)
  rw [decodeNext, if_neg (by rw [hsize]; omega)]
  simp only [ofBe_frame hlen, hdrop, List.take_left, List.drop_left]
  rw [if_neg (by omega), if_neg (by rw [hsize]; omega)]
  unfold item
  cases Message.decodeJson serde json <;> rfl

theorem decodeNext_waits (serde : SerdeJson) (h : buf.length < 4 ∨
    (ofBe (buf.take 4) ≤ MAX_FRAME_SIZE ∧ buf.length < 4 + ofBe (buf.take 4))) :
    decodeNext serde ⟨buf⟩ = (.ok none, ⟨buf⟩) := by
  unfold decodeNext
  by_cases hshort : buf.length < 4
  · rw [if_pos hshort]
  · obtain ⟨hlen, hopen⟩ := h.resolve_left hshort
    simp only [hshort, if_false]
    rw [if_neg (by omega), if_pos hopen]

theorem decodeNext_tooLarge (h : 4 ≤ buf.length) (hlen : MAX_FRAME_SIZE < ofBe (buf.take 4)) :
    decodeNext serde ⟨buf⟩ = (.error (.messageTooLarge (ofBe (buf.take 4))), ⟨buf⟩) := by
  rw [decodeNext, if_neg (by show ¬ buf.length < 4; omega)]
  simp only []
  rw [if_pos (by exact hlen)]

end

/-! ## The codec as a decoder -/

/-- One call of `decodeNext`, with the two answers that end a drain loop read as
"nothing more". -/
def nextItem (serde : SerdeJson) (buf : List UInt8) : Option (Item × List UInt8) :=
  match decodeNext serde ⟨buf⟩ with
  | (.ok none, _) => none
  | (.error (.messageTooLarge _), _) => none
  | (.ok (some msg), c) => some (.ok msg, c.buf)
  | (.error e, c) => some (.error e, c.buf)

theorem nextItem_frame {serde : SerdeJson} {json : List UInt8}
    (hlen : json.length ≤ MAX_FRAME_SIZE) (rest : List UInt8) :
    nextItem serde (frame json ++ rest) = some (item serde json, rest) := by
  rw [nextItem, decodeNext_frame serde hlen]
  unfold item
  cases Message.decodeJson serde json <;> rfl

/-- An item is a complete frame at the front. -/
theorem of_nextItem {serde : SerdeJson} {buf r : List UInt8} {x : Item}
    (h : nextItem serde buf = some (x, r)) :
    ∃ json, json.length ≤ MAX_FRAME_SIZE ∧ buf = frame json ++ r ∧ x = item serde json := by
  cases front buf with
  | short hs => rw [nextItem, decodeNext_waits serde (.inl hs)] at h; cases h
  | tooLarge hs hl => rw [nextItem, decodeNext_tooLarge hs hl] at h; cases h
  | open_ hs hl ho => rw [nextItem, decodeNext_waits serde (.inr ⟨hl, ho⟩)] at h; cases h
  | frame json rest hl heq =>
    rw [heq, nextItem_frame hl] at h
    obtain ⟨rfl, rfl⟩ : item serde json = x ∧ rest = r := by simpa using h
    exact ⟨json, hl, heq, rfl⟩

/-- The frames of a byte string, one after another. -/
def decoder (serde : SerdeJson) : Decoder UInt8 Item where
  next := nextItem serde
  progress h := by
    obtain ⟨json, -, rfl, -⟩ := of_nextItem h
    simp [frame]
    omega
  extend h c := by
    obtain ⟨json, hl, rfl, rfl⟩ := of_nextItem h
    rw [List.append_assoc, nextItem_frame hl]

/-- The loop drains the buffer. -/
theorem decodeUpTo_eq (serde : SerdeJson) (calls : Nat) (buf : List UInt8) :
    decodeUpTo serde calls ⟨buf⟩ =
      (((decoder serde).drainFuel calls buf).1, ⟨((decoder serde).drainFuel calls buf).2⟩) := by
  induction calls generalizing buf with
  | zero => rfl
  | succ calls ih =>
    have hnext : (decoder serde).next buf = nextItem serde buf := rfl
    rw [decodeUpTo, Decoder.drainFuel, hnext]
    cases front buf with
    | short hs => rw [nextItem, decodeNext_waits serde (.inl hs)]
    | open_ hs hl ho => rw [nextItem, decodeNext_waits serde (.inr ⟨hl, ho⟩)]
    | tooLarge hs hl => rw [nextItem, decodeNext_tooLarge hs hl]
    | frame json rest hl heq =>
      rw [heq, nextItem_frame hl, decodeNext_frame serde hl]
      unfold item
      cases Message.decodeJson serde json <;> simp [Except.map, ih]

theorem decodeAll_feed (serde : SerdeJson) (buf chunk : List UInt8) :
    decodeAll serde (feed ⟨buf⟩ chunk) =
      (((decoder serde).drain (buf ++ chunk)).1, ⟨((decoder serde).drain (buf ++ chunk)).2⟩) :=
  decodeUpTo_eq serde _ _

theorem receiveAll_eq (serde : SerdeJson) (chunks : List (List UInt8)) (buf : List UInt8) :
    receiveAll serde ⟨buf⟩ chunks =
      (((decoder serde).feedChunks buf chunks).1, ⟨((decoder serde).feedChunks buf chunks).2⟩) := by
  induction chunks generalizing buf with
  | nil => rfl
  | cons chunk chunks ih =>
    rw [receiveAll, decodeAll_feed]
    simp only [ih, Decoder.feedChunks]

theorem receiveAll_new (serde : SerdeJson) (chunks : List (List UInt8)) :
    receiveAll serde .new chunks =
      (((decoder serde).drain chunks.flatten).1, ⟨((decoder serde).drain chunks.flatten).2⟩) := by
  have hnone : (decoder serde).next [] = none := rfl
  have h := Decoder.feedChunks_eq chunks hnone
  rw [List.nil_append] at h
  rw [new, receiveAll_eq, h]

theorem encodeFramed_eq_frame (serde : SerdeJson) (msg : Message) :
    Message.encodeFramed serde msg = frame (serde.toVec msg) := rfl

/-- The frames of a list of messages decode to the messages. -/
theorem drain_encodeFramed {serde : SerdeJson} :
    ∀ (msgs : List Message), (∀ msg ∈ msgs, serde.RoundTrips msg ∧
        (serde.toVec msg).length ≤ MAX_FRAME_SIZE) →
      (decoder serde).drain (msgs.flatMap (Message.encodeFramed serde)) = (msgs.map .ok, [])
  | [], _ => rfl
  | msg :: msgs, h => by
      obtain ⟨hround, hlen⟩ := h msg (by simp)
      have hitem : item serde (serde.toVec msg) = .ok msg := by
        rw [item, Message.decodeJson, hround]
      have hnext : (decoder serde).next ((msg :: msgs).flatMap (Message.encodeFramed serde)) =
          some (.ok msg, msgs.flatMap (Message.encodeFramed serde)) := by
        rw [List.flatMap_cons, encodeFramed_eq_frame, ← hitem]
        exact nextItem_frame hlen _
      rw [Decoder.drain_of_some hnext,
        drain_encodeFramed msgs fun m hm => h m (List.mem_cons_of_mem _ hm)]
      rfl

/-- **Framing is independent of segmentation.** Two ways of cutting a byte
string give the same results and the same buffer at the end; a JSON error
consumes exactly its own frame; and the frames of any list of messages give the
messages, however they are cut, and leave nothing. -/
theorem framing_independent_of_segmentation (serde : SerdeJson) :
    (∀ chunks chunks' : List (List UInt8), chunks.flatten = chunks'.flatten →
      receiveAll serde .new chunks = receiveAll serde .new chunks') ∧
    (∀ json rest e, json.length ≤ MAX_FRAME_SIZE → serde.fromSlice json = .error e →
      decodeNext serde ⟨toBe 4 json.length ++ json ++ rest⟩ = (.error (.json e), ⟨rest⟩)) ∧
    ∀ msgs : List Message, (∀ msg ∈ msgs, serde.RoundTrips msg ∧
        (serde.toVec msg).length ≤ MAX_FRAME_SIZE) →
      ∀ chunks : List (List UInt8), chunks.flatten = msgs.flatMap (Message.encodeFramed serde) →
        receiveAll serde .new chunks = (msgs.map .ok, ⟨[]⟩) := by
  refine ⟨?_, ?_, ?_⟩
  · intro chunks chunks' h
    rw [receiveAll_new, receiveAll_new, h]
  · intro json rest e hlen he
    have hframe := decodeNext_frame serde hlen rest
    rwa [item, Message.decodeJson, he] at hframe
  · intro msgs hmsgs chunks h
    rw [receiveAll_new, h, drain_encodeFramed msgs hmsgs]

/-- `volume_get`, then a malformed frame, cut inside both length prefixes. -/
theorem framing_independent_of_segmentation_volumeGet :
    let serde := SerdeJson.table [(.volumeGet, ["\x7b\"type\":\"volume_get\"\x7d"])]
    let bad : List UInt8 := [0, 0, 0, 1, 120]
    let good := Message.encodeFramed serde .volumeGet
    receiveAll serde .new [good.take 3, good.drop 3 ++ bad.take 2, bad.drop 2] =
        receiveAll serde .new [good ++ bad] ∧
      decodeNext serde ⟨toBe 4 1 ++ [120] ++ good⟩ =
        (.error (.json "expected value at line 1 column 1"), ⟨good⟩) ∧
      receiveAll serde .new [good.take 3, good.drop 3] = ([.ok .volumeGet], ⟨[]⟩) := by
  refine ⟨(framing_independent_of_segmentation _).1 _ _ (by decide +kernel),
    (framing_independent_of_segmentation _).2.1 [120] _ _ (by decide) (by decide +kernel),
    (framing_independent_of_segmentation _).2.2 [.volumeGet] ?_ _
      (by decide +kernel)⟩
  intro msg hmsg
  rw [List.mem_singleton.mp hmsg]
  exact ⟨by unfold SerdeJson.RoundTrips; decide +kernel, by decide +kernel⟩

end FrameCodec

end Oaat.Core
