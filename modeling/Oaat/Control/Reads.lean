/-
Oaat.Control.Reads — what the two ends of a control connection make of their
reads (`oaat-endpoint/src/transport.rs`: `EndpointSession::run`, phase 1 and the
reader arm; `oaat-controller/src/transport.rs`: `handshake_and_spawn`).

Both ends wait for a greeting and then loop over messages. The waiting loop
decodes at most ONE message per read, and the controller's reader stops its
drain loop at a malformed frame; whatever else is complete stays in the codec
until more bytes come. `Session.read` is one read of either end, `acted` what
an end does with a sequence of frames when every frame is decoded at once.

The main theorem says exactly when the reads do not matter: a sequence of reads
leaves no complete frame behind, and acts on the same messages as any other
division of the bytes, if and only if every read meets `ReadOk`.
-/
import Oaat.Core.Codec
import Oaat.Lib.Run

namespace Oaat.Control

open Oaat.Core Oaat.Lib

/-! ## Sessions -/

inductive Role where
  | endpoint
  | controller
  deriving Repr, DecidableEq

/-- The message an end waits for, with the protocol version it carries. -/
def Role.greeting : Role → Message → Option UInt32
  | .endpoint, .hello h => some h.protocolVersion
  | .controller, .helloAck a => some a.protocolVersion
  | _, _ => none

inductive Phase where
  | handshake
  | running
  | ended
  deriving Repr, DecidableEq

structure Session where
  phase : Phase
  codec : FrameCodec
  deriving Repr, DecidableEq

def Session.new : Session := ⟨.handshake, .new⟩

/-- `while let Some(msg) = codec.decode_next()?`: the messages, the error that
stopped the loop, and the codec. The controller writes
`while let Ok(Some(msg))` and drops the error. -/
def decodeWhile (serde : SerdeJson) : Nat → FrameCodec →
    List Message × Option OaatError × FrameCodec
  | 0, c => ([], none, c)
  | fuel + 1, c =>
    match c.decodeNext serde with
    | (.ok none, c) => ([], none, c)
    | (.error e, c) => ([], some e, c)
    | (.ok (some msg), c) =>
      let (msgs, e, c) := decodeWhile serde fuel c
      (msg :: msgs, e, c)

/-- A message that arrives while the greeting is awaited: anything else is
skipped, and a greeting of another protocol version ends the session. -/
def greet (role : Role) (msg : Message) : Phase × List Message :=
  match role.greeting msg with
  | none => (.handshake, [])
  | some version => if version ≠ PROTOCOL_VERSION then (.ended, []) else (.running, [msg])

/-- `?` in the endpoint's drain loop ends the session, the controller's reader
goes on with its next read. -/
def Role.afterLoop : Role → Option OaatError → Phase
  | .endpoint, some _ => .ended
  | _, _ => .running

/-- One read: the session after it and the messages it acted upon. -/
def Session.read (role : Role) (serde : SerdeJson) (s : Session) (chunk : List UInt8) :
    Session × List Message :=
  match s.phase with
  | .ended => (s, [])
  | .handshake =>
    match (s.codec.feed chunk).decodeNext serde with
    | (.error _, codec) => (⟨.ended, codec⟩, [])
    | (.ok none, codec) => (⟨.handshake, codec⟩, [])
    | (.ok (some msg), codec) => (⟨(greet role msg).1, codec⟩, (greet role msg).2)
  | .running =>
    let codec := s.codec.feed chunk
    let (msgs, e, codec) := decodeWhile serde (codec.buf.length + 1) codec
    (⟨role.afterLoop e, codec⟩, msgs)

/-- A read as a step of a run that never fails. -/
def readStep (role : Role) (serde : SerdeJson) (s : Session) (chunk : List UInt8) :
    Except Empty (Session × List Message) := .ok (s.read role serde chunk)

/-! ## Frames acted upon as soon as they are complete -/

/-- What an end does with one frame. -/
def Phase.item (role : Role) : Phase → Item → Phase × List Message
  | .ended, _ => (.ended, [])
  | .handshake, .error _ => (.ended, [])
  | .handshake, .ok msg => greet role msg
  | .running, .ok msg => (.running, [msg])
  | .running, .error e => (role.afterLoop (some e), [])

def Phase.items (role : Role) : Phase → List Item → Phase × List Message
  | phase, [] => (phase, [])
  | phase, x :: xs =>
    let (phase, msgs) := phase.item role x
    let (phase, more) := phase.items role xs
    (phase, msgs ++ more)

/-- The messages acted upon in a byte string. -/
def acted (role : Role) (serde : SerdeJson) (bytes : List UInt8) : List Message :=
  (Phase.handshake.items role ((FrameCodec.decoder serde).drain bytes).1).2

/-! ## The condition -/

/-- The frame ends a session that waits for its greeting. -/
def Refused (role : Role) (x : Item) : Prop := (Phase.handshake.item role x).1 = .ended

/-- While the greeting is awaited a read completes one frame at most, unless the
first of them ends the session. Afterwards, in the controller, a read does
not complete a frame behind a malformed one. -/
def ReadOk (role : Role) (serde : SerdeJson) (s : Session) (chunk : List UInt8) : Prop :=
  let items := ((FrameCodec.decoder serde).drain (s.codec.buf ++ chunk)).1
  match s.phase, role with
  | .handshake, _ => items.length ≤ 1 ∨ ∃ x ∈ items.head?, Refused role x
  | .running, .controller => (items.dropWhile (·.isOk)).length ≤ 1
  | _, _ => True

/-- No complete frame waits in the codec of a session that waits for bytes. -/
def Prompt (serde : SerdeJson) (s : Session) : Prop :=
  s.phase ≠ .ended → (FrameCodec.decoder serde).next s.codec.buf = none

/-! ## One read -/

section

variable {role : Role} {serde : SerdeJson} {s : Session} {buf chunk : List UInt8}

theorem Phase.items_append (phase : Phase) (xs ys : List Item) :
    phase.items role (xs ++ ys) =
      ((phase.items role xs).1.items role ys |>.1,
        (phase.items role xs).2 ++ ((phase.items role xs).1.items role ys).2) := by
  induction xs generalizing phase with
  | nil => simp [Phase.items]
  | cons x xs ih => simp [Phase.items, ih]

theorem Phase.items_ended (xs : List Item) : Phase.ended.items role xs = (.ended, []) := by
  induction xs with
  | nil => rfl
  | cons x xs ih => simp [Phase.items, Phase.item, ih]

theorem Phase.items_ok (msgs : List Message) :
    Phase.running.items role (msgs.map .ok) = (.running, msgs) := by
  induction msgs with
  | nil => rfl
  | cons msg msgs ih => simp [Phase.items, Phase.item, ih]

/-- An oversized length at the front: nothing is ever decoded again. -/
def Jammed (buf : List UInt8) : Prop := 4 ≤ buf.length ∧ MAX_FRAME_SIZE < ofBe (buf.take 4)

theorem Jammed.append (h : Jammed buf) (c : List UInt8) : Jammed (buf ++ c) := by
  have htake : (buf ++ c).take 4 = buf.take 4 := List.take_append_of_le_length h.1
  refine ⟨?_, by rw [htake]; exact h.2⟩
  rw [List.length_append]
  have := h.1
  omega

theorem Jammed.next (h : Jammed buf) (serde : SerdeJson) :
    (FrameCodec.decoder serde).next buf = none := by
  show FrameCodec.nextItem serde buf = none
  rw [FrameCodec.nextItem, FrameCodec.decodeNext_tooLarge h.1 h.2]

/-- The three answers of `decodeNext`, in terms of the decoder. -/
theorem decodeNext_cases (serde : SerdeJson) (buf : List UInt8) :
    (∃ x r, (FrameCodec.decoder serde).next buf = some (x, r) ∧
      FrameCodec.decodeNext serde ⟨buf⟩ = (x.map some, ⟨r⟩)) ∨
    ((FrameCodec.decoder serde).next buf = none ∧
      FrameCodec.decodeNext serde ⟨buf⟩ = (.ok none, ⟨buf⟩)) ∨
    (Jammed buf ∧ ∃ e, FrameCodec.decodeNext serde ⟨buf⟩ = (.error e, ⟨buf⟩)) := by
  have hwait : FrameCodec.decodeNext serde ⟨buf⟩ = (.ok none, ⟨buf⟩) →
      (FrameCodec.decoder serde).next buf = none := fun h => by
    show FrameCodec.nextItem serde buf = none
    rw [FrameCodec.nextItem, h]
  cases FrameCodec.front buf with
  | short h =>
    have hd := FrameCodec.decodeNext_waits serde (.inl h)
    exact .inr (.inl ⟨hwait hd, hd⟩)
  | open_ h hl ho =>
    have hd := FrameCodec.decodeNext_waits serde (.inr ⟨hl, ho⟩)
    exact .inr (.inl ⟨hwait hd, hd⟩)
  | tooLarge h hl => exact .inr (.inr ⟨⟨h, hl⟩, _, FrameCodec.decodeNext_tooLarge h hl⟩)
  | frame json rest hl heq =>
    refine .inl ⟨FrameCodec.item serde json, rest, ?_, ?_⟩
    · rw [heq]; exact FrameCodec.nextItem_frame hl rest
    · rw [heq]; exact FrameCodec.decodeNext_frame serde hl rest

/-- How a drain loop over `buf` ended, with the messages it gave and the bytes
it left. -/
inductive Looped (serde : SerdeJson) (buf : List UInt8) :
    List Message → Option OaatError → List UInt8 → Prop
  | all (msgs : List Message) (e : Option OaatError)
      (hitems : ((FrameCodec.decoder serde).drain buf).1 = msgs.map .ok)
      (he : e = none ∨ Jammed ((FrameCodec.decoder serde).drain buf).2) :
      Looped serde buf msgs e ((FrameCodec.decoder serde).drain buf).2
  | stopped (msgs : List Message) (e : OaatError) (post : List Item) (r : List UInt8)
      (hitems : ((FrameCodec.decoder serde).drain buf).1 = msgs.map .ok ++ .error e :: post)
      (hrest : (FrameCodec.decoder serde).drain r =
        (post, ((FrameCodec.decoder serde).drain buf).2)) :
      Looped serde buf msgs (some e) r

theorem looped (serde : SerdeJson) : ∀ (fuel : Nat) (buf : List UInt8), buf.length < fuel →
    ∃ msgs e r, decodeWhile serde fuel ⟨buf⟩ = (msgs, e, ⟨r⟩) ∧ Looped serde buf msgs e r
  | 0, _, h => absurd h (Nat.not_lt_zero _)
  | fuel + 1, buf, h => by
      rcases decodeNext_cases serde buf with ⟨x, r, hnext, hd⟩ | ⟨hnone, hd⟩ | ⟨hjam, e, hd⟩
      · have hdrain := Decoder.drain_of_some hnext
        cases x with
        | error e =>
          refine ⟨[], some e, r, by rw [decodeWhile, hd]; rfl, ?_⟩
          exact .stopped [] e ((FrameCodec.decoder serde).drain r).1 r (by rw [hdrain]; rfl)
            (by rw [hdrain])
        | ok msg =>
          have hlt := (FrameCodec.decoder serde).progress hnext
          obtain ⟨msgs, e, r', hrun, hloop⟩ := looped serde fuel r (by omega)
          refine ⟨msg :: msgs, e, r', by rw [decodeWhile, hd]; simp [Except.map, hrun], ?_⟩
          cases hloop with
          | all _ hitems he =>
            have hres : ((FrameCodec.decoder serde).drain buf).2 =
                ((FrameCodec.decoder serde).drain r).2 := by rw [hdrain]
            rw [← hres] at he ⊢
            exact .all _ e (by rw [hdrain, hitems]; rfl) he
          | stopped e post _ hitems hrest =>
            exact .stopped _ e post r' (by rw [hdrain, hitems]; rfl) (by rw [hrest, hdrain])
      · refine ⟨[], none, buf, by rw [decodeWhile, hd], ?_⟩
        have : Looped serde buf [] none _ :=
          .all [] none (by rw [Decoder.drain_of_none hnone]; rfl) (.inl rfl)
        rwa [Decoder.drain_of_none hnone] at this
      · refine ⟨[], some e, buf, by rw [decodeWhile, hd], ?_⟩
        have hnone := hjam.next serde
        have : Looped serde buf [] (some e) _ :=
          .all [] (some e) (by rw [Decoder.drain_of_none hnone]; rfl)
            (.inr (by rw [Decoder.drain_of_none hnone]; exact hjam))
        rwa [Decoder.drain_of_none hnone] at this

/-- The session stands where decoding every frame at once would stand: in the
same phase with the same bytes left, or ended where nothing more can follow. -/
inductive Agrees (s : Session) (phase : Phase) (res : List UInt8) : Prop
  | alive (hlive : s.phase ≠ .ended) (hphase : s.phase = phase) (hbuf : s.codec.buf = res)
  | finished (hend : s.phase = .ended) (hover : phase = .ended ∨ Jammed res)

/-- What a read that meets the condition has achieved: for the frames in the
buffer `buf` it is as if they had been decoded at once. -/
def AsIfAtOnce (role : Role) (serde : SerdeJson) (phase : Phase) (buf : List UInt8)
    (out : Session × List Message) : Prop :=
  let d := (FrameCodec.decoder serde).drain buf
  out.2 = (phase.items role d.1).2 ∧ Agrees out.1 (phase.items role d.1).1 d.2

/-- A read while the greeting is awaited: `x` is the first complete frame. -/
theorem read_handshake_some {x : Item} {r : List UInt8} (hphase : s.phase = .handshake)
    (hd : FrameCodec.decodeNext serde ⟨s.codec.buf ++ chunk⟩ = (x.map some, ⟨r⟩)) :
    s.read role serde chunk =
      (⟨(Phase.handshake.item role x).1, ⟨r⟩⟩, (Phase.handshake.item role x).2) := by
  have hfeed : s.codec.feed chunk = ⟨s.codec.buf ++ chunk⟩ := rfl
  rw [Session.read, hphase]
  simp only [hfeed, hd]
  cases x <;> rfl

theorem read_handshake (hphase : s.phase = .handshake) :
    (ReadOk role serde s chunk →
      AsIfAtOnce role serde .handshake (s.codec.buf ++ chunk) (s.read role serde chunk)) ∧
    (Prompt serde (s.read role serde chunk).1 ↔ ReadOk role serde s chunk) := by
  have hfeed : s.codec.feed chunk = ⟨s.codec.buf ++ chunk⟩ := rfl
  have hcond : ReadOk role serde s chunk ↔
      let items := ((FrameCodec.decoder serde).drain (s.codec.buf ++ chunk)).1
      items.length ≤ 1 ∨ ∃ x ∈ items.head?, Refused role x := by
    simp only [ReadOk, hphase]
  rw [hcond]
  rcases decodeNext_cases serde (s.codec.buf ++ chunk) with
    ⟨x, r, hnext, hd⟩ | ⟨hnone, hd⟩ | ⟨hjam, e, hd⟩
  · have hdrain := Decoder.drain_of_some hnext
    rw [read_handshake_some hphase hd, hdrain]
    cases hmore : (FrameCodec.decoder serde).next r with
    | none =>
      -- `x` is the only complete frame
      have hrest := Decoder.drain_of_none hmore
      refine ⟨?_, fun _ => .inl (by simp [hrest]), fun _ _ => hmore⟩
      intro _
      refine ⟨by simp [hdrain, hrest, Phase.items], ?_⟩
      simp only [hdrain, hrest, Phase.items]
      by_cases hend : (Phase.handshake.item role x).1 = .ended
      · exact .finished hend (.inl hend)
      · exact .alive hend rfl rfl
    | some p =>
      obtain ⟨y, r'⟩ := p
      have hrest := Decoder.drain_of_some hmore
      have hiff : (((x :: ((FrameCodec.decoder serde).drain r).1).length ≤ 1 ∨
          ∃ x' ∈ (x :: ((FrameCodec.decoder serde).drain r).1).head?, Refused role x')) ↔
          Refused role x := by simp [hrest]
      rw [hiff]
      refine ⟨fun href => ⟨?_, ?_⟩, ?_, fun href hlive => absurd href hlive⟩
      · simp only [hdrain, Phase.items]
        rw [show (Phase.handshake.item role x).1 = .ended from href, Phase.items_ended]
        simp
      · refine .finished href (.inl ?_)
        simp only [hdrain, Phase.items]
        rw [show (Phase.handshake.item role x).1 = .ended from href, Phase.items_ended]
      · intro hprompt
        by_contra hlive
        have := hprompt hlive
        rw [show (FrameCodec.decoder serde).next r = none from this] at hmore
        cases hmore
  · have hread : s.read role serde chunk = (⟨.handshake, ⟨s.codec.buf ++ chunk⟩⟩, []) := by
      rw [Session.read, hphase]
      simp only [hfeed, hd]
    rw [hread, Decoder.drain_of_none hnone]
    refine ⟨fun _ => ⟨?_, ?_⟩, fun _ => .inl (by simp), fun _ _ => hnone⟩
    · simp [Decoder.drain_of_none hnone, Phase.items]
    · rw [Decoder.drain_of_none hnone]
      exact .alive (by simp) rfl rfl
  · have hread : s.read role serde chunk = (⟨.ended, ⟨s.codec.buf ++ chunk⟩⟩, []) := by
      rw [Session.read, hphase]
      simp only [hfeed, hd]
    have hnone := hjam.next serde
    rw [hread, Decoder.drain_of_none hnone]
    refine ⟨fun _ => ⟨?_, ?_⟩, fun _ => .inl (by simp), fun _ hlive => absurd rfl hlive⟩
    · simp [Decoder.drain_of_none hnone, Phase.items]
    · rw [Decoder.drain_of_none hnone]
      exact .finished rfl (.inr hjam)

/-- Behind the messages that a drain loop takes there is nothing, or the frame
that stopped it. -/
theorem dropWhile_isOk (msgs : List Message) (rest : List Item) :
    ((msgs.map Except.ok ++ rest : List Item).dropWhile (·.isOk)) =
      rest.dropWhile (·.isOk) := by
  induction msgs with
  | nil => rfl
  | cons msg msgs ih =>
    rw [List.map_cons, List.cons_append, List.dropWhile_cons_of_pos rfl, ih]

/-- The loop took every complete frame. -/
theorem asIfAtOnce_all {msgs : List Message} {e : Option OaatError}
    (hitems : ((FrameCodec.decoder serde).drain buf).1 = msgs.map .ok)
    (he : e = none ∨ Jammed ((FrameCodec.decoder serde).drain buf).2) :
    AsIfAtOnce role serde .running buf
      (⟨role.afterLoop e, ⟨((FrameCodec.decoder serde).drain buf).2⟩⟩, msgs) := by
  refine ⟨by simp only [hitems, Phase.items_ok], ?_⟩
  simp only [hitems, Phase.items_ok]
  by_cases hend : role.afterLoop e = .ended
  · refine .finished hend (.inr (he.resolve_left ?_))
    rintro rfl
    cases role <;> cases hend
  · refine .alive hend ?_ rfl
    cases role with
    | controller => rfl
    | endpoint =>
      cases e with
      | none => rfl
      | some err => exact absurd rfl hend

/-- The loop was stopped by a frame: at once, the frames behind it would follow. -/
theorem items_stopped {msgs : List Message} {err : OaatError} {post : List Item} :
    Phase.running.items role (msgs.map .ok ++ .error err :: post) =
      (((role.afterLoop (some err)).items role post).1,
        msgs ++ ((role.afterLoop (some err)).items role post).2) := by
  rw [Phase.items_append, Phase.items_ok]
  simp [Phase.items, Phase.item]

/-- A read of the running loop. -/
theorem read_running (hphase : s.phase = .running) :
    (ReadOk role serde s chunk →
      AsIfAtOnce role serde .running (s.codec.buf ++ chunk) (s.read role serde chunk)) ∧
    (Prompt serde (s.read role serde chunk).1 ↔ ReadOk role serde s chunk) := by
  obtain ⟨msgs, e, r, hrun, hloop⟩ := looped serde
    ((s.codec.buf ++ chunk).length + 1) (s.codec.buf ++ chunk) (Nat.lt_succ_self _)
  have hread : s.read role serde chunk = (⟨role.afterLoop e, ⟨r⟩⟩, msgs) := by
    rw [Session.read, hphase]
    simp only [FrameCodec.feed, hrun]
  have hcond : ReadOk role serde s chunk ↔ (role = .controller →
      (((FrameCodec.decoder serde).drain (s.codec.buf ++ chunk)).1.dropWhile
        (·.isOk)).length ≤ 1) := by
    cases role <;> simp [ReadOk, hphase]
  rw [hcond, hread]
  cases hloop with
  | all _ hitems he =>
    have hok : (((FrameCodec.decoder serde).drain (s.codec.buf ++ chunk)).1.dropWhile
        (·.isOk)).length ≤ 1 := by
      have := dropWhile_isOk msgs []
      rw [List.append_nil] at this
      rw [hitems, this]
      simp
    exact ⟨fun _ => asIfAtOnce_all hitems he, fun _ _ => hok, fun _ _ => Decoder.next_drain _⟩
  | stopped err post _ hitems hrest =>
    have hlen : (((FrameCodec.decoder serde).drain (s.codec.buf ++ chunk)).1.dropWhile
        (·.isOk)).length = post.length + 1 := by
      rw [hitems, dropWhile_isOk, List.dropWhile_cons_of_neg (by simp [Except.isOk, Except.toBool])]
      rfl
    rw [hlen]
    cases role with
    | endpoint =>
      refine ⟨fun _ => ⟨?_, .finished rfl (.inl ?_)⟩, fun _ h => absurd h (by decide),
        fun _ hlive => absurd rfl hlive⟩
      · simp only [hitems, items_stopped, Role.afterLoop, Phase.items_ended, List.append_nil]
      · simp only [hitems, items_stopped, Role.afterLoop, Phase.items_ended]
    | controller =>
      have hpost : (FrameCodec.decoder serde).next r = none ↔ post.length + 1 ≤ 1 := by
        rw [Decoder.next_eq_none_iff, hrest]
        simp
      refine ⟨?_, fun hprompt _ => hpost.mp (hprompt (by simp [Role.afterLoop])),
        fun h _ => hpost.mpr (h rfl)⟩
      intro h
      have hnil : post = [] := List.eq_nil_of_length_eq_zero (by have := h rfl; omega)
      subst hnil
      rw [Decoder.drain_of_none (hpost.mpr (h rfl))] at hrest
      refine ⟨by simp only [hitems, items_stopped, Phase.items, List.append_nil], ?_⟩
      simp only [hitems, items_stopped, Phase.items]
      exact .alive (by simp [Role.afterLoop]) rfl (Prod.mk.inj hrest).2

/-- **One read.** -/
theorem read_cases (role : Role) (serde : SerdeJson) (s : Session) (chunk : List UInt8) :
    (ReadOk role serde s chunk →
      AsIfAtOnce role serde s.phase (s.codec.buf ++ chunk) (s.read role serde chunk)) ∧
    (Prompt serde (s.read role serde chunk).1 ↔ ReadOk role serde s chunk) := by
  cases hphase : s.phase with
  | handshake => exact read_handshake hphase
  | running => exact read_running hphase
  | ended =>
    have hread : s.read role serde chunk = (s, []) := by rw [Session.read, hphase]
    rw [hread]
    refine ⟨?_, fun _ => by simp [ReadOk, hphase], fun _ hlive => absurd hphase hlive⟩
    intro _
    exact ⟨by rw [Phase.items_ended], .finished hphase (.inl (by rw [Phase.items_ended]))⟩

end

/-! ## Whole connections -/

section

variable {role : Role} {serde : SerdeJson}

/-- The bytes acted upon so far and those still to come. -/
theorem reads_agree : ∀ (chunks : List (List UInt8)) (s : Session) (phase : Phase)
    (res : List UInt8), Agrees s phase res → (FrameCodec.decoder serde).next res = none →
    Along (readStep role serde) (ReadOk role serde) s chunks →
    ∃ s', run (readStep role serde) s chunks = .ok (s',
      (phase.items role ((FrameCodec.decoder serde).drain (res ++ chunks.flatten)).1).2)
  | [], s, phase, res, _, hres, _ => by
      refine ⟨s, ?_⟩
      rw [List.flatten_nil, List.append_nil, Decoder.drain_of_none hres]
      rfl
  | chunk :: chunks, s, phase, res, hag, hres, hok => by
      have hrest : Along (readStep role serde) (ReadOk role serde) (s.read role serde chunk).1
        chunks := hok.2 _ _ rfl
      -- the frames of this chunk, then those of the rest
      have hsplit := Decoder.drain_append (d := FrameCodec.decoder serde) (res ++ chunk)
        chunks.flatten
      rw [List.append_assoc] at hsplit
      have hstep : (s.read role serde chunk).2 =
          (phase.items role ((FrameCodec.decoder serde).drain (res ++ chunk)).1).2 ∧
          Agrees (s.read role serde chunk).1
            (phase.items role ((FrameCodec.decoder serde).drain (res ++ chunk)).1).1
            ((FrameCodec.decoder serde).drain (res ++ chunk)).2 := by
        cases hag with
        | alive hlive hphase hbuf =>
          have := (read_cases role serde s chunk).1 hok.1
          rwa [AsIfAtOnce, hphase, hbuf] at this
        | finished hend hover =>
          have hread : s.read role serde chunk = (s, []) := by rw [Session.read, hend]
          rw [hread]
          rcases hover with rfl | hjam
          · rw [Phase.items_ended]
            exact ⟨rfl, .finished hend (.inl rfl)⟩
          · have hjam' := hjam.append chunk
            rw [Decoder.drain_of_none (hjam'.next serde)]
            exact ⟨rfl, .finished hend (.inr hjam')⟩
      obtain ⟨s', hrun⟩ := reads_agree chunks _ _ _ hstep.2 (Decoder.next_drain _) hrest
      refine ⟨s', ?_⟩
      have hfirst : readStep role serde s chunk =
          .ok ((s.read role serde chunk).1, (s.read role serde chunk).2) := rfl
      have hcons := run_cons_ok hfirst hrun
      rw [hcons, List.flatten_cons, hsplit, Phase.items_append, hstep.1]

/-- Prompt reads are those that meet the condition. -/
theorem along_prompt_iff : ∀ (chunks : List (List UInt8)) (s : Session),
    Along (readStep role serde) (fun s chunk => Prompt serde (s.read role serde chunk).1) s chunks ↔
      Along (readStep role serde) (ReadOk role serde) s chunks
  | [], _ => Iff.rfl
  | chunk :: chunks, s =>
      and_congr (read_cases role serde s chunk).2
        ⟨fun h s' o hs => (along_prompt_iff chunks s').mp (h s' o hs),
          fun h s' o hs => (along_prompt_iff chunks s').mpr (h s' o hs)⟩

/-- Reads that meet the condition act on the messages of their bytes. -/
theorem run_of_readOk {chunks : List (List UInt8)}
    (h : Along (readStep role serde) (ReadOk role serde) .new chunks) :
    ∃ s, run (readStep role serde) .new chunks = .ok (s, acted role serde chunks.flatten) := by
  have hstart : Agrees Session.new .handshake [] := .alive (by simp [Session.new]) rfl rfl
  exact reads_agree chunks .new .handshake [] hstart rfl h

end

/-- **Exactly when the division into reads does not matter.** For either end of
the connection, every byte string and every division of it into reads: no
complete frame is left undecoded while the session waits for more bytes, and
the messages acted upon are those of the byte string however it is divided, if
and only if every read meets the condition `ReadOk`. -/
theorem prompt_and_independent_iff (role : Role) (serde : SerdeJson)
    (chunks : List (List UInt8)) :
    (Along (readStep role serde) (fun s chunk => Prompt serde (s.read role serde chunk).1) .new
        chunks ∧
      ∃ s, run (readStep role serde) .new chunks = .ok (s, acted role serde chunks.flatten)) ↔
    Along (readStep role serde) (ReadOk role serde) .new chunks := by
  rw [along_prompt_iff]
  exact ⟨fun h => h.1, fun h => ⟨h, run_of_readOk h⟩⟩

/-! ## Reads that matter -/

def sampleHello : Message :=
  .hello { protocolVersion := 1, controllerId := "c", controllerName := "n", clockPort := 9742,
           features := [] }

def sampleHelloAck : Message :=
  .helloAck { protocolVersion := 1, endpointId := "e", endpointName := "n",
              capabilities := { pcmMaxRate := 192000, pcmMaxBits := 24, dsdMaxRate := none,
                                channelsMax := 2, formats := [.pcmS16le], volume := none,
                                gapless := false, seek := false },
              audioPort := 1, clockPort := 2, bufferSizeMs := 1000, features := [] }

/-- `serde_json`'s texts of the messages below. -/
def sampleSerde : SerdeJson := .table [
  (.volumeGet, ["\x7b\"type\":\"volume_get\"\x7d"]),
  (.formatAccept "s", ["\x7b\"type\":\"format_accept\",", "\"stream_id\":\"s\"\x7d"]),
  (sampleHello, ["\x7b\"type\":\"hello\",\"protocol_version\":1,", "\"controller_id\":\"c\",",
    "\"controller_name\":\"n\",", "\"clock_port\":9742,\"features\":[]\x7d"]),
  (sampleHelloAck, ["\x7b\"type\":\"hello_ack\",", "\"protocol_version\":1,",
    "\"endpoint_id\":\"e\",", "\"endpoint_name\":\"n\",", "\"capabilities\":\x7b",
    "\"pcm_max_rate\":192000,", "\"pcm_max_bits\":24,", "\"dsd_max_rate\":null,",
    "\"channels_max\":2,", "\"formats\":[\"PCM_S16LE\"],", "\"volume\":null,",
    "\"gapless\":false,\"seek\":false\x7d,", "\"audio_port\":1,\"clock_port\":2,",
    "\"buffer_size_ms\":1000\x7d"])]

def sampleFrame (msg : Message) : List UInt8 := msg.encodeFramed sampleSerde

/-- A frame of one byte that is no JSON. -/
def malformedFrame : List UInt8 := [0, 0, 0, 1, 120]

/-- The messages acted upon in a sequence of reads. -/
def actedIn (role : Role) (reads : List (List UInt8)) : Option (List Message) :=
  match run (readStep role sampleSerde) .new reads with
  | .ok (_, msgs) => some msgs
  | .error e => nomatch e

/-- A message that comes in the same read as the greeting waits for more bytes,
and so does one behind a malformed frame. -/
theorem reads_matter :
    actedIn .endpoint [sampleFrame sampleHello, sampleFrame .volumeGet] =
        some [sampleHello, .volumeGet] ∧
      actedIn .endpoint [sampleFrame sampleHello ++ sampleFrame .volumeGet] =
        some [sampleHello] ∧
      actedIn .controller [sampleFrame sampleHelloAck, malformedFrame,
        sampleFrame (.formatAccept "s")] = some [sampleHelloAck, .formatAccept "s"] ∧
      actedIn .controller [sampleFrame sampleHelloAck,
        malformedFrame ++ sampleFrame (.formatAccept "s")] = some [sampleHelloAck] := by
  refine ⟨?_, ?_, ?_, ?_⟩ <;> decide +kernel

end Oaat.Control
