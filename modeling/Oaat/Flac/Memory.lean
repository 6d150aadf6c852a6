/-
Oaat.Flac.Memory — how much input the FLAC decoder keeps.

The loop of `drain_frames` stops at the end of the buffer, at a header that is
still incomplete, at a frame whose end is not there yet, or at a candidate that
ends where the buffer does and that the codec refuses. The guard against
candidates longer than `MAX_FRAME_BYTES` stands on the third way out only, so a
feed leaves more than that exactly when its loop takes the fourth on a candidate
that long (`HeldBack`).
-/
import Oaat.Flac.Chunking
import Oaat.Endpoint.FlacStream
import Oaat.Lib.Run

namespace Oaat.Flac

open Oaat.Endpoint Oaat.Lib

variable {σ : Type} {codec : CodecRegistry σ}

/-! ## One pass -/

/-- The candidate at the front of the unread input ends where the input does, is
longer than `MAX_FRAME_BYTES`, and the codec refuses it. -/
def HeldBack (codec : CodecRegistry σ) (s : DrainState σ) : Prop :=
  ∃ buf headerLen e, resync s.unread = some buf ∧ MAX_FRAME_BYTES < buf.length ∧
    frameHeader buf = .valid headerLen ∧ frameEnd buf headerLen = some buf.length ∧
    (codec.decode s.decoder buf).1 = .error e

theorem codedLen_le {c : UInt8} {n : Nat} (h : codedLen c = some n) : n ≤ 7 := by
  unfold codedLen at h
  split_ifs at h <;> simp_all <;> omega

theorem extraLen_le (blockCode rateCode : UInt8) : extraLen blockCode rateCode ≤ 4 := by
  unfold extraLen
  split_ifs <;> omega

theorem headerTail_incomplete {b : List UInt8} {coded crcAt : Nat}
    (h : headerTail b coded crcAt = .incomplete) : b.length ≤ crcAt := by
  unfold headerTail at h
  split_ifs at h with _ hlen
  exact hlen

/-- Fifteen bytes decide about any header. -/
theorem frameHeader_incomplete_length {b : List UInt8} (h : frameHeader b = .incomplete) :
    b.length ≤ 15 := by
  simp only [frameHeader] at h
  split_ifs at h with hnil _ h2 _ h5
  · simp [List.isEmpty_iff.mp hnil]
  · omega
  · omega
  · split at h
    · cases h
    · next coded hcoded =>
      have hlen := headerTail_incomplete h
      have hcodedLe := codedLen_le hcoded
      have hextra := extraLen_le (b.getD 2 0 >>> 4) (b.getD 2 0 &&& 0x0F)
      omega

theorem resync_ne_invalid {b b' : List UInt8} (h : resync b = some b') :
    b' ≠ [] ∧ frameHeader b' ≠ .invalid := by
  induction b with
  | nil => simp [resync] at h
  | cons b0 rest ih =>
    rw [resync] at h
    split at h
    · exact ih h
    · next hne =>
      obtain rfl := Option.some.inj h
      exact ⟨List.cons_ne_nil _ _, hne⟩

/-- The ways through one pass of the loop, each with what the pass came to. -/
inductive PassCases (codec : CodecRegistry σ) (s : DrainState σ) :
    Pass (DrainState σ) (DrainState σ) → Prop where
  | drained (hnil : s.unread = []) : PassCases codec s (.stop s)
  | unsynced (hne : s.unread ≠ []) (hr : resync s.unread = none) :
      PassCases codec s (.stop { s with unread := [] })
  | partialHeader {buf : List UInt8} (hne : s.unread ≠ []) (hr : resync s.unread = some buf)
      (hh : frameHeader buf = .incomplete) : PassCases codec s (.stop { s with unread := buf })
  | oversized {buf : List UInt8} {headerLen : Nat} (hne : s.unread ≠ [])
      (hr : resync s.unread = some buf) (hh : frameHeader buf = .valid headerLen)
      (hend : frameEnd buf headerLen = none) (hmax : MAX_FRAME_BYTES < buf.length) :
      PassCases codec s (.again { s with unread := buf.drop 1 })
  | partialFrame {buf : List UInt8} {headerLen : Nat} (hne : s.unread ≠ [])
      (hr : resync s.unread = some buf) (hh : frameHeader buf = .valid headerLen)
      (hend : frameEnd buf headerLen = none) (hmax : buf.length ≤ MAX_FRAME_BYTES) :
      PassCases codec s (.stop { s with unread := buf })
  | decoded {buf : List UInt8} {headerLen fin : Nat} {samples : List UInt32}
      (hne : s.unread ≠ []) (hr : resync s.unread = some buf)
      (hh : frameHeader buf = .valid headerLen) (hend : frameEnd buf headerLen = some fin)
      (hdec : (codec.decode s.decoder (buf.take fin)).1 = .ok samples) :
      PassCases codec s (.again {
        decoder := (codec.decode s.decoder (buf.take fin)).2
        unread := buf.drop fin
        samples := s.samples ++ samples })
  | refusedAtEnd {buf : List UInt8} {headerLen : Nat} {e : String} (hne : s.unread ≠ [])
      (hr : resync s.unread = some buf) (hh : frameHeader buf = .valid headerLen)
      (hend : frameEnd buf headerLen = some buf.length)
      (hdec : (codec.decode s.decoder buf).1 = .error e) :
      PassCases codec s
        (.stop { s with decoder := (codec.decode s.decoder buf).2, unread := buf })
  | refused {buf : List UInt8} {headerLen fin : Nat} {e : String} (hne : s.unread ≠ [])
      (hr : resync s.unread = some buf) (hh : frameHeader buf = .valid headerLen)
      (hend : frameEnd buf headerLen = some fin) (hfin : fin ≠ buf.length)
      (hdec : (codec.decode s.decoder (buf.take fin)).1 = .error e) :
      PassCases codec s (.again {
        s with
        decoder := (codec.decode s.decoder (buf.take fin)).2
        unread := buf.drop fin })

theorem drainPass_cases (codec : CodecRegistry σ) (s : DrainState σ) :
    PassCases codec s (drainPass codec s) := by
  by_cases hne : s.unread = []
  · simp only [drainPass, if_pos hne]
    exact .drained hne
  · cases hr : resync s.unread with
    | none =>
      simp only [drainPass, if_neg hne, hr]
      exact .unsynced hne hr
    | some buf =>
      cases hh : frameHeader buf with
      | invalid => exact absurd hh (resync_ne_invalid hr).2
      | incomplete =>
        simp only [drainPass, if_neg hne, hr, hh]
        exact .partialHeader hne hr hh
      | valid headerLen =>
        cases hend : frameEnd buf headerLen with
        | none =>
          by_cases hmax : MAX_FRAME_BYTES < buf.length
          · simp only [drainPass, if_neg hne, hr, hh, hend, gt_iff_lt, if_pos hmax]
            exact .oversized hne hr hh hend hmax
          · simp only [drainPass, if_neg hne, hr, hh, hend, gt_iff_lt, if_neg hmax]
            exact .partialFrame hne hr hh hend (Nat.not_lt.mp hmax)
        | some fin =>
          cases hdec : (codec.decode s.decoder (buf.take fin)).1 with
          | ok samples =>
            simp only [drainPass, if_neg hne, hr, hh, hend, hdec]
            exact .decoded hne hr hh hend hdec
          | error e =>
            by_cases hfin : fin = buf.length
            · simp only [drainPass, if_neg hne, hr, hh, hend, hdec, if_pos hfin]
              subst hfin
              rw [List.take_length] at hdec ⊢
              exact .refusedAtEnd hne hr hh hend hdec
            · simp only [drainPass, if_neg hne, hr, hh, hend, hdec, if_neg hfin]
              exact .refused hne hr hh hend hfin hdec

/-- A pass that goes on has used up input. -/
theorem drainPass_again {s s' : DrainState σ} (h : drainPass codec s = .again s') :
    s'.unread.length < s.unread.length := by
  have hless : ∀ {buf : List UInt8} {n : Nat}, resync s.unread = some buf → 0 < n →
      (buf.drop n).length < s.unread.length := by
    intro buf n hr hn
    have hlen := length_resync hr
    have hpos := List.length_pos_iff.mpr (resync_ne_invalid hr).1
    rw [List.length_drop]
    omega
  have hframe : ∀ {buf : List UInt8} {headerLen fin : Nat},
      frameEnd buf headerLen = some fin → 0 < fin := by
    intro buf headerLen fin hend
    have hspec := frameEnd_spec buf headerLen
    rw [hend] at hspec
    have hbody := hspec.1.body
    omega
  have hpass := drainPass_cases codec s
  rw [h] at hpass
  cases hpass with
  | oversized hne hr hh hend hmax => exact hless hr Nat.one_pos
  | decoded hne hr hh hend hdec => exact hless hr (hframe hend)
  | refused hne hr hh hend hfin hdec => exact hless hr (hframe hend)

/-- **The ways out of the loop.** Only a refused candidate at the end of the
buffer may be longer than `MAX_FRAME_BYTES`. -/
theorem drainPass_stop {s t : DrainState σ} (h : drainPass codec s = .stop t) :
    t.unread.length ≤ MAX_FRAME_BYTES ↔ ¬ HeldBack codec s := by
  have hpass := drainPass_cases codec s
  rw [h] at hpass
  cases hpass with
  | drained hnil => simp [HeldBack, hnil, resync]
  | unsynced hne hr => simp [HeldBack, hr]
  | @partialHeader buf hne hr hh =>
    have hlen := frameHeader_incomplete_length hh
    have hmax : buf.length ≤ MAX_FRAME_BYTES := by
      unfold MAX_FRAME_BYTES
      omega
    simp [HeldBack, hr, hh, hmax]
  | partialFrame hne hr hh hend hmax =>
    simp only [HeldBack, hr]
    simp [hmax]
  | refusedAtEnd hne hr hh hend hdec => simp [HeldBack, hr, hh, hend, hdec]

/-! ## One feed -/

/-- The feed's loop comes to a candidate that it holds back. -/
def Overgrows (codec : CodecRegistry σ) (d : FlacStream σ) (data : List UInt8) : Prop :=
  ∃ d' decoder s, FlacStream.acceptHeader codec { d with buf := d.buf ++ data } = (d', true) ∧
    d'.decoder = some decoder ∧
    Reaches (drainPass codec) { decoder, unread := d'.buf, samples := [] } s ∧ HeldBack codec s

/-- The loop stops on a candidate that it holds back. -/
theorem HeldBack.stops {s : DrainState σ} (h : HeldBack codec s) :
    ∃ t, drainPass codec s = .stop t := by
  obtain ⟨buf, headerLen, e, hr, -, hh, hend, hdec⟩ := h
  have hne : s.unread ≠ [] := by
    intro hnil
    simp [hnil, resync] at hr
  refine ⟨{ s with decoder := (codec.decode s.decoder buf).2, unread := buf }, ?_⟩
  simp [drainPass, hne, hr, hh, hend, hdec]

/-- **One drain.** It returns, and leaves more than `MAX_FRAME_BYTES` exactly when
its loop comes to a candidate that it holds back. -/
theorem drainFrames_spec (codec : CodecRegistry σ) {d : FlacStream σ} {decoder : σ}
    (hdec : d.decoder = some decoder) :
    ∃ d' samples, d.drainFrames codec = .ok (d', samples) ∧ d'.decoder ≠ none ∧
      (d'.buf.length ≤ MAX_FRAME_BYTES ↔
        ¬ ∃ s, Reaches (drainPass codec) { decoder, unread := d.buf, samples := [] } s ∧
          HeldBack codec s) := by
  obtain ⟨t, ht⟩ := loop_returns (drainPass codec) (fun s => s.unread.length)
    (fun _ _ => drainPass_again) (d.buf.length + 1) { decoder, unread := d.buf, samples := [] }
    (Nat.lt_succ_self _)
  obtain ⟨u, hreach, hstop⟩ := loop_stopped ht
  refine ⟨{ d with buf := t.unread, decoder := some t.decoder }, t.samples, ?_, by simp, ?_⟩
  · simp only [FlacStream.drainFrames, hdec, ht]
    rfl
  · refine (drainPass_stop hstop).trans (not_congr ⟨fun h => ⟨u, hreach, h⟩, ?_⟩)
    rintro ⟨s, hs, hheld⟩
    obtain ⟨b, hb⟩ := hheld.stops
    exact hreach.stop_unique hs hstop hb ▸ hheld

/-- The stream header is accepted once the codec has made a decoder. -/
def HasDecoder (d : FlacStream σ) : Prop := d.initialized = true → d.decoder ≠ none

theorem tryInit_decoder {d d' : FlacStream σ} {headerLen : Nat}
    (h : d.tryInit codec headerLen = .ok d') : d'.decoder ≠ none := by
  unfold FlacStream.tryInit at h
  split at h
  · cases h
  · split at h
    · cases h
    · obtain rfl := Except.ok.inj h
      simp

/-- Frames are looked at once the header is there. -/
theorem acceptHeader_spec (codec : CodecRegistry σ) {d : FlacStream σ} (hd : HasDecoder d) :
    (FlacStream.acceptHeader codec d).1.initialized = (FlacStream.acceptHeader codec d).2 ∧
      HasDecoder (FlacStream.acceptHeader codec d).1 := by
  unfold FlacStream.acceptHeader
  split
  · next hinit => exact ⟨hinit, hd⟩
  · next hinit =>
    have hfalse : d.initialized = false := by simpa using hinit
    split_ifs
    · exact ⟨hfalse, hd⟩
    · exact ⟨hfalse, hd⟩
    · split
      · exact ⟨hfalse, hd⟩
      · split
        · exact ⟨hfalse, hd⟩
        · next d₁ htry =>
          have hsome := tryInit_decoder htry
          exact ⟨rfl, fun _ => hsome⟩

theorem drainFrames_initialized {d d' : FlacStream σ} {samples : List UInt32}
    (h : d.drainFrames codec = .ok (d', samples)) : d'.initialized = d.initialized := by
  unfold FlacStream.drainFrames at h
  split at h
  · obtain ⟨rfl, -⟩ : d = d' ∧ _ := by simpa using h
    rfl
  · next decoder hdec =>
    cases hl : loop (drainPass codec) (d.buf.length + 1)
        { decoder, unread := d.buf, samples := [] } with
    | error e => simp [hl, Except.map] at h
    | ok t =>
      obtain ⟨rfl, -⟩ : _ = d' ∧ _ := by simpa [hl, Except.map] using h
      rfl

/-- **One feed.** It returns; a decoder that has its stream header keeps at most
`MAX_FRAME_BYTES` exactly when the loop of the feed holds no candidate back. -/
theorem feed_spec (codec : CodecRegistry σ) {d : FlacStream σ} (hd : HasDecoder d)
    (data : List UInt8) :
    ∃ d' samples, d.feed codec data = .ok (d', samples) ∧ HasDecoder d' ∧
      ((d'.initialized = true → d'.buf.length ≤ MAX_FRAME_BYTES) ↔ ¬ Overgrows codec d data) := by
  have hd₁ : HasDecoder { d with buf := d.buf ++ data } := hd
  obtain ⟨hinit, hhas⟩ := acceptHeader_spec codec hd₁
  unfold FlacStream.feed
  rcases ha : FlacStream.acceptHeader codec { d with buf := d.buf ++ data } with ⟨d₁, _ | _⟩ <;>
    rw [ha] at hinit hhas
  · refine ⟨d₁, [], rfl, hhas, ?_⟩
    simp only at hinit
    simp [Overgrows, ha, hinit]
  · have hsome : d₁.decoder ≠ none := hhas hinit
    obtain ⟨decoder, hdec⟩ := Option.ne_none_iff_exists'.mp hsome
    obtain ⟨d', samples, hdrain, hsome', hiff⟩ := drainFrames_spec codec hdec
    refine ⟨d', samples, hdrain, fun _ => hsome', ?_⟩
    have hinit' : d'.initialized = true := (drainFrames_initialized hdrain).trans hinit
    have hover : Overgrows codec d data ↔
        ∃ s, Reaches (drainPass codec) { decoder, unread := d₁.buf, samples := [] } s ∧
          HeldBack codec s := by
      constructor
      · rintro ⟨d₂, decoder₂, s, ha₂, hdec₂, hreach, hheld⟩
        obtain rfl : d₁ = d₂ := by simpa [ha] using ha₂
        obtain rfl : decoder = decoder₂ := by simpa [hdec] using hdec₂
        exact ⟨s, hreach, hheld⟩
      · rintro ⟨s, hreach, hheld⟩
        exact ⟨d₁, decoder, s, ha, hdec, hreach, hheld⟩
    rw [hover]
    exact (imp_iff_right hinit').trans hiff

/-! ## A codec that is a function of the packet -/

theorem loop_drainPass (codec : Codec) (info : List UInt8) :
    ∀ (fuel : Nat) (unread : List UInt8) (samples : List UInt32), unread.length ≤ fuel →
      loop (drainPass codec.registry) (fuel + 1) { decoder := info, unread, samples } =
        .ok {
          decoder := info
          unread := (drainFrom (codec.decode info) fuel unread).2
          samples := samples ++
            (drainFrom (codec.decode info) fuel unread).1.flatMap Decoded.samples }
  | 0, unread, samples, hfuel => by
      obtain rfl := List.length_eq_zero_iff.mp (Nat.le_zero.mp hfuel)
      simp [loop, drainPass, drainFrom]
  | fuel + 1, unread, samples, hfuel => by
      -- a pass that goes on leaves few enough bytes for the rest of the fuel
      have hagain : ∀ s', drainPass codec.registry { decoder := info, unread, samples } =
          .again s' → s'.unread.length ≤ fuel := by
        intro s' h
        have hless : s'.unread.length < unread.length := drainPass_again h
        omega
      have hpass := drainPass_cases codec.registry { decoder := info, unread, samples }
      rw [loop, drainFrom]
      generalize drainPass codec.registry { decoder := info, unread, samples } = p at hpass hagain ⊢
      cases hpass with
      | drained hnil =>
        obtain rfl : unread = [] := hnil
        simp [resync]
      | unsynced hne hr => simp [hr]
      | partialHeader hne hr hh => simp [hr, hh]
      | oversized hne hr hh hend hmax =>
        simp only [hr, hh, hend, gt_iff_lt, hmax, if_true]
        exact loop_drainPass codec info fuel _ _ (hagain _ rfl)
      | partialFrame hne hr hh hend hmax => simp [hr, hh, hend, Nat.not_lt.mpr hmax]
      | decoded hne hr hh hend hdec =>
        simp only [Codec.registry] at hdec
        simp only [hr, hh, hend, hdec, List.flatMap_cons, ← List.append_assoc]
        exact loop_drainPass codec info fuel _ _ (hagain _ rfl)
      | refusedAtEnd hne hr hh hend hdec =>
        simp only [Codec.registry] at hdec
        simp [hr, hh, hend, hdec, Codec.registry]
      | refused hne hr hh hend hfin hdec =>
        simp only [Codec.registry] at hdec
        simp only [hr, hh, hend, hdec, if_neg hfin]
        exact loop_drainPass codec info fuel _ _ (hagain _ rfl)

/-- On a codec that is a function of the packet the decoder is the one of
`Oaat.Endpoint.FlacDecoder`. -/
theorem feed_stream (codec : Codec) (d : FlacStreamDecoder) (data : List UInt8) :
    d.stream.feed codec.registry data =
      .ok ((d.feed codec data).1.stream, (d.feed codec data).2.flatMap Decoded.samples) := by
  have hdrain : ∀ d : FlacStreamDecoder, d.stream.drainFrames codec.registry =
      .ok ((d.drainFrames codec).1.stream,
        (d.drainFrames codec).2.flatMap Decoded.samples) := by
    rintro ⟨buf, initialized, decoder⟩
    cases decoder with
    | none => rfl
    | some info =>
      simp only [FlacStream.drainFrames, FlacStreamDecoder.stream,
        loop_drainPass codec info buf.length buf [] le_rfl]
      rfl
  obtain ⟨buf, initialized, decoder⟩ := d
  simp only [FlacStream.feed, FlacStream.acceptHeader, FlacStreamDecoder.feed,
    FlacStreamDecoder.stream]
  cases initialized with
  | true => exact hdrain { buf := buf ++ data, initialized := true, decoder }
  | false =>
    simp only [Bool.false_eq_true, if_false]
    by_cases h4 : (buf ++ data).length < 4
    · simp only [h4, if_true, List.flatMap_nil]
    · simp only [h4, if_false]
      by_cases hmarker : (buf ++ data).take 4 = FlacStreamDecoder.MARKER
      · simp only [hmarker, ne_eq, not_true_eq_false, if_false]
        cases streamHeaderLen (buf ++ data) with
        | none => simp
        | some headerLen =>
          simp only [FlacStream.tryInit, FlacStreamDecoder.tryInit]
          cases hinfo : streamInfo ((buf ++ data).take headerLen) with
          | none => simp
          | some info =>
            cases hmake : codec.make info with
            | error e => simp [Codec.registry, hmake, Except.map]
            | ok u =>
              simp only [Codec.registry, hmake, Except.map]
              exact hdrain
                { buf := (buf ++ data).drop headerLen, initialized := true, decoder := some info }
      · simp only [hmarker, ne_eq, not_false_eq_true, if_true, List.flatMap_nil]

/-! ## Any sequence of feeds -/

/-- **The memory of the decoder.** Any chunks fed to a new decoder, whatever the
codec answers to each candidate: every feed returns. From the accepted stream
header on, every feed leaves at most `MAX_FRAME_BYTES` of unread input if and
only if no feed's loop comes to a candidate longer than that which ends where
the buffer does and which the codec refuses. -/
theorem unread_bounded_iff (codec : CodecRegistry σ) (chunks : List (List UInt8)) :
    (∃ d samples, run (FlacStream.feed codec) .new chunks = .ok (d, samples)) ∧
    (Throughout (FlacStream.feed codec)
        (fun d _ => d.initialized = true → d.buf.length ≤ MAX_FRAME_BYTES) .new chunks ↔
      Along (FlacStream.feed codec) (fun d data => ¬ Overgrows codec d data) .new chunks) := by
  have hnew : HasDecoder (FlacStream.new : FlacStream σ) := by
    intro h
    cases h
  have hstep : ∀ d data, HasDecoder d → True → ∃ d' samples,
      d.feed codec data = .ok (d', samples) ∧ HasDecoder d' ∧ ∀ x ∈ samples, True := by
    intro d data hd _
    obtain ⟨d', samples, hfeed, hd', -⟩ := feed_spec codec hd data
    exact ⟨d', samples, hfeed, hd', fun _ _ => trivial⟩
  obtain ⟨d, samples, hrun, -⟩ := run_invariant hstep chunks .new hnew fun _ _ => trivial
  refine ⟨⟨d, samples, hrun⟩, ?_⟩
  -- a feed leaves few enough bytes exactly when it holds no candidate back
  have hexact : ∀ d (log : List UInt32) data d' samples, HasDecoder d → True →
      (d.initialized = true → d.buf.length ≤ MAX_FRAME_BYTES) →
      d.feed codec data = .ok (d', samples) →
        ((d'.initialized = true → d'.buf.length ≤ MAX_FRAME_BYTES) ↔ ¬ Overgrows codec d data) ∧
          (¬ Overgrows codec d data → HasDecoder d') := by
    intro d _ data d' samples hd _ _ hfeed
    obtain ⟨d₁, samples₁, hfeed₁, hd₁, hiff⟩ := feed_spec codec hd data
    obtain ⟨rfl, -⟩ : d₁ = d' ∧ samples₁ = samples := by simpa [hfeed₁] using hfeed
    exact ⟨hiff, fun _ => hd₁⟩
  exact throughout_iff_along_of chunks _ .new d samples hexact hnew (fun _ _ => trivial)
    (fun h => by cases h) hrun

/-! ## A candidate that only grows -/

/-- A frame header, a subframe whose padding bit is set, and the CRC-16 of both. -/
def paddedFrame : List UInt8 := tickFrame.take 8 ++ [0x80, 0xCD, 0x4E]

/-- Zeros keep the CRC-16 at zero, so that it matches at every end of the buffer. -/
def paddedWith (n : Nat) : List UInt8 := paddedFrame ++ List.replicate n 0

/-- The codec on frames whose first subframe is damaged. -/
def refusingCodec : CodecRegistry Unit where
  make _ := .ok ()
  decode _ _ := (.error "flac: subframe padding is not 0", ())

theorem paddedWith_append (n m : Nat) :
    paddedWith n ++ List.replicate m 0 = paddedWith (n + m) := by
  simp [paddedWith, List.append_assoc, List.replicate_append_replicate]

theorem length_paddedWith (n : Nat) : (paddedWith n).length = 11 + n := by
  simp [paddedWith, paddedFrame, tickFrame]
  omega

theorem frameHeader_paddedWith (n : Nat) : frameHeader (paddedWith n) = .valid 8 :=
  frameHeader_append_of_valid _ (by decide +kernel : frameHeader paddedFrame = .valid 8)

theorem crc16_paddedWith (n : Nat) : crc16 (paddedWith n) = 0 := by
  have hzero : ∀ n : Nat, (List.replicate n (0 : UInt8)).foldl crc16Update 0 = 0 := by
    intro n
    induction n with
    | zero => rfl
    | succ n ih =>
      have hone : crc16Update 0 0 = 0 := by decide
      rw [List.replicate_succ, List.foldl_cons, hone, ih]
  have hframe : paddedFrame.foldl crc16Update 0 = 0 := by decide +kernel
  rw [crc16, paddedWith, List.foldl_append, hframe, hzero]

theorem crcMatch_paddedWith (n : Nat) :
    CrcMatch (paddedWith (n + 2)) 8 (paddedWith (n + 2)).length := by
  have hlen := length_paddedWith (n + 2)
  refine ⟨by omega, le_rfl, ?_⟩
  have htake : (paddedWith (n + 2)).take ((paddedWith (n + 2)).length - 2) = paddedWith n := by
    rw [hlen, ← paddedWith_append n 2, List.take_left' (by rw [length_paddedWith]; omega)]
  have hzero : ∀ i, 11 ≤ i → (paddedWith (n + 2)).getD i 0 = 0 := by
    intro i hi
    have hframe : paddedFrame.length ≤ i := hi
    rw [paddedWith, List.getD_eq_getElem?_getD, List.getElem?_append_right hframe,
      List.getElem?_replicate]
    split <;> rfl
  have hlo := hzero ((paddedWith (n + 2)).length - 1) (by omega)
  have hhi := hzero ((paddedWith (n + 2)).length - 2) (by omega)
  rw [htake]
  refine (crc16_paddedWith n).trans ?_
  simp only [hlo, hhi]
  decide

/-- The candidate ends where the buffer does: behind an earlier match there are
zeros, which begin no header. -/
theorem frameEnd_paddedWith (n : Nat) :
    frameEnd (paddedWith (n + 2)) 8 = some (paddedWith (n + 2)).length := by
  have hclean : ∀ fin, FalseEnd (paddedWith (n + 2)) fin → fin < (paddedWith (n + 2) ++ []).length →
      frameHeader ((paddedWith (n + 2) ++ []).drop fin) = .invalid := by
    rintro fin ⟨hlt, headerLen, hh, hm⟩ -
    have hbody := hm.body
    obtain rfl : 8 = headerLen := Header.valid.inj ((frameHeader_paddedWith _).symm.trans hh)
    rw [length_paddedWith] at hlt
    obtain ⟨k, rfl⟩ : ∃ k, fin = 11 + k := ⟨fin - 11, by omega⟩
    obtain ⟨m, hm⟩ : ∃ m, n + 2 = k + (m + 1) := ⟨n + 1 - k, by omega⟩
    have hrest : (paddedWith (n + 2)).drop (11 + k) = 0 :: List.replicate m 0 := by
      rw [hm, ← paddedWith_append k, List.drop_left' (length_paddedWith k), List.replicate_succ]
    rw [List.append_nil, hrest]
    simp [frameHeader]
  have hend := frameEnd_complete (frameHeader_paddedWith (n + 2)) (crcMatch_paddedWith n) (.inl rfl)
    hclean
  rwa [List.append_nil] at hend

/-- Fed with zeros behind the damaged frame, the decoder keeps them all. -/
theorem feed_paddedWith (n m : Nat) :
    FlacStream.feed refusingCodec
        { buf := paddedWith n, initialized := true, decoder := some () }
        (List.replicate (m + 2) 0) =
      .ok ({ buf := paddedWith (n + (m + 2)), initialized := true, decoder := some () }, []) := by
  have hh := frameHeader_paddedWith (n + m + 2)
  have hne : paddedWith (n + m + 2) ≠ [] := by
    intro h
    simp [h, frameHeader] at hh
  have hr : resync (paddedWith (n + m + 2)) = some (paddedWith (n + m + 2)) :=
    resync_of_ne_invalid hne (by simp [hh])
  have hpass : drainPass refusingCodec
      { decoder := (), unread := paddedWith (n + m + 2), samples := [] } =
        .stop { decoder := (), unread := paddedWith (n + m + 2), samples := [] } := by
    simp only [drainPass, hne, if_false, hr, hh, frameEnd_paddedWith, refusingCodec, if_true]
  simp only [FlacStream.feed, FlacStream.acceptHeader, if_true, paddedWith_append,
    FlacStream.drainFrames, ← Nat.add_assoc, loop_stop _ hpass, Except.map]

theorem run_paddedWith (n m : Nat) : ∀ k : Nat,
    run (FlacStream.feed refusingCodec)
        { buf := paddedWith n, initialized := true, decoder := some () }
        (List.replicate k (List.replicate (m + 2) 0)) =
      .ok ({ buf := paddedWith (n + k * (m + 2)), initialized := true, decoder := some () }, [])
  | 0 => by simp
  | k + 1 => by
      have hsum : n + (k + 1) * (m + 2) = n + (m + 2) + k * (m + 2) := by
        rw [Nat.add_mul, Nat.one_mul]
        omega
      rw [List.replicate_succ, run_cons_ok (feed_paddedWith n m) (run_paddedWith (n + (m + 2)) m k),
        hsum]
      rfl

/-- A damaged frame and 512 payloads of zeros: 11 bytes more than the bound. -/
theorem damagedFrame_kept :
    ∃ d, run (FlacStream.feed refusingCodec) .new
        ((tickHeader ++ paddedFrame) :: List.replicate 512 (List.replicate 8192 0)) =
          .ok (d, []) ∧
      d.initialized = true ∧ MAX_FRAME_BYTES < d.buf.length := by
  have hfirst : FlacStream.feed refusingCodec .new (tickHeader ++ paddedFrame) =
      .ok ({ buf := paddedWith 0, initialized := true, decoder := some () }, []) := by
    decide +kernel
  refine ⟨_, run_cons_ok hfirst (run_paddedWith 0 8190 512), rfl, ?_⟩
  rw [length_paddedWith]
  decide

end Oaat.Flac
