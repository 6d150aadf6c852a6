/-
Oaat.Flac.Chunking — a FLAC stream fed in pieces.

The end of a frame is the first CRC-16 match behind which the buffered bytes
do not rule out a header, so a match inside a frame (`FalseEnd`) is judged by
what the feed happens to hold behind it. `CleanRead` says of a read that it
rules out a header behind every such match that it reaches past. On clean
reads the decoder is exact (`drainFrom_clean`); on any other it loses bytes
for good (`drainFrom_lossy`), since the cut frame does not decode.
-/
import Oaat.Flac.Headers

namespace Oaat.Flac

open Oaat.Endpoint

/-- A stream header that the codec accepts, with its STREAMINFO block. -/
structure StreamHeader (codec : Codec) (info header : List UInt8) : Prop where
  marker : header.take 4 = FlacStreamDecoder.MARKER
  complete : streamHeaderLen header = some header.length
  block : streamInfo header = some info
  accepted : codec.make info = .ok ()

/-- A complete valid frame: the CRC-8 of its header and the CRC-16 of its
footer are right, it has at most 4 MiB, and the codec decodes it. -/
structure ValidFrame (decode : List UInt8 → Except String (List UInt32)) (frame : List UInt8) :
    Prop where
  header : ∃ headerLen, frameHeader frame = .valid headerLen ∧
    CrcMatch frame headerLen frame.length
  size : frame.length ≤ MAX_FRAME_BYTES
  decodes : ∃ samples, decode frame = .ok samples

/-- The codec fails on a truncated frame. -/
def FailsOnTruncated (decode : List UInt8 → Except String (List UInt32)) : Prop :=
  ∀ frame, ValidFrame decode frame → ∀ cut, cut <+: frame → cut ≠ frame →
    ∃ e, decode cut = .error e

/-- The CRC-16 matches at position `fin`, inside the frame. -/
def FalseEnd (frame : List UInt8) (fin : Nat) : Prop :=
  fin < frame.length ∧ ∃ headerLen, frameHeader frame = .valid headerLen ∧
    CrcMatch frame headerLen fin

/-- Of the frames' bytes, `b` are there so far. Behind every false end that they
reach past, they rule out a header. -/
def CleanRead : List (List UInt8) → List UInt8 → Prop
  | [], _ => True
  | frame :: frames, b =>
    (∀ fin, FalseEnd frame fin → fin < b.length → frameHeader (b.drop fin) = .invalid) ∧
      CleanRead frames (b.drop frame.length)

/-! ## Frames at the front of a buffer -/

section

variable {decode : List UInt8 → Except String (List UInt32)} {frame b c : List UInt8}
  {frames : List (List UInt8)}

theorem ValidFrame.pos (h : ValidFrame decode frame) : 0 < frame.length := by
  obtain ⟨headerLen, -, hm⟩ := h.header
  have := hm.body
  omega

/-- Any part of a valid frame, followed by more of the stream, may be a header. -/
theorem ValidFrame.header_ne_invalid (h : ValidFrame decode frame) (x : List UInt8)
    (hb : b <+: frame ++ x) : frameHeader b ≠ .invalid := by
  obtain ⟨headerLen, hh, -⟩ := h.header
  refine frameHeader_prefix_ne_invalid hb ?_
  rw [frameHeader_append_of_valid x hh]
  simp

theorem resync_of_ne_invalid (hne : b ≠ []) (h : frameHeader b ≠ .invalid) :
    resync b = some b := by
  cases b with
  | nil => exact absurd rfl hne
  | cons b0 rest => rw [resync, if_neg h]

/-- The first match that a scan of a valid frame and more stops at, if it is
before the frame's own end, is a false end that the read does not rule out. -/
theorem falseEnd_of_match {headerLen fin : Nat} (hh : frameHeader frame = .valid headerLen)
    (hbc : b <+: frame ∨ frame <+: b) (hlt : fin < frame.length) (hm : CrcMatch b headerLen fin) :
    FalseEnd frame fin := by
  refine ⟨hlt, headerLen, hh, ?_⟩
  rcases hbc with hbc | hbc
  · exact (CrcMatch.iff_of_prefix hbc hm.le).mp hm
  · exact (CrcMatch.iff_of_prefix hbc hlt.le).mpr hm

end

/-! ## Clean reads -/

section

variable {decode : List UInt8 → Except String (List UInt32)} {frame b : List UInt8}
  {frames : List (List UInt8)}

/-- The scan of a part of a frame finds nothing, or the end of the buffer. -/
theorem frameEnd_partial {headerLen : Nat} (hh : frameHeader frame = .valid headerLen)
    (hb : b <+: frame) (hlt : b.length < frame.length)
    (hclean : ∀ fin, FalseEnd frame fin → fin < b.length → frameHeader (b.drop fin) = .invalid) :
    frameEnd b headerLen = none ∨ frameEnd b headerLen = some b.length := by
  have hspec := frameEnd_spec b headerLen
  cases hend : frameEnd b headerLen with
  | none => exact .inl rfl
  | some fin =>
    rw [hend] at hspec
    obtain ⟨hm, hf, -⟩ := hspec
    refine .inr ?_
    have hle := hm.le
    by_contra hne
    have hfin : fin < b.length := by
      refine lt_of_le_of_ne hle ?_
      intro heq
      exact hne (congrArg some heq)
    have hfalse := falseEnd_of_match hh (.inl hb) (by omega) hm
    rcases hf with hf | hf
    · have := List.drop_eq_nil_iff.mp hf
      omega
    · exact hf (hclean fin hfalse hfin)

/-- The scan of a frame and more finds the end of the frame. -/
theorem frameEnd_complete {headerLen : Nat} {x : List UInt8}
    (hh : frameHeader frame = .valid headerLen) (hm : CrcMatch frame headerLen frame.length)
    (hx : x = [] ∨ frameHeader x ≠ .invalid)
    (hclean : ∀ fin, FalseEnd frame fin → fin < (frame ++ x).length →
      frameHeader ((frame ++ x).drop fin) = .invalid) :
    frameEnd (frame ++ x) headerLen = some frame.length := by
  have hpre : frame <+: frame ++ x := List.prefix_append _ _
  have hm' : CrcMatch (frame ++ x) headerLen frame.length :=
    (CrcMatch.iff_of_prefix hpre le_rfl).mp hm
  have hf' : Follows (frame ++ x) frame.length := by
    rw [Follows, List.drop_left]
    exact hx
  have hspec := frameEnd_spec (frame ++ x) headerLen
  cases hend : frameEnd (frame ++ x) headerLen with
  | none =>
    rw [hend] at hspec
    exact absurd hf' (hspec _ hm')
  | some fin =>
    rw [hend] at hspec
    obtain ⟨hmfin, hffin, hfirst⟩ := hspec
    have hge : ¬ fin < frame.length := by
      intro hlt
      have hfalse := falseEnd_of_match hh (.inr hpre) hlt hmfin
      have hlen : fin < (frame ++ x).length := by
        rw [List.length_append]
        omega
      rcases hffin with hf | hf
      · have := List.drop_eq_nil_iff.mp hf
        omega
      · exact hf (hclean fin hfalse hlen)
    have hle : ¬ frame.length < fin := by
      intro hlt
      exact hfirst _ hlt hm' hf'
    congr
    omega

/-- A part of a frame stays in the buffer. -/
theorem drainFrom_beginning (hcodec : FailsOnTruncated decode) (hv : ValidFrame decode frame)
    (hb : b <+: frame) (hlt : b.length < frame.length)
    (hclean : ∀ fin, FalseEnd frame fin → fin < b.length → frameHeader (b.drop fin) = .invalid)
    (fuel : Nat) : drainFrom decode fuel b = ([], b) := by
  cases fuel with
  | zero => rfl
  | succ fuel =>
    by_cases hne : b = []
    · subst hne
      rfl
    · have hinv := hv.header_ne_invalid [] (hb.trans (List.prefix_append _ _))
      rw [drainFrom, resync_of_ne_invalid hne hinv]
      obtain ⟨headerLen, hh, -⟩ := hv.header
      cases hhb : frameHeader b with
      | invalid => exact absurd hhb hinv
      | incomplete => simp only [hhb]
      | valid n =>
        -- the header found in the part is the one of the frame
        obtain rfl : n = headerLen := by
          obtain ⟨x, rfl⟩ := hb
          have := frameHeader_append_of_valid x hhb
          rw [hh] at this
          exact (Header.valid.inj this).symm
        simp only [hhb]
        rcases frameEnd_partial hh hb hlt hclean with hend | hend
        · have hsize := hv.size
          simp only [hend, if_neg (by omega : ¬ b.length > MAX_FRAME_BYTES)]
        · have hcut : b ≠ frame := by
            rintro rfl
            exact lt_irrefl _ hlt
          obtain ⟨e, herr⟩ := hcodec frame hv b hb hcut
          simp only [hend, List.take_length, herr, if_true]

/-- A frame is cut out and decoded. -/
theorem drainFrom_frame (hv : ValidFrame decode frame) {x : List UInt8}
    (hx : x = [] ∨ frameHeader x ≠ .invalid)
    (hclean : ∀ fin, FalseEnd frame fin → fin < (frame ++ x).length →
      frameHeader ((frame ++ x).drop fin) = .invalid) (fuel : Nat) :
    ∃ samples, decode frame = .ok samples ∧
      drainFrom decode (fuel + 1) (frame ++ x) =
        (⟨frame, samples⟩ :: (drainFrom decode fuel x).1, (drainFrom decode fuel x).2) := by
  obtain ⟨headerLen, hh, hm⟩ := hv.header
  obtain ⟨samples, hdec⟩ := hv.decodes
  refine ⟨samples, hdec, ?_⟩
  have hne : frame ++ x ≠ [] := by
    intro h
    have hpos := hv.pos
    rw [(List.append_eq_nil_iff.mp h).1] at hpos
    exact lt_irrefl _ hpos
  have hhx := frameHeader_append_of_valid x hh
  have hinv : frameHeader (frame ++ x) ≠ .invalid := by
    rw [hhx]
    simp
  rw [drainFrom, resync_of_ne_invalid hne hinv]
  simp only [hhx, frameEnd_complete hh hm hx hclean, List.take_left, List.drop_left, hdec]

/-- Nothing of the frames, or a part of the first. -/
def Partial : List (List UInt8) → List UInt8 → Prop
  | [], b => b = []
  | frame :: _, b => b <+: frame ∧ b.length < frame.length

/-- **Clean reads.** The decoder cuts out the complete frames and keeps the
part of the next one. -/
theorem drainFrom_clean (hcodec : FailsOnTruncated decode)
    (hv : ∀ frame ∈ frames, ValidFrame decode frame) (hb : b <+: frames.flatten)
    (hclean : CleanRead frames b) {fuel : Nat} (hfuel : b.length ≤ fuel) :
    ∃ done rest p, frames = done ++ rest ∧ b = done.flatten ++ p ∧ Partial rest p ∧
      (drainFrom decode fuel b).1.map Decoded.packet = done ∧ (drainFrom decode fuel b).2 = p := by
  induction frames generalizing b fuel with
  | nil =>
    obtain rfl : b = [] := List.prefix_nil.mp hb
    refine ⟨[], [], [], rfl, rfl, rfl, ?_⟩
    cases fuel <;> exact ⟨rfl, rfl⟩
  | cons frame frames ih =>
    have hvf := hv frame (by simp)
    rw [List.flatten_cons] at hb
    by_cases hlt : b.length < frame.length
    · have hbf : b <+: frame :=
        List.prefix_of_prefix_length_le hb (List.prefix_append _ _) hlt.le
      rw [drainFrom_beginning hcodec hvf hbf hlt hclean.1 fuel]
      exact ⟨[], frame :: frames, b, rfl, rfl, ⟨hbf, hlt⟩, rfl, rfl⟩
    · obtain ⟨x, rfl⟩ : frame <+: b :=
        List.prefix_of_prefix_length_le (List.prefix_append _ _) hb (by omega)
      have hx : x <+: frames.flatten := (List.prefix_append_right_inj frame).mp hb
      have hnext : x = [] ∨ frameHeader x ≠ .invalid := by
        cases frames with
        | nil => exact .inl (List.prefix_nil.mp hx)
        | cons next frames => exact .inr ((hv next (by simp)).header_ne_invalid _ hx)
      have hpos := hvf.pos
      rw [List.length_append] at hfuel
      obtain ⟨k, rfl⟩ : ∃ k, fuel = k + 1 := ⟨fuel - 1, by omega⟩
      obtain ⟨samples, -, hdrain⟩ := drainFrom_frame hvf hnext hclean.1 k
      have hk : x.length ≤ k := by omega
      obtain ⟨done, rest, p, rfl, rfl, hp, hdone, hrest⟩ :=
        ih (fun g hg => hv g (List.mem_cons_of_mem _ hg)) hx (by simpa using hclean.2) hk
      refine ⟨frame :: done, rest, p, rfl, by simp, hp, ?_, ?_⟩
      · rw [hdrain, List.map_cons, hdone]
      · rw [hdrain]
        exact hrest

end

/-! ## Other reads -/

section

variable {decode : List UInt8 → Except String (List UInt32)} {frame b : List UInt8}
  {frames : List (List UInt8)}

/-- The bytes of the decoded packets. -/
def packetBytes (frames : List Decoded) : Nat := (frames.map fun d => d.packet.length).sum

theorem packetBytes_append (ds es : List Decoded) :
    packetBytes (ds ++ es) = packetBytes ds + packetBytes es := by
  simp [packetBytes]

theorem packetBytes_eq (ds : List Decoded) :
    packetBytes ds = (ds.map Decoded.packet).flatten.length := by
  simp [packetBytes, List.length_flatten, Function.comp_def]

theorem length_resync {b' : List UInt8} (h : resync b = some b') : b'.length ≤ b.length := by
  induction b with
  | nil => simp [resync] at h
  | cons b0 rest ih =>
    rw [resync] at h
    split at h
    · have := ih h
      simp only [List.length_cons]
      omega
    · rw [← Option.some.inj h]

/-- No byte is decoded twice, or kept after it was decoded. -/
theorem packetBytes_drainFrom (decode : List UInt8 → Except String (List UInt32)) (fuel : Nat)
    (b : List UInt8) :
    packetBytes (drainFrom decode fuel b).1 + (drainFrom decode fuel b).2.length ≤ b.length := by
  induction fuel generalizing b with
  | zero => simp [drainFrom, packetBytes]
  | succ fuel ih =>
    rw [drainFrom]
    cases hr : resync b with
    | none => simp [packetBytes]
    | some b' =>
      have hlen := length_resync hr
      simp only
      cases hh : frameHeader b' with
      | incomplete => simpa [packetBytes] using hlen
      | invalid => simpa [packetBytes] using hlen
      | valid headerLen =>
        simp only
        have hspec := frameEnd_spec b' headerLen
        cases hend : frameEnd b' headerLen with
        | none =>
          simp only
          split
          · have hih := ih (b'.drop 1)
            rw [List.length_drop] at hih
            omega
          · simpa [packetBytes] using hlen
        | some fin =>
          rw [hend] at hspec
          have hfin := hspec.1.le
          have hih := ih (b'.drop fin)
          rw [List.length_drop] at hih
          cases hdec : decode (b'.take fin) with
          | ok samples =>
            simp only [hdec, packetBytes, List.map_cons, List.sum_cons, List.length_take] at hih ⊢
            omega
          | error e =>
            simp only [hdec]
            split
            · simpa [packetBytes] using hlen
            · omega

theorem cleanRead_nil (frames : List (List UInt8)) : CleanRead frames [] := by
  induction frames with
  | nil => trivial
  | cons frame frames ih =>
    exact ⟨fun fin _ hlt => absurd hlt (Nat.not_lt_zero _), by simpa using ih⟩

/-- A read that ends a frame too early: the cut frame does not decode, and is
not the whole buffer. -/
theorem drainFrom_cut (hcodec : FailsOnTruncated decode) (hv : ValidFrame decode frame)
    {x : List UInt8} (hb : b <+: frame ++ x) {fin : Nat} (hfalse : FalseEnd frame fin)
    (hlt : fin < b.length) (hinv : frameHeader (b.drop fin) ≠ .invalid) (fuel : Nat) :
    packetBytes (drainFrom decode (fuel + 1) b).1 + (drainFrom decode (fuel + 1) b).2.length <
      b.length := by
  obtain ⟨hfin, headerLen, hh, hm⟩ := hfalse
  have hbody := hm.body
  have hne : b ≠ [] := by
    rintro rfl
    exact absurd hlt (Nat.not_lt_zero _)
  have hhb : frameHeader b = .valid headerLen := by
    refine frameHeader_of_prefix_valid (frameHeader_append_of_valid x hh) hb ?_
    omega
  have hside : b <+: frame ∨ frame <+: b := by
    by_cases hle : b.length ≤ frame.length
    · exact .inl (List.prefix_of_prefix_length_le hb (List.prefix_append _ _) hle)
    · exact .inr (List.prefix_of_prefix_length_le (List.prefix_append _ _) hb (by omega))
  have hmb : CrcMatch b headerLen fin := by
    rcases hside with hside | hside
    · exact (CrcMatch.iff_of_prefix hside hlt.le).mpr hm
    · exact (CrcMatch.iff_of_prefix hside hfin.le).mp hm
  have hspec := frameEnd_spec b headerLen
  rw [drainFrom, resync_of_ne_invalid hne (by rw [hhb]; simp)]
  simp only [hhb]
  cases hend : frameEnd b headerLen with
  | none =>
    rw [hend] at hspec
    exact absurd (.inr hinv) (hspec fin hmb)
  | some first =>
    rw [hend] at hspec
    obtain ⟨hmfirst, -, hbefore⟩ := hspec
    have hle : first ≤ fin := by
      by_contra hgt
      exact hbefore fin (by omega) hmb (.inr hinv)
    have hfbody := hmfirst.body
    -- up to `first` the buffer is a truncated frame
    have htake : b.take first = frame.take first := by
      rcases hside with ⟨y, hy⟩ | ⟨y, hy⟩
      · rw [← hy, List.take_append_of_le_length (by omega)]
      · rw [← hy, List.take_append_of_le_length (by omega)]
    have hcut : b.take first ≠ frame := by
      intro heq
      have hlen := congrArg List.length heq
      rw [List.length_take] at hlen
      omega
    obtain ⟨e, herr⟩ := hcodec frame hv (b.take first) (htake ▸ List.take_prefix _ _) hcut
    have hshort : ¬ first = b.length := by omega
    simp only [herr, if_neg hshort]
    have hacc := packetBytes_drainFrom decode fuel (b.drop first)
    rw [List.length_drop] at hacc
    omega

/-- **Other reads** lose bytes. -/
theorem drainFrom_lossy (hcodec : FailsOnTruncated decode)
    (hv : ∀ frame ∈ frames, ValidFrame decode frame) (hb : b <+: frames.flatten)
    (hclean : ¬ CleanRead frames b) {fuel : Nat} (hfuel : b.length ≤ fuel) :
    packetBytes (drainFrom decode fuel b).1 + (drainFrom decode fuel b).2.length < b.length := by
  induction frames generalizing b fuel with
  | nil => exact absurd trivial hclean
  | cons frame frames ih =>
    have hvf := hv frame (by simp)
    have hpos := hvf.pos
    rw [List.flatten_cons] at hb
    by_cases hfirst : ∀ fin, FalseEnd frame fin → fin < b.length →
        frameHeader (b.drop fin) = .invalid
    · -- the first frame is read well, a later one is not
      have hge : ¬ b.length < frame.length := by
        intro hlt
        refine hclean ⟨hfirst, ?_⟩
        rw [List.drop_of_length_le hlt.le]
        exact cleanRead_nil frames
      obtain ⟨x, rfl⟩ : frame <+: b :=
        List.prefix_of_prefix_length_le (List.prefix_append _ _) hb (by omega)
      have hx : x <+: frames.flatten := (List.prefix_append_right_inj frame).mp hb
      have hnext : x = [] ∨ frameHeader x ≠ .invalid := by
        cases frames with
        | nil => exact .inl (List.prefix_nil.mp hx)
        | cons next frames => exact .inr ((hv next (by simp)).header_ne_invalid _ hx)
      rw [List.length_append] at hfuel
      obtain ⟨k, rfl⟩ : ∃ k, fuel = k + 1 := ⟨fuel - 1, by omega⟩
      obtain ⟨samples, -, hdrain⟩ := drainFrom_frame hvf hnext hfirst k
      have hlater : ¬ CleanRead frames x := by
        intro hx'
        exact hclean ⟨hfirst, by simpa using hx'⟩
      have hk : x.length ≤ k := by omega
      have hih := ih (fun g hg => hv g (List.mem_cons_of_mem _ hg)) hx hlater hk
      rw [hdrain, List.length_append]
      simp only [packetBytes, List.map_cons, List.sum_cons] at hih ⊢
      omega
    · obtain ⟨fin, hfin⟩ := not_forall.mp hfirst
      obtain ⟨hfalse, hfin⟩ := Classical.not_imp.mp hfin
      obtain ⟨hlt, hinv⟩ := Classical.not_imp.mp hfin
      obtain ⟨k, rfl⟩ : ∃ k, fuel = k + 1 := ⟨fuel - 1, by omega⟩
      exact drainFrom_cut hcodec hvf hb hfalse hlt hinv k

end

/-! ## Reads of a list of frames -/

theorem cleanRead_append {done rest : List (List UInt8)} {b : List UInt8} :
    CleanRead (done ++ rest) (done.flatten ++ b) ↔
      CleanRead done (done.flatten ++ b) ∧ CleanRead rest b := by
  induction done with
  | nil => simp [CleanRead]
  | cons frame done ih =>
    simp only [List.cons_append, CleanRead, List.flatten_cons, List.append_assoc, List.drop_left,
      ih, and_assoc]

/-- What was ruled out behind a complete frame's false ends stays ruled out. -/
theorem CleanRead.extend {done : List (List UInt8)} {b : List UInt8} (c : List UInt8)
    (h : CleanRead done (done.flatten ++ b)) : CleanRead done (done.flatten ++ (b ++ c)) := by
  induction done with
  | nil => trivial
  | cons frame done ih =>
    simp only [CleanRead, List.flatten_cons, List.append_assoc, List.drop_left] at h ⊢
    refine ⟨?_, ih h.2⟩
    intro fin hfalse _
    have hfin := hfalse.1
    have hold := h.1 fin hfalse (by rw [List.length_append]; omega)
    have hsplit : (frame ++ (done.flatten ++ (b ++ c))).drop fin =
        (frame ++ (done.flatten ++ b)).drop fin ++ c := by
      rw [← List.append_assoc done.flatten, ← List.append_assoc frame,
        List.drop_append_of_le_length (by rw [List.length_append]; omega)]
    rw [hsplit]
    exact frameHeader_append_of_invalid c hold

/-! ## The decoder after the stream header -/

/-- A decoder that has its codec, with the unread input `buf`. -/
def ready (info buf : List UInt8) : FlacStreamDecoder :=
  { buf, initialized := true, decoder := some info }

section

variable {codec : Codec} {info p : List UInt8} {frames : List (List UInt8)}

theorem feed_ready (codec : Codec) (info p data : List UInt8) :
    (ready info p).feed codec data =
      (ready info (drainFrom (codec.decode info) (p ++ data).length (p ++ data)).2,
        (drainFrom (codec.decode info) (p ++ data).length (p ++ data)).1) := rfl

theorem packetBytes_feedAll_ready (codec : Codec) (info p : List UInt8)
    (chunks : List (List UInt8)) :
    packetBytes ((ready info p).feedAll codec chunks).2 ≤ p.length + chunks.flatten.length := by
  induction chunks generalizing p with
  | nil => simp [FlacStreamDecoder.feedAll, packetBytes]
  | cons chunk chunks ih =>
    simp only [FlacStreamDecoder.feedAll, feed_ready, packetBytes_append, List.flatten_cons,
      List.length_append]
    have hdrain := packetBytes_drainFrom (codec.decode info) (p ++ chunk).length (p ++ chunk)
    have hih := ih (drainFrom (codec.decode info) (p ++ chunk).length (p ++ chunk)).2
    rw [List.length_append] at hdrain
    rw [List.length_append] at hih
    omega

/-- What the feeds of a read and of the chunks before it have brought. -/
def received (p : List UInt8) (chunks : List (List UInt8)) (k : Nat) : List UInt8 :=
  p ++ (chunks.take (k + 1)).flatten

theorem received_cons_zero (p chunk : List UInt8) (chunks : List (List UInt8)) :
    received p (chunk :: chunks) 0 = p ++ chunk := by
  simp [received]

theorem received_cons_succ (p chunk : List UInt8) (chunks : List (List UInt8)) (k : Nat) :
    received p (chunk :: chunks) (k + 1) = received (p ++ chunk) chunks k := by
  simp [received]

/-- A statement about every read of a list of chunks. -/
theorem forall_received_cons {P : List UInt8 → Prop} (p chunk : List UInt8)
    (chunks : List (List UInt8)) :
    (∀ k < (chunk :: chunks).length, P (received p (chunk :: chunks) k)) ↔
      P (p ++ chunk) ∧ ∀ k < chunks.length, P (received (p ++ chunk) chunks k) := by
  constructor
  · intro h
    refine ⟨received_cons_zero p chunk chunks ▸ h 0 (by simp), ?_⟩
    intro k hk
    exact received_cons_succ p chunk chunks k ▸ h (k + 1) (by simpa using hk)
  · rintro ⟨h0, hs⟩ k hk
    cases k with
    | zero => rwa [received_cons_zero]
    | succ k =>
      rw [received_cons_succ]
      exact hs k (by simpa using hk)

/-- Fed with the rest of the frames, the decoder gives exactly these frames if
and only if every read is clean. -/
theorem feedAll_ready_iff (hcodec : FailsOnTruncated (codec.decode info))
    (hv : ∀ frame ∈ frames, ValidFrame (codec.decode info) frame) (hp : Partial frames p)
    (chunks : List (List UInt8)) (hall : p ++ chunks.flatten = frames.flatten) :
    ((ready info p).feedAll codec chunks).2.map Decoded.packet = frames ↔
      ∀ k < chunks.length, CleanRead frames (received p chunks k) := by
  induction chunks generalizing frames p with
  | nil =>
    cases frames with
    | nil => simp [FlacStreamDecoder.feedAll]
    | cons frame frames =>
      have hlen := congrArg List.length hall
      have := hp.2
      simp at hlen
      omega
  | cons chunk chunks ih =>
    rw [List.flatten_cons, ← List.append_assoc] at hall
    have hb : p ++ chunk <+: frames.flatten := ⟨chunks.flatten, hall⟩
    rw [forall_received_cons]
    simp only [FlacStreamDecoder.feedAll, feed_ready, List.map_append]
    by_cases hclean : CleanRead frames (p ++ chunk)
    · obtain ⟨done, rest, q, rfl, hsplit, hq, hdone, hrest⟩ :=
        drainFrom_clean hcodec hv hb hclean le_rfl
      rw [hdone, hrest, List.append_cancel_left_eq]
      rw [hsplit, List.flatten_append, List.append_assoc, List.append_cancel_left_eq] at hall
      rw [ih (fun g hg => hv g (List.mem_append_right _ hg)) hq hall]
      -- the frames cut out stay clean, whatever comes
      have hdoneClean : CleanRead done (done.flatten ++ q) :=
        (cleanRead_append.mp (hsplit ▸ hclean)).1
      rw [and_iff_right hclean]
      refine forall_congr' fun k => imp_congr_right fun _ => ?_
      have hrec : received (p ++ chunk) chunks k = done.flatten ++ received q chunks k := by
        rw [received, hsplit, List.append_assoc, received]
      rw [hrec, cleanRead_append]
      exact (and_iff_right (hdoneClean.extend _)).symm
    · refine iff_of_false ?_ (fun h => hclean h.1)
      intro heq
      have hlost := drainFrom_lossy hcodec hv hb hclean le_rfl
      generalize drainFrom (codec.decode info) (p ++ chunk).length (p ++ chunk) = r at heq hlost
      have hmore := packetBytes_feedAll_ready codec info r.2 chunks
      have htotal := congrArg (fun fs => fs.flatten.length) heq
      simp only [List.flatten_append, List.length_append, ← packetBytes_eq, ← hall] at htotal
      rw [List.length_append] at hlost
      omega

end

/-! ## The whole stream -/

section

variable {codec : Codec} {info header : List UInt8} {frames : List (List UInt8)}

/-- While the stream header is incomplete, the decoder waits. -/
theorem feed_header_partial (hh : StreamHeader codec info header) {q chunk : List UInt8}
    (hq : q ++ chunk <+: header) (hlt : (q ++ chunk).length < header.length) :
    ({ FlacStreamDecoder.new with buf := q } : FlacStreamDecoder).feed codec chunk =
      ({ FlacStreamDecoder.new with buf := q ++ chunk }, []) := by
  have hnone := streamHeaderLen_prefix hh.complete hq hlt
  by_cases h4 : (q ++ chunk).length < 4
  · simp only [FlacStreamDecoder.feed, FlacStreamDecoder.new, h4, if_true, Bool.false_eq_true,
      if_false]
  · have hmarker : (q ++ chunk).take 4 = FlacStreamDecoder.MARKER := by
      obtain ⟨x, hx⟩ := hq
      have htake : (q ++ chunk ++ x).take 4 = (q ++ chunk).take 4 :=
        List.take_append_of_le_length (by omega)
      rw [← hh.marker, ← hx, htake]
    simp only [FlacStreamDecoder.feed, FlacStreamDecoder.new, h4, hmarker, hnone, if_false,
      Bool.false_eq_true, ne_eq, not_true_eq_false]

/-- Once it is complete, the decoder goes on with what follows. -/
theorem feed_header_complete (hh : StreamHeader codec info header) {q chunk b : List UInt8}
    (hq : q ++ chunk = header ++ b) :
    ({ FlacStreamDecoder.new with buf := q } : FlacStreamDecoder).feed codec chunk =
      (ready info []).feed codec b := by
  have hlen : streamHeaderLen (header ++ b) = some header.length :=
    streamHeaderLen_append hh.complete b
  have h4 : 4 ≤ header.length := by
    have := congrArg List.length hh.marker
    rw [List.length_take] at this
    simp [FlacStreamDecoder.MARKER] at this
    omega
  have hnot4 : ¬ (header ++ b).length < 4 := by
    rw [List.length_append]
    omega
  have hmarker : (header ++ b).take 4 = FlacStreamDecoder.MARKER := by
    rw [← hh.marker, List.take_append_of_le_length h4]
  simp only [FlacStreamDecoder.feed, FlacStreamDecoder.new, hq, hnot4, hmarker, hlen, if_false,
    Bool.false_eq_true, ne_eq, not_true_eq_false, FlacStreamDecoder.tryInit, List.take_left,
    hh.block, hh.accepted, List.drop_left]
  rfl

theorem partial_nil (hv : ∀ frame ∈ frames, ValidFrame (codec.decode info) frame) :
    Partial frames [] := by
  cases frames with
  | nil => rfl
  | cons frame frames => exact ⟨List.nil_prefix, (hv frame (by simp)).pos⟩

theorem feedAll_header_iff (hcodec : FailsOnTruncated (codec.decode info))
    (hh : StreamHeader codec info header)
    (hv : ∀ frame ∈ frames, ValidFrame (codec.decode info) frame)
    (chunks : List (List UInt8)) :
    ∀ q : List UInt8, q.length < header.length →
      q ++ chunks.flatten = header ++ frames.flatten →
      ((({ FlacStreamDecoder.new with buf := q } : FlacStreamDecoder).feedAll codec
          chunks).2.map Decoded.packet = frames ↔
        ∀ k < chunks.length, CleanRead frames ((received q chunks k).drop header.length)) := by
  induction chunks with
  | nil =>
    intro q hlt hall
    have hlen := congrArg List.length hall
    simp at hlen
    omega
  | cons chunk chunks ih =>
    intro q hlt hall
    rw [List.flatten_cons, ← List.append_assoc] at hall
    rw [forall_received_cons (P := fun b => CleanRead frames (b.drop header.length))]
    by_cases hpart : (q ++ chunk).length < header.length
    · have hq : q ++ chunk <+: header :=
        List.prefix_of_prefix_length_le ⟨_, hall⟩ (List.prefix_append _ _) hpart.le
      have hnil : CleanRead frames ((q ++ chunk).drop header.length) := by
        rw [List.drop_of_length_le hpart.le]
        exact cleanRead_nil frames
      rw [and_iff_right hnil, ← ih (q ++ chunk) hpart hall]
      simp only [FlacStreamDecoder.feedAll, feed_header_partial hh hq hpart, List.nil_append]
    · -- the rest of the chunk is the first read of the frames
      obtain ⟨b, hb⟩ : header <+: q ++ chunk :=
        List.prefix_of_prefix_length_le (List.prefix_append _ _) ⟨_, hall⟩ (by omega)
      rw [← hb, List.append_assoc, List.append_cancel_left_eq] at hall
      have hready :=
        feedAll_ready_iff hcodec hv (partial_nil hv) (b :: chunks) (by simpa using hall)
      rw [forall_received_cons] at hready
      simp only [FlacStreamDecoder.feedAll, List.nil_append] at hready
      simp only [FlacStreamDecoder.feedAll, feed_header_complete hh hb.symm]
      rw [hready, ← hb, List.drop_left]
      refine and_congr_right fun _ => forall_congr' fun k => imp_congr_right fun _ => ?_
      have hrec : (received (header ++ b) chunks k).drop header.length = received b chunks k := by
        rw [received, List.append_assoc, List.drop_left, received]
      rw [hrec]

/-- **Chunk independence.** Take a stream header that the codec accepts,
followed by any list of complete valid frames, cut into `feed` calls in any
way. The frames decoded over the whole run are exactly the list of frames if
and only if every call leaves a clean read: behind each CRC-16 match inside a
frame that the bytes fed so far reach past, they rule out a frame header. -/
theorem decoded_frames_iff (hcodec : FailsOnTruncated (codec.decode info))
    (hh : StreamHeader codec info header)
    (hv : ∀ frame ∈ frames, ValidFrame (codec.decode info) frame)
    {chunks : List (List UInt8)} (hall : chunks.flatten = header ++ frames.flatten) :
    (FlacStreamDecoder.new.feedAll codec chunks).2.map Decoded.packet = frames ↔
      ∀ k < chunks.length,
        CleanRead frames ((chunks.take (k + 1)).flatten.drop header.length) := by
  have hpos : ([] : List UInt8).length < header.length := by
    have := congrArg List.length hh.marker
    rw [List.length_take] at this
    simp [FlacStreamDecoder.MARKER] at this
    simp
    omega
  have h := feedAll_header_iff hcodec hh hv chunks [] hpos (by simpa using hall)
  simp only [received, List.nil_append] at h
  exact h

end

/-! ## A frame with a match inside -/

/-- 44.1 kHz, mono, 8 bits, blocks of 16 samples. -/
def tickInfo : List UInt8 :=
  [0, 16, 0, 16, 0, 0, 0, 0, 0, 0, 10, 196, 64, 112, 0, 0, 0, 16] ++ List.replicate 16 0

def tickHeader : List UInt8 := FlacStreamDecoder.MARKER ++ [0x80, 0, 0, 34] ++ tickInfo

/-- Sixteen verbatim samples. The first two happen to be the CRC-16 of the nine
bytes before them. -/
def tickFrame : List UInt8 :=
  [0xFF, 0xF8, 0x79, 0x02, 0x00, 0x00, 0x0F, 0xD0, 0x02, 0xCE, 0x42, 0xFF] ++
    List.replicate 13 0 ++ [0xFF, 0xFF]

def tickSamples : List UInt32 := [0xBEC80000, 0x3F040000, 0xBC000000] ++ List.replicate 13 0

/-- A codec for streams of this one frame. -/
def tickCodec : Codec where
  make _ := .ok ()
  decode _ packet :=
    if packet = tickFrame then .ok tickSamples else .error "unexpected end of bitstream"

theorem tickCodec_failsOnTruncated : FailsOnTruncated (tickCodec.decode tickInfo) := by
  intro frame hv cut _ hne
  obtain ⟨samples, hdec⟩ := hv.decodes
  have hframe : frame = tickFrame := by
    by_contra h
    simp [tickCodec, h] at hdec
  have hcut : cut ≠ tickFrame := by
    rw [← hframe]
    exact hne
  exact ⟨_, if_neg hcut⟩

theorem tickHeader_streamHeader : StreamHeader tickCodec tickInfo tickHeader :=
  ⟨by decide +kernel, by decide +kernel, by decide +kernel, rfl⟩

theorem tickFrame_valid : ∀ frame ∈ [tickFrame], ValidFrame (tickCodec.decode tickInfo) frame := by
  intro frame hmem
  obtain rfl := List.mem_singleton.mp hmem
  have hdec : tickCodec.decode tickInfo tickFrame = .ok tickSamples := by simp [tickCodec]
  exact ⟨⟨8, by decide +kernel, by decide +kernel, by decide +kernel, by decide +kernel⟩,
    by decide +kernel, tickSamples, hdec⟩

/-- In one piece the frame is decoded, so this read is clean. -/
theorem tickFrame_in_one_piece :
    (FlacStreamDecoder.new.feedAll tickCodec [tickHeader ++ tickFrame]).2.map Decoded.packet =
      [tickFrame] ∧
    CleanRead [tickFrame] tickFrame := by
  have hdec : (FlacStreamDecoder.new.feedAll tickCodec
      [tickHeader ++ tickFrame]).2.map Decoded.packet = [tickFrame] := by
    decide +kernel
  refine ⟨hdec, ?_⟩
  have hclean := (decoded_frames_iff tickCodec_failsOnTruncated tickHeader_streamHeader
    tickFrame_valid (by simp)).mp hdec 0 (by simp)
  simpa using hclean

/-- Cut behind the byte 0xFF that follows the match, the frame is lost. -/
theorem tickFrame_lost :
    FailsOnTruncated (tickCodec.decode tickInfo) ∧ StreamHeader tickCodec tickInfo tickHeader ∧
    (∀ frame ∈ [tickFrame], ValidFrame (tickCodec.decode tickInfo) frame) ∧
    [tickHeader ++ tickFrame.take 12, tickFrame.drop 12].flatten =
      tickHeader ++ [tickFrame].flatten ∧
    (FlacStreamDecoder.new.feedAll tickCodec
      [tickHeader ++ tickFrame.take 12, tickFrame.drop 12]).2.map Decoded.packet = [] :=
  ⟨tickCodec_failsOnTruncated, tickHeader_streamHeader, tickFrame_valid, by decide +kernel,
    by decide +kernel⟩

end Oaat.Flac
