/-
Oaat.Lib.Chunks — files of tagged chunks.

A chunk is four bytes that name it, its length in four bytes, and its body, with
a byte more when the length is odd. What a reader finds at an offset depends
only on the file from there on, so the lemmas are about `file.drop off`: they
read off a chunk that begins there, and step over it.
-/
import Oaat.Lib.BigEndian
import Mathlib.Algebra.Group.Nat.Defs

namespace Oaat.Lib

/-! ## Little-endian numbers -/

def toLe (w n : Nat) : List UInt8 := (toBe w n).reverse

def ofLe (bytes : List UInt8) : Nat := ofBe bytes.reverse

@[simp] theorem length_toLe (w n : Nat) : (toLe w n).length = w := by simp [toLe]

theorem ofLe_toLe {w n : Nat} (h : n < 256 ^ w) : ofLe (toLe w n) = n := by
  rw [ofLe, toLe, List.reverse_reverse, ofBe_toBe_of_lt h]

/-! ## Chunks -/

structure Chunk where
  id : List UInt8
  body : List UInt8
  length_id : id.length = 4
  length_body : body.length < 2 ^ 32

namespace Chunk

/-- The bytes that a chunk takes. -/
def size (c : Chunk) : Nat := 8 + c.body.length + c.body.length % 2

def encode (c : Chunk) : List UInt8 :=
  c.id ++ toLe 4 c.body.length ++ c.body ++ List.replicate (c.body.length % 2) 0

@[simp] theorem length_encode (c : Chunk) : c.encode.length = c.size := by
  simp only [encode, size, List.length_append, length_toLe, List.length_replicate, c.length_id]

theorem eight_le_size (c : Chunk) : 8 ≤ c.size := by
  rw [size]
  omega

end Chunk

section

variable {α : Type} {file rest : List α} {off : Nat}

/-- What begins at an offset. -/
theorem take_drop_of_append {a : List α} {k : Nat} (h : file.drop off = a ++ rest)
    (hk : a.length = k) : (file.drop off).take k = a := by
  rw [h, ← hk, List.take_left]

/-- What begins behind it. -/
theorem drop_of_append {a : List α} {k : Nat} (h : file.drop off = a ++ rest)
    (hk : a.length = k) : file.drop (off + k) = rest := by
  rw [← List.drop_drop, h, ← hk, List.drop_left]

/-- The file goes on as long as what begins there. -/
theorem length_of_drop (h : file.drop off = rest) (hne : rest ≠ []) :
    file.length = off + rest.length := by
  have hlen := congrArg List.length h
  rw [List.length_drop] at hlen
  have hpos : 0 < rest.length := List.length_pos_iff.mpr hne
  omega

end

section

variable {file rest : List UInt8} {off : Nat}

/-- The head of a chunk: its name, and the length that it announces. -/
theorem head_of_drop {id : List UInt8} {n : Nat} (hid : id.length = 4) (hn : n < 2 ^ 32)
    (h : file.drop off = id ++ toLe 4 n ++ rest) :
    (file.drop off).take 4 = id ∧ ofLe ((file.drop (off + 4)).take 4) = n ∧
      file.drop (off + 8) = rest := by
  rw [List.append_assoc] at h
  have hsize := drop_of_append h hid
  refine ⟨take_drop_of_append h hid, ?_, ?_⟩
  · rw [take_drop_of_append hsize (length_toLe 4 n)]
    exact ofLe_toLe hn
  · have hbody := drop_of_append hsize (length_toLe 4 n)
    rwa [Nat.add_assoc] at hbody

/-- A chunk is read, and stepped over. -/
theorem chunk_of_drop {c : Chunk} (h : file.drop off = c.encode ++ rest) :
    (file.drop off).take 4 = c.id ∧ ofLe ((file.drop (off + 4)).take 4) = c.body.length ∧
      file.drop (off + c.size) = rest := by
  have hhead : file.drop off = c.id ++ toLe 4 c.body.length ++
      (c.body ++ List.replicate (c.body.length % 2) 0 ++ rest) := by
    rw [h, Chunk.encode]
    simp only [List.append_assoc]
  obtain ⟨hid, hlen, -⟩ := head_of_drop c.length_id c.length_body hhead
  exact ⟨hid, hlen, drop_of_append h c.length_encode⟩

end

end Oaat.Lib
