/-
# Byte buffers written in place

Go code that builds a message allocates a buffer of its final size and copies the
parts into it.  A copy keeps the size of the buffer, and a copy that fits replaces
exactly the bytes it covers, so a message built part by part is the concatenation of
its parts.
-/
import AnonBird.GoStrings

open GoStrings List

namespace GoBuffer

/-! ## Copying -/

/-- `make([]byte, n)`. -/
def make (n : ℕ) : Bytes := List.replicate n 0

/-- The buffer `dst` after `copy(dst[i:], src)`: what fits of `src` is written. -/
def copyAt (dst : Bytes) (i : ℕ) (src : Bytes) : Bytes :=
  dst.take i ++ src.take (dst.length - i) ++ dst.drop (i + src.length)

@[simp] theorem length_make (n : ℕ) : (make n).length = n := length_replicate

theorem make_add (m n : ℕ) : make (m + n) = make m ++ make n :=
  replicate_add m n 0

@[simp] theorem length_copyAt (dst : Bytes) (i : ℕ) (src : Bytes) :
    (copyAt dst i src).length = dst.length := by
  simp only [copyAt, length_append, length_take, length_drop]
  omega

variable {i : ℕ}

/-- **A copy that fits.**  It replaces the bytes it covers and no others. -/
theorem copyAt_append {l m r src : Bytes} (hl : l.length = i)
    (hm : m.length = src.length) : copyAt (l ++ (m ++ r)) i src = l ++ (src ++ r) := by
  subst hl
  have hroom : src.length ≤ (l ++ (m ++ r)).length - l.length := by
    simp only [length_append]
    omega
  unfold copyAt
  rw [take_left, take_of_length_le hroom, ← hm, ← append_assoc l m r,
    drop_left' (by simp), append_assoc]

theorem copyAt_fill {l src : Bytes} {i : ℕ} (hl : l.length = i) (n : ℕ) :
    copyAt (l ++ make (src.length + n)) i src = (l ++ src) ++ make n := by
  rw [make_add, copyAt_append hl (length_make _), append_assoc]

theorem copyAt_fill_last {l src : Bytes} {i : ℕ} (hl : l.length = i) :
    copyAt (l ++ make src.length) i src = l ++ src := by
  have hfill := @copyAt_fill l src i hl 0
  simpa only [Nat.add_zero, make, replicate_zero, append_nil] using hfill

theorem copyAt_zero {dst src : Bytes} (h : dst.length = src.length) : copyAt dst 0 src = src := by
  have hcopy := copyAt_append (l := []) (i := 0) (r := []) rfl h
  simpa only [nil_append, append_nil] using hcopy

/-- The slice that a part of a concatenation fills. -/
theorem slice_append {l m r : Bytes} {i j : ℕ} (hl : l.length = i) (hm : i + m.length = j) :
    slice (l ++ (m ++ r)) i j = m := by
  subst hl
  unfold slice
  rw [← append_assoc, take_left' (by simpa using hm), drop_left]

/-! ## Big-endian words -/

/-- The four bytes of a word, highest first. -/
def uint32Bytes (v : UInt32) : Bytes :=
  [(v >>> 24).toUInt8, (v >>> 16).toUInt8, (v >>> 8).toUInt8, v.toUInt8]

/-- The buffer `dst` after the four bytes of `v` were stored from index `i` on. -/
def putUint32 (dst : Bytes) (i : ℕ) (v : UInt32) : Bytes :=
  (((dst.set i (v >>> 24).toUInt8).set (i + 1) (v >>> 16).toUInt8).set (i + 2)
    (v >>> 8).toUInt8).set (i + 3) v.toUInt8

/-- The word in the first four bytes. -/
def readUint32 (src : Bytes) : UInt32 :=
  (byteAt src 0).toUInt32 <<< 24 ||| (byteAt src 1).toUInt32 <<< 16 |||
    (byteAt src 2).toUInt32 <<< 8 ||| (byteAt src 3).toUInt32

@[simp] theorem length_uint32Bytes (v : UInt32) : (uint32Bytes v).length = 4 := rfl

theorem putUint32_append {l m r : Bytes} (hl : l.length = i) (hm : m.length = 4)
    (v : UInt32) : putUint32 (l ++ (m ++ r)) i v = l ++ (uint32Bytes v ++ r) := by
  subst hl
  obtain ⟨a, b, c, d, rfl⟩ := length_eq_four.mp hm
  simp [putUint32, uint32Bytes]

theorem putUint32_fill {l : Bytes} (hl : l.length = i) (v : UInt32) (n : ℕ) :
    putUint32 (l ++ make (4 + n)) i v = (l ++ uint32Bytes v) ++ make n := by
  rw [make_add, putUint32_append hl (length_make 4), append_assoc]

/-- **Words round trip.** -/
theorem readUint32_uint32Bytes (v : UInt32) (r : Bytes) : readUint32 (uint32Bytes v ++ r) = v := by
  apply UInt32.eq_of_toBitVec_eq
  apply BitVec.eq_of_getLsbD_eq
  intro i hi
  simp only [readUint32, uint32Bytes, byteAt, cons_append, getD_cons_zero,
    getD_cons_succ, UInt32.toBitVec_or, UInt32.toBitVec_shiftLeft, UInt8.toBitVec_toUInt32,
    UInt32.toBitVec_toUInt8, UInt32.toBitVec_shiftRight, BitVec.getLsbD_or]
  -- bit `i` stands in exactly one of the four bytes
  interval_cases i <;> simp

end GoBuffer
