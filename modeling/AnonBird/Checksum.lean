/-
# Internet checksums

Model of `ipv4Checksum` and `icmpChecksum` in `client/firewall/uspfilter/nat.go`.  The functions
add the 16-bit words of their input in several 32-bit sums and fold the carries back once; the
plain checksum of RFC 1071 adds the words one after another with an end-around carry.
-/
import AnonBird.GoStrings

open GoStrings List

namespace Checksum

open UInt32

/-- `uint32(binary.BigEndian.Uint16(…))` of two bytes. -/
def word (a b : UInt8) : UInt32 := .ofNat (bigEndian [a, b])

/-- The rest of the data after the unrolled part: two bytes a turn, then an odd byte. -/
def addRest (sum : UInt32) : Bytes → UInt32
  | a :: b :: rest => addRest (sum + word a b) rest
  | [a] => sum + (a.toUInt32 <<< 8)
  | [] => sum

/-- The carries are folded back once, and one that this leaves is added. -/
def finish (sum : UInt32) : UInt16 :=
  let sum := (sum &&& 0xFFFF : UInt32) + (sum >>> 16)
  let sum := if sum > 0xFFFF then sum + 1 else sum
  ~~~ sum.toUInt16

/-- The checksum of an IPv4 header. -/
def ipv4Checksum : Bytes → UInt16
  | b0 :: b1 :: b2 :: b3 :: b4 :: b5 :: b6 :: b7 :: b8 :: b9 :: _ :: _ ::
      b12 :: b13 :: b14 :: b15 :: b16 :: b17 :: b18 :: b19 :: rest =>
    let sum1 := word b0 b1 + word b4 b5 + word b8 b9 + word b14 b15 + word b18 b19
    let sum2 := word b2 b3 + word b6 b7 + word b12 b13 + word b16 b17
    finish (addRest (sum1 + sum2) rest)
  | _ => 0

/-- The loop of `icmpChecksum` with its four sums, and what follows it. -/
def addUnrolled (sum1 sum2 sum3 sum4 : UInt32) : Bytes → UInt32
  | b0 :: b1 :: b2 :: b3 :: b4 :: b5 :: b6 :: b7 :: b8 :: b9 :: b10 :: b11 ::
      b12 :: b13 :: b14 :: b15 :: rest =>
    addUnrolled (sum1 + word b0 b1 + word b8 b9) (sum2 + word b2 b3 + word b10 b11)
      (sum3 + word b4 b5 + word b12 b13) (sum4 + word b6 b7 + word b14 b15) rest
  | data => addRest (sum1 + sum2 + sum3 + sum4) data

/-- The checksum of an ICMP message. -/
def icmpChecksum (data : Bytes) : UInt16 := finish (addUnrolled 0 0 0 0 data)

/-! ## The plain checksum -/

/-- The 16-bit words of the data, padded with a zero byte. -/
def words : Bytes → List ℕ
  | a :: b :: rest => bigEndian [a, b] :: words rest
  | [a] => [bigEndian [a, 0]]
  | [] => []

/-- One's-complement addition of 16-bit words: a carry is taken off and added at the end. -/
def onesAdd (x y : ℕ) : ℕ := if x + y ≤ 0xFFFF then x + y else x + y - 0xFFFF

/-- The checksum, word by word. -/
def plainChecksum (data : Bytes) : UInt16 := ~~~ .ofNat ((words data).foldl onesAdd 0)

/-- What a one's-complement sum is: the sum modulo 65535, and zero only if all words are. -/
def IsOnesSum (n s : ℕ) : Prop := s ≤ 0xFFFF ∧ (s = 0 ↔ n = 0) ∧ s % 0xFFFF = n % 0xFFFF

theorem IsOnesSum.unique {n s t : ℕ} (hs : IsOnesSum n s) (ht : IsOnesSum n t) : s = t := by
  unfold IsOnesSum at hs ht
  omega

theorem IsOnesSum.add {n s w : ℕ} (h : IsOnesSum n s) (hw : w ≤ 0xFFFF) :
    IsOnesSum (n + w) (onesAdd s w) := by
  unfold IsOnesSum at h ⊢
  unfold onesAdd
  split_ifs <;> omega

theorem bigEndian_two (a b : UInt8) : bigEndian [a, b] ≤ 0xFFFF := by
  have ha := a.toNat_lt
  have hb := b.toNat_lt
  simp only [bigEndian, foldl_cons, foldl_nil]
  omega

theorem IsOnesSum.foldl (data : Bytes) {n s : ℕ} (h : IsOnesSum n s) :
    IsOnesSum (n + (words data).sum) ((words data).foldl onesAdd s) := by
  induction data using words.induct generalizing n s with
  | case1 a b rest ih =>
    rw [words, sum_cons, ← add_assoc]
    exact ih (h.add (bigEndian_two a b))
  | case2 a =>
    rw [words, sum_singleton]
    exact h.add (bigEndian_two a 0)
  | case3 => exact h

theorem sum_words_le (data : Bytes) : 2 * (words data).sum ≤ 65535 * (data.length + 1) := by
  induction data using words.induct with
  | case1 a b rest ih =>
    have := bigEndian_two a b
    rw [words, sum_cons, length_cons, length_cons]
    omega
  | case2 a =>
    have := bigEndian_two a 0
    rw [words, sum_singleton, length_singleton]
    omega
  | case3 => exact Nat.zero_le _

/-! ## The unrolled sums -/

theorem addRest_eq (sum : UInt32) (data : Bytes) :
    addRest sum data = sum + .ofNat (words data).sum := by
  induction data using words.induct generalizing sum with
  | case1 a b rest ih =>
    rw [addRest, words, ih, sum_cons, ofNat_add, word, add_assoc]
  | case2 a =>
    rw [addRest, words, sum_singleton]
    congr 1
    apply UInt32.toNat_inj.mp
    simp [bigEndian, Nat.shiftLeft_eq]
  | case3 => simp [addRest, words]

theorem addUnrolled_eq (sum1 sum2 sum3 sum4 : UInt32) (data : Bytes) :
    addUnrolled sum1 sum2 sum3 sum4 data = sum1 + sum2 + sum3 + sum4 + .ofNat (words data).sum := by
  fun_induction addUnrolled with
  | case1 =>
    rename_i ih
    rw [ih]
    simp only [words, sum_cons, ofNat_add, word]
    ac_rfl
  | case2 => exact addRest_eq _ _

/-- Folding the carries of a sum that did not overflow once is enough. -/
theorem finish_eq {n s : ℕ} (h : n < 2 ^ 32) (hs : IsOnesSum n s) :
    finish (.ofNat n) = ~~~ .ofNat s := by
  have hlow : n &&& 65535 = n % 2 ^ 16 := Nat.and_two_pow_sub_one_eq_mod n 16
  have hsum : ((ofNat n &&& 0xFFFF : UInt32) + (ofNat n >>> 16)).toNat =
      n % 65536 + n / 65536 := by
    simp [Nat.mod_eq_of_lt (Nat.lt_of_lt_of_le h (by decide : 2 ^ 32 ≤ 4294967296)), hlow,
      Nat.shiftRight_eq_div_pow]
    omega
  unfold finish
  dsimp only
  generalize (ofNat n &&& 0xFFFF : UInt32) + (ofNat n >>> 16) = sum at hsum ⊢
  congr 1
  apply UInt16.toNat_inj.mp
  have hs' := hs.1
  rw [UInt16.toNat_ofNat_of_lt' (by simp [UInt16.size]; omega)]
  refine IsOnesSum.unique ?_ hs
  have hif : (if sum > 0xFFFF then sum + 1 else sum).toUInt16.toNat =
      if sum.toNat > 0xFFFF then sum.toNat - 0xFFFF else sum.toNat := by
    split_ifs with hgt hgt' hgt' <;> simp [lt_iff_toNat_lt] at * <;> omega
  rw [hif, hsum]
  unfold IsOnesSum
  split_ifs <;> omega

/-- The unrolled checksums are the plain checksum. -/
theorem checksums_eq_plainChecksum :
    (∀ data : Bytes, data.length ≤ 65535 → icmpChecksum data = plainChecksum data) ∧
    ∀ header : Bytes, 20 ≤ header.length → header.length ≤ 60 →
      ipv4Checksum header = plainChecksum (header.take 10 ++ [0, 0] ++ header.drop 12) := by
  have hfinish : ∀ data : Bytes, data.length ≤ 65535 →
      finish (.ofNat (words data).sum) = plainChecksum data := by
    intro data hlen
    have hle := sum_words_le data
    have hsum : IsOnesSum (0 + (words data).sum) _ := IsOnesSum.foldl data ⟨by omega, Iff.rfl, rfl⟩
    rw [Nat.zero_add] at hsum
    exact finish_eq (by omega) hsum
  refine ⟨fun data hlen => ?_, fun header hlen hmax => ?_⟩
  · rw [← hfinish data hlen, icmpChecksum, addUnrolled_eq]
    simp
  · rw [← hfinish _ (by simp; omega)]
    unfold ipv4Checksum
    split
    · dsimp only
      rw [addRest_eq]
      refine congrArg finish ?_
      simp only [take_succ_cons, take_zero, drop_succ_cons, drop_zero, cons_append, nil_append,
        words, sum_cons, ofNat_add, word]
      have hzero : ofNat (bigEndian [0, 0]) = 0 := rfl
      ac_rfl
    next hshort =>
      -- a header of twenty bytes is of the first form
      iterate 20 (rcases header with _ | ⟨_, header⟩; · simp at hlen)
      exact (hshort _ _ _ _ _ _ _ _ _ _ _ _ _ _ _ _ _ _ _ _ _ rfl).elim

end Checksum
