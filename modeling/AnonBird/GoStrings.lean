/-
# Go strings and byte slices

A Go string is a finite sequence of bytes, not of characters, so the model uses byte
lists throughout and says where the standard library decodes UTF-8.  This module has
the byte-level operations and the decimal conversions of `strconv`.
-/
import Mathlib

open List

namespace GoStrings

/-- A Go string or byte slice. -/
abbrev Bytes := List UInt8

instance : LawfulBEq Bytes := inferInstance

/-- The bytes of an ASCII literal. -/
def ascii (s : String) : Bytes := s.toList.map fun c => UInt8.ofNat c.toNat

/-! ## Slices and fixed-width integers -/

variable (s : Bytes)

/-- The bytes `s[i:j]`. -/
def slice (i j : ℕ) : Bytes := (s.take j).drop i

/-- The byte `s[i]`; the callers have checked `i` against the length. -/
def byteAt (i : ℕ) : UInt8 := s.getD i 0

/-- `binary.BigEndian.Uint16` at offset `i`. -/
def uint16At (i : ℕ) : UInt16 :=
  (byteAt s i).toUInt16 <<< 8 ||| (byteAt s (i + 1)).toUInt16

/-- A byte string read as a big-endian number. -/
def bigEndian : ℕ := s.foldl (fun n b => n * 256 + b.toNat) 0

variable (p : Bytes)

theorem byteAt_take (n i : ℕ) (h : i < n) : byteAt (p.take n) i = byteAt p i := by
  unfold byteAt
  rw [getD_eq_getElem?_getD, getD_eq_getElem?_getD, getElem?_take_of_lt h]

theorem uint16At_take (n i : ℕ) (h : i + 1 < n) : uint16At (p.take n) i = uint16At p i := by
  unfold uint16At
  rw [byteAt_take p n i (by omega), byteAt_take p n (i + 1) h]

theorem slice_take (n i j : ℕ) (h : j ≤ n) : slice (p.take n) i j = slice p i j := by
  unfold slice
  rw [take_take, min_eq_left h]

theorem length_slice (i j : ℕ) (h : j ≤ p.length) : (slice p i j).length = j - i := by
  unfold slice
  rw [length_drop, length_take, min_eq_left h]

theorem idxOf?_append_cons {b : UInt8} {s : Bytes} (h : b ∉ s) (t : Bytes) :
    (s ++ b :: t).idxOf? b = some s.length := by
  induction s with
  | nil => simp [idxOf?_cons]
  | cons c s ih =>
    rw [mem_cons, not_or] at h
    rw [cons_append, idxOf?_cons, if_neg (by simpa using Ne.symm h.1), ih h.2]
    rfl

/-! ## Decimal numbers -/

/-- `strconv.FormatUint(n, 10)`. -/
def formatUint (n : ℕ) : Bytes :=
  if n = 0 then [48] else (Nat.digits 10 n).reverse.map fun d => UInt8.ofNat (48 + d)

/-- `hex.EncodeToString`. -/
def hexEncode : Bytes :=
  let digit (n : UInt8) : UInt8 := if n < 10 then 48 + n else 87 + n
  s.flatMap fun b => [digit (b / 16), digit (b % 16)]

/-- The bytes `0` to `9`. -/
def isDigit (b : UInt8) : Bool := 48 ≤ b && b ≤ 57

/-- The number a string of decimal digits denotes. -/
def decimal : ℕ := s.foldl (fun v b => v * 10 + (b.toNat - 48)) 0

/-- `strconv.ParseUint(s, 10, bits)`; `none` is its error. -/
def parseUint (bits : ℕ) : Option ℕ :=
  if s = [] ∨ ¬ s.all isDigit then none
  else if decimal s < 2 ^ bits then some (decimal s) else none

theorem toNat_digit (d : ℕ) (h : d < 10) : (UInt8.ofNat (48 + d)).toNat = 48 + d := by
  rw [UInt8.toNat_ofNat']
  omega

theorem isDigit_digit (d : ℕ) (h : d < 10) : isDigit (UInt8.ofNat (48 + d)) := by
  unfold isDigit
  simp only [Bool.and_eq_true, decide_eq_true_eq, UInt8.le_iff_toNat_le, toNat_digit d h]
  simp
  omega

theorem decimal_map_digits (ds : List ℕ) (h : ∀ d ∈ ds, d < 10) :
    decimal (ds.reverse.map fun d => UInt8.ofNat (48 + d)) = Nat.ofDigits 10 ds := by
  unfold decimal
  rw [foldl_map, foldl_reverse]
  induction ds with
  | nil => rfl
  | cons d ds ih =>
    rw [foldr_cons, ih fun x hx => h x (mem_cons_of_mem d hx), Nat.ofDigits_cons,
      toNat_digit d (h d mem_cons_self)]
    omega

theorem decimal_formatUint (n : ℕ) : decimal (formatUint n) = n := by
  unfold formatUint
  split
  · subst_vars
    rfl
  · rw [decimal_map_digits _ fun d hd => Nat.digits_lt_base (by omega) hd, Nat.ofDigits_digits]

theorem formatUint_injective : Function.Injective formatUint := by
  intro m n h
  rw [← decimal_formatUint m, h, decimal_formatUint]

theorem formatUint_ne_nil (n : ℕ) : formatUint n ≠ [] := by
  unfold formatUint
  split
  · simp
  · rename_i h
    simp [Nat.digits_ne_nil_iff_ne_zero.mpr h]

theorem all_isDigit_formatUint (n : ℕ) : (formatUint n).all isDigit := by
  unfold formatUint
  split
  · rfl
  · rw [all_map, all_eq_true]
    intro d hd
    exact isDigit_digit d (Nat.digits_lt_base (by omega) (mem_reverse.mp hd))

theorem parseUint_formatUint {n bits : ℕ} (h : n < 2 ^ bits) :
    parseUint (formatUint n) bits = some n := by
  unfold parseUint
  rw [if_neg (by simp [formatUint_ne_nil, all_isDigit_formatUint]), decimal_formatUint, if_pos h]

/-! ### Signed numbers -/

/-- `strconv.FormatInt(n, 10)`. -/
def formatInt (n : ℤ) : Bytes :=
  if n < 0 then 45 :: formatUint n.natAbs else formatUint n.natAbs

/-- `strconv.ParseInt(s, 10, bits)`: an optional sign and digits. -/
def parseInt (bits : ℕ) : Option ℤ :=
  let signed := s.head? = some 43 ∨ s.head? = some 45
  match parseUint (if signed then s.tail else s) bits with
  | none => none
  | some un =>
    if s.head? = some 45 then if un ≤ 2 ^ (bits - 1) then some (-un) else none
    else if un < 2 ^ (bits - 1) then some un else none

/-- The first byte of a number without a sign is a digit. -/
theorem isDigit_head?_formatUint {n : ℕ} {b : UInt8} (h : (formatUint n).head? = some b) :
    isDigit b :=
  all_eq_true.mp (all_isDigit_formatUint n) b (mem_of_head? h)

/-- **Signed numbers round trip** within the range of the width. -/
theorem parseInt_formatInt {n : ℤ} {bits : ℕ} (hbits : 0 < bits) (hlo : -2 ^ (bits - 1) ≤ n)
    (hhi : n < 2 ^ (bits - 1)) : parseInt (formatInt n) bits = some n := by
  have hbound : n.natAbs ≤ 2 ^ (bits - 1) := by
    zify
    exact abs_le.mpr ⟨hlo, hhi.le⟩
  have hfits : n.natAbs < 2 ^ bits :=
    lt_of_le_of_lt hbound (Nat.pow_lt_pow_right (by omega) (by omega))
  unfold parseInt formatInt
  by_cases hneg : n < 0
  · simp only [if_pos hneg, List.head?_cons, tail_cons, or_true, if_true,
      parseUint_formatUint hfits, if_pos hbound]
    congr 1
    omega
  · -- without a sign the first byte is a digit, which is neither of the signs
    have hplus : (formatUint n.natAbs).head? ≠ some 43 := fun h =>
      absurd (isDigit_head?_formatUint h) (by decide)
    have hminus : (formatUint n.natAbs).head? ≠ some 45 := fun h =>
      absurd (isDigit_head?_formatUint h) (by decide)
    have hlt : n.natAbs < 2 ^ (bits - 1) := by
      zify
      rwa [abs_of_nonneg (by omega)]
    simp only [if_neg hneg, hplus, hminus, or_self, if_false, parseUint_formatUint hfits,
      if_pos hlt]
    congr 1
    omega

theorem length_formatUint (n : ℕ) : (formatUint n).length = max 1 (Nat.digits 10 n).length := by
  unfold formatUint
  by_cases hn : n = 0
  · simp [hn]
  · have hpos : 1 ≤ (Nat.digits 10 n).length :=
      length_pos_iff.mpr (Nat.digits_ne_nil_iff_ne_zero.mpr hn)
    rw [if_neg hn, length_map, length_reverse, max_eq_right hpos]

theorem length_formatInt (n : ℤ) : (Nat.digits 10 n.natAbs).length ≤ (formatInt n).length ∧
      (formatInt n).length ≤ 2 + (Nat.digits 10 n.natAbs).length := by
  have hlen := length_formatUint n.natAbs
  unfold formatInt
  split
  · rw [length_cons]
    omega
  · omega

/-- A string is a number in decimal digits, with or without a sign. -/
inductive SignedDecimal : Bytes → ℤ → Prop
  | unsigned {ds : Bytes} (hne : ds ≠ []) (hds : ds.all isDigit = true) :
      SignedDecimal ds (decimal ds)
  | plus {ds : Bytes} (hne : ds ≠ []) (hds : ds.all isDigit = true) :
      SignedDecimal (43 :: ds) (decimal ds)
  | minus {ds : Bytes} (hne : ds ≠ []) (hds : ds.all isDigit = true) :
      SignedDecimal (45 :: ds) (-(decimal ds : ℤ))

theorem parseUint_eq_some {s : Bytes} {bits n : ℕ} (h : parseUint s bits = some n) :
    s ≠ [] ∧ s.all isDigit ∧ n = decimal s := by
  unfold parseUint at h
  split at h
  · cases h
  · rename_i hs
    split at h
    · cases h
      simp only [not_or, not_not] at hs
      exact ⟨hs.1, hs.2, rfl⟩
    · cases h

theorem signedDecimal_of_parseInt {s : Bytes} {bits : ℕ} {n : ℤ} (h : parseInt s bits = some n) :
    SignedDecimal s n := by
  unfold parseInt at h
  simp only at h
  split at h
  · cases h
  · rename_i un hun
    obtain ⟨hne, hds, rfl⟩ := parseUint_eq_some hun
    cases s with
    | nil => exact absurd rfl hne
    | cons b rest =>
      simp only [List.head?_cons, Option.some.injEq, tail_cons] at h hne hds
      by_cases hminus : b = 45
      · subst hminus
        simp only [or_true, if_true] at h hne hds
        split at h
        · cases h
          exact .minus hne hds
        · cases h
      · by_cases hplus : b = 43
        · subst hplus
          simp only [true_or, if_true] at h hne hds
          simp only [if_neg hminus] at h
          split at h
          · cases h
            exact .plus hne hds
          · cases h
        · simp only [hminus, hplus, or_self, if_false] at h hne hds
          split at h
          · cases h
            exact .unsigned hne hds
          · cases h

end GoStrings
