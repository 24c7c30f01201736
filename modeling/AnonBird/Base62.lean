/-
# Base62 numbers

Model of `base62/base62.go`.  The powers that `Decode` takes from `math.Pow` are exact, and wrap
when they are converted to `uint32`.
-/
import AnonBird.GoRunes

open GoStrings GoText List

namespace Base62

/-- The digits. -/
def alphabet : Bytes := ascii "0123456789ABCDEFGHIJKLMNOPQRSTUVWXYZabcdefghijklmnopqrstuvwxyz"

/-- The number of digits. -/
def base : ℕ := alphabet.length

open Nat

/-- The text of a number. -/
def encode (num : UInt32) : Bytes :=
  if num = 0 then [byteAt alphabet 0]
  else ((digits base num.toNat).map (byteAt alphabet)).reverse

/-- `strings.IndexRune(alphabet, char)`. -/
def indexRune (char : ℕ) : Option ℕ := if char < 128 then alphabet.idxOf? (.ofNat char) else none

/-- The loop of `Decode`.  The runes before the `i`-th are of one byte, so `i` is its offset. -/
def decodeFrom (strLen : ℕ) : ℕ → UInt32 → List ℕ → Except ℕ UInt32
  | _, decoded, [] => .ok decoded
  | i, decoded, char :: rest =>
    match indexRune char with
    | none => .error char
    | some index => decodeFrom strLen (i + 1)
        (decoded + .ofNat index * .ofNat (base ^ (strLen - i - 1))) rest

/-- `Decode`; the error names the invalid character. -/
def decode (encoded : Bytes) : Except ℕ UInt32 := decodeFrom encoded.length 0 0 (runes encoded)

/-- The number that a string over the alphabet stands for. -/
def value (s : Bytes) : ℕ := ofDigits base (s.map alphabet.idxOf).reverse

theorem index_of_mem : ∀ b ∈ alphabet,
    b < 0x80 ∧ indexRune b.toNat = some (alphabet.idxOf b) := by
  decide +kernel

theorem idxOf_byteAt : ∀ d < base, byteAt alphabet d ∈ alphabet ∧
    alphabet.idxOf (byteAt alphabet d) = d := by
  decide +kernel

theorem decodeFrom_eq {strLen i : ℕ} {decoded : UInt32} {s : Bytes} (hs : ∀ b ∈ s, b ∈ alphabet)
    (hlen : i + s.length = strLen) :
    decodeFrom strLen i decoded (runes s) = .ok (decoded + .ofNat (value s)) := by
  induction s generalizing i decoded with
  | nil => simp [runes, runesUpTo, decodeFrom, value]
  | cons b s ih =>
    rw [forall_mem_cons] at hs
    obtain ⟨hascii, hindex⟩ := index_of_mem b hs.1
    have hvalue : value (b :: s) = value s + base ^ s.length * alphabet.idxOf b := by
      rw [value, map_cons, reverse_cons, ofDigits_append, value]
      simp
    have hlast : strLen - i - 1 = s.length := by
      rw [length_cons] at hlen
      omega
    rw [runes_ascii_cons hascii, decodeFrom, hindex]
    dsimp only
    rw [ih hs.2 (by rw [length_cons] at hlen; omega), hlast, hvalue, UInt32.ofNat_add,
      UInt32.ofNat_mul, UInt32.mul_comm, UInt32.add_assoc, UInt32.add_comm (.ofNat (value s))]

theorem decode_eq {s : Bytes} (hs : ∀ b ∈ s, b ∈ alphabet) : decode s = .ok (.ofNat (value s)) := by
  rw [decode, decodeFrom_eq hs (zero_add _), UInt32.zero_add]

theorem decode_encode (n : UInt32) : decode (encode n) = .ok n := by
  rw [encode]
  split
  next hzero =>
    rw [hzero]
    rfl
  · have hdigits : ∀ d ∈ digits base n.toNat, d < base := fun d =>
      digits_lt_base (by decide)
    rw [decode_eq]
    · have hvalue : (digits base n.toNat).map (alphabet.idxOf ∘ byteAt alphabet) =
          digits base n.toNat := by
        conv_rhs => rw [← map_id (digits base n.toNat)]
        exact map_congr_left fun d hd => (idxOf_byteAt d (hdigits d hd)).2
      rw [value, map_reverse, reverse_reverse, map_map, hvalue, Nat.ofDigits_digits,
        UInt32.ofNat_toNat]
    · intro b hb
      obtain ⟨d, hd, rfl⟩ := mem_map.mp (mem_reverse.mp hb)
      exact (idxOf_byteAt d (hdigits d hd)).1

/-- **Decoding is exact** for what was encoded, and for a string over the alphabet exactly if its
value fits; a larger value is reduced without an error. -/
theorem decode_exact_iff (n : UInt32) (s : Bytes) : decode (encode n) = .ok n ∧
    (s ≠ [] → (∀ b ∈ s, b ∈ alphabet) →
      ((if value s < 2 ^ 32 then decode s = .ok (.ofNat (value s)) else ∃ e, decode s = .error e) ↔
        value s < 2 ^ 32)) := by
  refine ⟨decode_encode n, fun _ hs => ?_⟩
  rw [decode_eq hs]
  split
  next hlt => exact iff_of_true rfl hlt
  next hge => exact iff_of_false (by rintro ⟨e, ⟨⟩⟩) hge

/-- The value of `4gfFC4` is `2 ^ 32`. -/
theorem overflow_accepted : value (ascii "4gfFC4") = 2 ^ 32 ∧ decode (ascii "4gfFC4") = .ok 0 := by
  decide +kernel

end Base62
