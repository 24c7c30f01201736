/-
# Go strings as text

The operations of `strings`, `unicode` and `unicode/utf8` on byte strings.  A string
is decoded rune by rune, where every byte that does not start a valid encoding is the
rune U+FFFD of width one, and a string that is mapped rune by rune is encoded again.

The case tables of Unicode are a parameter (`Unicode`) that is fixed on ASCII only, so
that a result about the code does not depend on the version of the tables.
-/
import AnonBird.GoStrings

open GoStrings List
open UInt8 (ofNat)

namespace GoText

/-! ## Runes -/

/-- The rune of an invalid byte. -/
def runeError : ℕ := 0xFFFD

/-- The bytes 0x80 to 0xBF. -/
def isContinuation (b : UInt8) : Bool := 0x80 ≤ b && b ≤ 0xBF

variable (s : Bytes)

/-- `utf8.DecodeRuneInString`: the first rune and its width. -/
def decodeRune : ℕ × ℕ :=
  let b0 := (byteAt s 0).toNat
  let b1 := (byteAt s 1).toNat
  let b2 := (byteAt s 2).toNat
  let b3 := (byteAt s 3).toNat
  if s = [] then (runeError, 0)
  else if b0 < 0x80 then (b0, 1)
  else if 0xC2 ≤ b0 && b0 ≤ 0xDF && isContinuation (byteAt s 1) then
    ((b0 - 0xC0) * 64 + (b1 - 0x80), 2)
  else if 0xE0 ≤ b0 && b0 ≤ 0xEF && isContinuation (byteAt s 1) && isContinuation (byteAt s 2) &&
      (b0 ≠ 0xE0 || 0xA0 ≤ b1) && (b0 ≠ 0xED || b1 ≤ 0x9F) then
    ((b0 - 0xE0) * 4096 + (b1 - 0x80) * 64 + (b2 - 0x80), 3)
  else if 0xF0 ≤ b0 && b0 ≤ 0xF4 && isContinuation (byteAt s 1) && isContinuation (byteAt s 2) &&
      isContinuation (byteAt s 3) && (b0 ≠ 0xF0 || 0x90 ≤ b1) && (b0 ≠ 0xF4 || b1 ≤ 0x8F) then
    ((b0 - 0xF0) * 262144 + (b1 - 0x80) * 4096 + (b2 - 0x80) * 64 + (b3 - 0x80), 4)
  else (runeError, 1)

/-- At most `n` runes from the front. -/
def runesUpTo : ℕ → Bytes → List ℕ
  | 0, _ => []
  | n + 1, s =>
    if s = [] then [] else (decodeRune s).1 :: runesUpTo n (s.drop (decodeRune s).2)

/-- The runes of `for _, r := range s`. -/
def runes : List ℕ := runesUpTo s.length s

/-- `utf8.AppendRune`. -/
def encodeRune (r : ℕ) : Bytes :=
  if r < 0x80 then [ofNat r]
  else if r < 0x800 then [ofNat (0xC0 + r / 64), ofNat (0x80 + r % 64)]
  else if r ≥ 0x110000 || (0xD800 ≤ r && r < 0xE000) then [0xEF, 0xBF, 0xBD]
  else if r < 0x10000 then
    [ofNat (0xE0 + r / 4096), ofNat (0x80 + r / 64 % 64), ofNat (0x80 + r % 64)]
  else
    [ofNat (0xF0 + r / 262144), ofNat (0x80 + r / 4096 % 64),
      ofNat (0x80 + r / 64 % 64), ofNat (0x80 + r % 64)]

/-! ## White space -/

/-- `unicode.IsSpace`. -/
def isSpace (r : ℕ) : Bool :=
  (9 ≤ r && r ≤ 13) || r = 0x20 || r = 0x85 || r = 0xA0 || r = 0x1680 ||
    (0x2000 ≤ r && r ≤ 0x200A) || r = 0x2028 || r = 0x2029 || r = 0x202F || r = 0x205F || r = 0x3000

/-- The encodings of the white space runes. -/
def spaces : List Bytes :=
  [[9], [10], [11], [12], [13], [0x20], [0xC2, 0x85], [0xC2, 0xA0], [0xE1, 0x9A, 0x80],
    [0xE2, 0x80, 0x80], [0xE2, 0x80, 0x81], [0xE2, 0x80, 0x82], [0xE2, 0x80, 0x83],
    [0xE2, 0x80, 0x84], [0xE2, 0x80, 0x85], [0xE2, 0x80, 0x86], [0xE2, 0x80, 0x87],
    [0xE2, 0x80, 0x88], [0xE2, 0x80, 0x89], [0xE2, 0x80, 0x8A], [0xE2, 0x80, 0xA8],
    [0xE2, 0x80, 0xA9], [0xE2, 0x80, 0xAF], [0xE2, 0x81, 0x9F], [0xE3, 0x80, 0x80]]

/-- Drop words of `words` from the front, at most `n` of them. -/
def dropWords (words : List Bytes) : ℕ → Bytes → Bytes
  | 0, s => s
  | n + 1, s =>
    match words.find? fun w => w.isPrefixOf s with
    | some w => dropWords words n (s.drop w.length)
    | none => s

/-- `strings.TrimSpace`: the first rune is white space exactly when the string starts with the
encoding of a white space rune, and likewise at the end. -/
def trimSpace : Bytes :=
  let s := dropWords spaces s.length s
  (dropWords (spaces.map reverse) s.length s.reverse).reverse

theorem dropWords_suffix (words : List Bytes) (n : ℕ) (s : Bytes) : dropWords words n s <:+ s := by
  induction n generalizing s with
  | zero => exact suffix_rfl
  | succ n ih =>
    rw [dropWords]
    split
    · exact (ih _).trans (drop_suffix _ s)
    · exact suffix_rfl

variable {words : List Bytes}

theorem not_prefix_dropWords (hwords : ∀ w ∈ words, w ≠ []) (n : ℕ) (s : Bytes)
    (hn : s.length ≤ n) : ∀ w ∈ words, ¬ w <+: dropWords words n s := by
  induction n generalizing s with
  | zero =>
    intro w hw hpre
    rw [length_eq_zero_iff.mp (Nat.le_zero.mp hn)] at hpre
    exact hwords w hw (prefix_nil.mp hpre)
  | succ n ih =>
    rw [dropWords]
    split
    · rename_i v hv
      have hlen := length_pos_iff.mpr (hwords v (mem_of_find?_eq_some hv))
      refine ih _ ?_
      rw [length_drop]
      omega
    · rename_i hnone
      intro w hw hpre
      exact find?_eq_none.mp hnone w hw ( isPrefixOf_iff_prefix.mpr hpre)

variable {s : Bytes}

theorem dropWords_eq_self (h : ∀ w ∈ words, ¬ w <+: s) (n : ℕ) : dropWords words n s = s := by
  cases n with
  | zero => rfl
  | succ n =>
    have hnone : (words.find? fun w => w.isPrefixOf s) = none := by
      rw [find?_eq_none]
      intro w hw hpre
      exact h w hw ( isPrefixOf_iff_prefix.mp hpre)
    rw [dropWords, hnone]

theorem dropWords_bound (hwords : ∀ w ∈ words, w ≠ []) {n : ℕ} (hn : s.length ≤ n) :
    dropWords words n s = dropWords words s.length s := by
  suffices h : ∀ m n (s : Bytes), s.length ≤ m → s.length ≤ n →
      dropWords words m s = dropWords words n s from h n s.length s hn le_rfl
  intro m
  induction m with
  | zero =>
    intro n s hm _
    obtain rfl := length_eq_zero_iff.mp (Nat.le_zero.mp hm)
    refine (dropWords_eq_self (fun w hw hpre => ?_) n).symm
    exact hwords w hw (prefix_nil.mp hpre)
  | succ m ih =>
    intro n s hm hn
    cases hfind : words.find? fun w => w.isPrefixOf s with
    | none =>
      have hnone : ∀ w ∈ words, ¬ w <+: s := fun w hw hpre =>
        find?_eq_none.mp hfind w hw ( isPrefixOf_iff_prefix.mpr hpre)
      rw [dropWords_eq_self hnone, dropWords_eq_self hnone]
    | some w =>
      have hw := length_pos_iff.mpr (hwords w (mem_of_find?_eq_some hfind))
      have hpre : w.isPrefixOf s := by simpa using find?_some hfind
      have hle : w.length ≤ s.length := ( isPrefixOf_iff_prefix.mp hpre).length_le
      obtain ⟨n, rfl⟩ : ∃ n', n = n' + 1 := ⟨n - 1, by omega⟩
      rw [dropWords, dropWords, hfind]
      refine ih n _ ?_ ?_
      all_goals
        rw [length_drop]
        omega

variable {c : UInt8} {w : Bytes}

/-- A word that does not have `c` does not reach beyond it. -/
theorem prefix_append_cons_iff (hc : c ∉ w) (l r : Bytes) :
    w <+: l ++ c :: r ↔ w <+: l := by
  constructor
  · intro hpre
    by_cases hle : w.length ≤ l.length
    · exact prefix_of_prefix_length_le hpre (prefix_append l (c :: r)) hle
    · have hshort : l ++ [c] <+: w := by
        refine prefix_of_prefix_length_le ⟨r, by simp⟩ hpre ?_
        rw [length_append, length_singleton]
        omega
      exact absurd (hshort.subset (by simp)) hc
  · intro hpre
    exact hpre.trans (prefix_append l (c :: r))

/-- A word that does not have `c` does not reach back before it. -/
theorem suffix_append_cons_iff (hc : c ∉ w) (l r : Bytes) :
    w <:+ l ++ c :: r ↔ w <:+ r := by
  rw [← reverse_prefix, reverse_append, reverse_cons, append_assoc,
    singleton_append, prefix_append_cons_iff (by simpa using hc), reverse_prefix]

/-- Dropping words stops at a byte that is in none of them. -/
theorem dropWords_append_cons (hc : ∀ w ∈ words, c ∉ w) (n : ℕ) (l r : Bytes) :
    dropWords words n (l ++ c :: r) = dropWords words n l ++ c :: r := by
  induction n generalizing l with
  | zero => rfl
  | succ n ih =>
    have hfind : (words.find? fun w => w.isPrefixOf (l ++ c :: r)) =
        words.find? fun w => w.isPrefixOf l := by
      refine find?_congr fun w hw => ?_
      rw [Bool.eq_iff_iff, isPrefixOf_iff_prefix, isPrefixOf_iff_prefix]
      exact prefix_append_cons_iff (hc w hw) l r
    rw [dropWords, dropWords, hfind]
    cases hword : words.find? fun w => w.isPrefixOf l with
    | none => rfl
    | some w =>
      have hpre : w.isPrefixOf l := by simpa using find?_some hword
      have hle : w.length ≤ l.length := ( isPrefixOf_iff_prefix.mp hpre).length_le
      dsimp only
      rw [drop_append_of_le_length hle, ih]

theorem spaces_ne_nil : ∀ w ∈ spaces, w ≠ [] := by decide

theorem reverse_spaces_ne_nil : ∀ w ∈ spaces.map reverse, w ≠ [] := by decide

/-- The string without the white space at its front. -/
def trimFront (s : Bytes) : Bytes := dropWords spaces s.length s

/-- The string without the white space at its end. -/
def trimBack (s : Bytes) : Bytes :=
  (dropWords (spaces.map reverse) s.length s.reverse).reverse

theorem trimFront_append_cons (hc : ∀ w ∈ spaces, c ∉ w) (l r : Bytes) :
    trimFront (l ++ c :: r) = trimFront l ++ c :: r := by
  rw [trimFront, dropWords_append_cons hc, dropWords_bound spaces_ne_nil (by simp), trimFront]

/-- Around a byte that is not white space the two sides are trimmed on their own. -/
theorem trimSpace_append_cons (hc : ∀ w ∈ spaces, c ∉ w) (l r : Bytes) :
    trimSpace (l ++ c :: r) = trimFront l ++ c :: trimBack r := by
  have hc' : ∀ w ∈ spaces.map reverse, c ∉ w := by
    intro w hw
    obtain ⟨v, hv, rfl⟩ := mem_map.mp hw
    rw [mem_reverse]
    exact hc v hv
  have hfront : dropWords spaces (l ++ c :: r).length (l ++ c :: r) = trimFront l ++ c :: r :=
    trimFront_append_cons hc l r
  have hback : dropWords (spaces.map reverse) (trimFront l ++ c :: r).length r.reverse =
      (trimBack r).reverse := by
    rw [dropWords_bound reverse_spaces_ne_nil (by simp; omega), trimBack, reverse_reverse,
      length_reverse]
  rw [trimSpace, hfront, reverse_append, reverse_cons, append_assoc,
    singleton_append, dropWords_append_cons hc', hback]
  simp

theorem trimFront_suffix (s : Bytes) : trimFront s <:+ s := dropWords_suffix spaces s.length s

theorem trimBack_isPrefix (s : Bytes) : trimBack s <+: s := by
  rw [← reverse_suffix, trimBack, reverse_reverse]
  exact dropWords_suffix _ _ _

/-- Without white space at the end only the front is trimmed. -/
theorem trimSpace_eq_trimFront (h : ∀ w ∈ spaces, ¬ w <:+ s) : trimSpace s = trimFront s := by
  have hsuffix := trimFront_suffix s
  change (dropWords _ (trimFront s).length (trimFront s).reverse).reverse = _
  rw [dropWords_eq_self, reverse_reverse]
  intro w hw hpre
  obtain ⟨v, hv, rfl⟩ := mem_map.mp hw
  exact h v hv (( reverse_prefix.mp hpre).trans hsuffix)

theorem trimSpace_trimSpace (s : Bytes) : trimSpace (trimSpace s) = trimSpace s := by
  rw [show trimSpace s = (dropWords (spaces.map reverse) (dropWords spaces s.length s).length
    (dropWords spaces s.length s).reverse).reverse from rfl]
  have hfront := not_prefix_dropWords spaces_ne_nil s.length s le_rfl
  generalize dropWords spaces s.length s = a at hfront ⊢
  have hback := not_prefix_dropWords reverse_spaces_ne_nil a.length a.reverse
    (by rw [length_reverse])
  have hsuffix := dropWords_suffix (spaces.map reverse) a.length a.reverse
  generalize dropWords (spaces.map reverse) a.length a.reverse = b at hback hsuffix ⊢
  have hprefix : b.reverse <+: a := by
    rw [← reverse_suffix, reverse_reverse]
    exact hsuffix
  rw [trimSpace, dropWords_eq_self fun w hw hpre => hfront w hw (hpre.trans hprefix)]
  rw [reverse_reverse, dropWords_eq_self hback]

/-! ## Case -/

/-- `unicode.ToLower` on ASCII. -/
def asciiLower (r : ℕ) : ℕ := if 65 ≤ r && r ≤ 90 then r + 32 else r

/-- `unicode.ToUpper` on ASCII. -/
def asciiUpper (r : ℕ) : ℕ := if 97 ≤ r && r ≤ 122 then r - 32 else r

/-- The case tables, as far as they are fixed.  Beyond ASCII a few letters have an ASCII
letter as their lower case, among them the Kelvin sign. -/
structure Unicode where
  toLower : ℕ → ℕ
  toUpper : ℕ → ℕ
  toLower_ascii : ∀ r < 128, toLower r = asciiLower r
  toUpper_ascii : ∀ r < 128, toUpper r = asciiUpper r
  toLower_letter : ∀ r, 128 ≤ r → toLower r < 128 → 97 ≤ toLower r ∧ toLower r ≤ 122

/-- The tables that know ASCII letters only. -/
def asciiOnly : Unicode where
  toLower := asciiLower
  toUpper := asciiUpper
  toLower_ascii _ _ := rfl
  toUpper_ascii _ _ := rfl
  toLower_letter r hr hlt := by
    have hfixed : asciiLower r = r := if_neg (by simp; omega)
    omega

/-- `strings.Map`. -/
def mapRunes (f : ℕ → ℕ) (s : Bytes) : Bytes := (runes s).flatMap fun r => encodeRune (f r)

/-- `strings.ToLower`. -/
def toLower (U : Unicode) (s : Bytes) : Bytes := mapRunes U.toLower s

/-- `strings.ToUpper`. -/
def toUpper (U : Unicode) (s : Bytes) : Bytes := mapRunes U.toUpper s

/-- Equality under simple folding with an ASCII rune: besides the other case only the Kelvin sign
and the long s fold to ASCII. -/
def foldsTo (r t : ℕ) : Bool :=
  asciiLower r = asciiLower t || (r = 0x212A && asciiLower t = 107) ||
    (r = 0x17F && asciiLower t = 115)

/-- `strings.EqualFold` with an ASCII string. -/
def equalFold (s t : Bytes) : Bool :=
  (runes s).length = t.length && ((runes s).zip t).all fun p => foldsTo p.1 p.2.toNat

/-! ## Searching and cutting -/

/-- `strings.Cut` at a one-byte separator. -/
def cut (sep : UInt8) (s : Bytes) : Option (Bytes × Bytes) :=
  (s.idxOf? sep).map fun i => (s.take i, s.drop (i + 1))

/-- `strings.Contains`. -/
def contains (s sub : Bytes) : Bool := s.tails.any fun t => sub.isPrefixOf t

/-- `strings.HasSuffix`. -/
def hasSuffix (s t : Bytes) : Bool := t.isSuffixOf s

/-- `strings.HasPrefix`. -/
def hasPrefix (s t : Bytes) : Bool := t.isPrefixOf s

/-- `strings.TrimSuffix`. -/
def trimSuffix (s t : Bytes) : Bytes := if hasSuffix s t then s.take (s.length - t.length) else s

/-- `strings.Trim` with an ASCII cutset. -/
def trim (s cutset : Bytes) : Bytes :=
  let s := s.dropWhile fun b => cutset.contains b
  (s.reverse.dropWhile fun b => cutset.contains b).reverse

/-- `strings.LastIndexByte`. -/
def lastIndexByte (s : Bytes) (b : UInt8) : Option ℕ :=
  (s.reverse.idxOf? b).map fun i => s.length - 1 - i

theorem trimSuffix_concat (s t : Bytes) : trimSuffix (s ++ t) t = s := by
  have hsuffix : hasSuffix (s ++ t) t :=
    isSuffixOf_iff_suffix.mpr (suffix_append s t)
  rw [trimSuffix, if_pos hsuffix]
  simp

theorem trimSuffix_eq_self {t : Bytes} (h : ¬ t <:+ s) : trimSuffix s t = s := by
  rw [trimSuffix, if_neg]
  intro hsuffix
  exact h (isSuffixOf_iff_suffix.mp hsuffix)

theorem trimSuffix_isPrefix (s t : Bytes) : trimSuffix s t <+: s := by
  rw [trimSuffix]
  split
  · exact take_prefix _ s
  · exact prefix_rfl

variable {b : UInt8}

theorem lastIndexByte_append_cons (l : Bytes) {r : Bytes} (h : b ∉ r) :
    lastIndexByte (l ++ b :: r) b = some l.length := by
  have hrev : (l ++ b :: r).reverse = r.reverse ++ b :: l.reverse := by simp
  rw [lastIndexByte, hrev, idxOf?_append_cons (by rwa [mem_reverse]), Option.map_some]
  congr 1
  rw [length_append, length_cons, length_reverse]
  omega

/-- A string with a byte, cut at its last occurrence. -/
theorem exists_last_of_mem (h : b ∈ s) : ∃ l r, s = l ++ b :: r ∧ b ∉ r := by
  obtain ⟨r, l, hrev, hr⟩ := eq_append_cons_of_mem (mem_reverse.mpr h)
  refine ⟨l.reverse, r.reverse, ?_, by rwa [mem_reverse]⟩
  rw [← reverse_reverse s, hrev]
  simp

theorem lastIndexByte_eq_none (h : b ∉ s) : lastIndexByte s b = none := by
  rw [lastIndexByte, Option.map_eq_none_iff, idxOf?_eq_none_iff, mem_reverse]
  exact h

end GoText
