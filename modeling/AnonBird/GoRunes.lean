/-
# Runes of a concatenation, and lower case

An ASCII byte is a rune of its own wherever it stands: it neither completes nor continues
an encoding.  So the runes of a string split at every ASCII byte, and mapping a string to
lower case commutes with cutting it there.  Moreover the mapping neither makes nor removes
an ASCII byte that is not a letter.
-/
import AnonBird.GoText

open GoStrings List

namespace GoText

/-! ## Decoding -/

variable {b : UInt8}

open UInt8

theorem decodeRune_ascii (hb : b < 0x80) (t : Bytes) : decodeRune (b :: t) = (b.toNat, 1) := by
  have hlt : b.toNat < 0x80 := lt_iff_toNat_lt.mp hb
  simp [decodeRune, byteAt, hlt]

theorem isContinuation_ascii (hb : b < 0x80) : isContinuation b = false := by
  have hlt : b.toNat < 128 := lt_iff_toNat_lt.mp hb
  simp [isContinuation, le_iff_toNat_le]
  omega

variable {s : Bytes}

/-- What follows an ASCII byte does not matter for the rune before it. -/
theorem decodeRune_append (hb : b < 0x80) (hs : s ≠ []) (t : Bytes) :
    decodeRune (s ++ b :: t) = decodeRune s := by
  have hcont := isContinuation_ascii hb
  have hzero : isContinuation 0 = false := rfl
  match s with
  | [b0] => simp [decodeRune, byteAt, hcont, hzero]
  | [b0, b1] => simp [decodeRune, byteAt, hcont, hzero]
  | [b0, b1, b2] => simp [decodeRune, byteAt, hcont, hzero]
  | b0 :: b1 :: b2 :: b3 :: s => simp [decodeRune, byteAt]

theorem lt_length_of_isContinuation {i : ℕ} (h : isContinuation (byteAt s i)) : i < s.length := by
  by_contra hge
  rw [byteAt, getD_eq_getElem?_getD, getElem?_eq_none (by omega)] at h
  exact absurd h (by decide)

/-- A rune has a width of at least one byte, within the string, and below 128 it is the
first byte itself. -/
theorem decodeRune_spec (b : UInt8) (t : Bytes) :
    1 ≤ (decodeRune (b :: t)).2 ∧ (decodeRune (b :: t)).2 ≤ (b :: t).length ∧
      ((decodeRune (b :: t)).1 < 128 → (decodeRune (b :: t)).1 = b.toNat ∧ b < 0x80) := by
  rw [decodeRune, if_neg (by simp), show byteAt (b :: t) 0 = b from rfl]
  split_ifs with hb hcond hcond hcond
  · exact ⟨le_rfl, by simp, fun _ => ⟨rfl, lt_iff_toNat_lt.mpr hb⟩⟩
  · simp only [Bool.and_eq_true, decide_eq_true_eq] at hcond
    obtain ⟨⟨hlow, _⟩, hc1⟩ := hcond
    have hlen := lt_length_of_isContinuation hc1
    refine ⟨by omega, hlen, fun hlt => ?_⟩
    omega
  · simp only [Bool.and_eq_true, Bool.or_eq_true, decide_eq_true_eq] at hcond
    obtain ⟨⟨⟨⟨⟨hlow, _⟩, _⟩, hc2⟩, hover⟩, _⟩ := hcond
    have hlen := lt_length_of_isContinuation hc2
    refine ⟨by omega, hlen, fun hlt => ?_⟩
    omega
  · simp only [Bool.and_eq_true, Bool.or_eq_true, decide_eq_true_eq] at hcond
    obtain ⟨⟨⟨⟨⟨⟨hlow, _⟩, _⟩, _⟩, hc3⟩, hover⟩, _⟩ := hcond
    have hlen := lt_length_of_isContinuation hc3
    refine ⟨by omega, hlen, fun hlt => ?_⟩
    omega
  · refine ⟨le_rfl, by simp, fun hlt => ?_⟩
    exact absurd hlt (by decide)

/-! ## Runes -/

theorem runesUpTo_eq {n : ℕ} (hn : s.length ≤ n) : runesUpTo n s = runes s := by
  suffices h : ∀ m n (s : Bytes), s.length ≤ m → s.length ≤ n → runesUpTo m s = runesUpTo n s from
    h n s.length s hn le_rfl
  intro m
  induction m with
  | zero =>
    intro n s hm _
    obtain rfl := length_eq_zero_iff.mp (Nat.le_zero.mp hm)
    cases n <;> rfl
  | succ m ih =>
    intro n s hm hn
    cases s with
    | nil => cases n <;> rfl
    | cons b t =>
      obtain ⟨n, rfl⟩ : ∃ n', n = n' + 1 := ⟨n - 1, by rw [length_cons] at hn; omega⟩
      obtain ⟨hw, _, _⟩ := decodeRune_spec b t
      have hlen : ((b :: t).drop (decodeRune (b :: t)).2).length ≤ t.length := by
        rw [length_drop, length_cons]
        omega
      rw [length_cons] at hm hn
      rw [runesUpTo, runesUpTo, if_neg (by simp), if_neg (by simp), ih n _ (by omega) (by omega)]

theorem runes_cons (b : UInt8) (t : Bytes) : runes (b :: t) =
      (decodeRune (b :: t)).1 :: runes ((b :: t).drop (decodeRune (b :: t)).2) := by
  obtain ⟨hw, _, _⟩ := decodeRune_spec b t
  rw [runes, length_cons, runesUpTo, if_neg (by simp), runesUpTo_eq]
  rw [length_drop, length_cons]
  omega

/-- **Induction over the runes of a string.** -/
theorem runes_induction {P : Bytes → Prop} (hnil : P [])
    (hcons : ∀ b t, P ((b :: t).drop (decodeRune (b :: t)).2) → P (b :: t)) (s : Bytes) : P s := by
  induction hlen : s.length using Nat.strong_induction_on generalizing s with
  | _ n ih =>
    cases s with
    | nil => exact hnil
    | cons b t =>
      obtain ⟨hw, _, _⟩ := decodeRune_spec b t
      refine hcons b t (ih _ ?_ _ rfl)
      rw [length_drop, ← hlen, length_cons]
      omega

theorem runes_ascii_cons (hb : b < 0x80) (t : Bytes) : runes (b :: t) = b.toNat :: runes t := by
  rw [runes_cons, decodeRune_ascii hb]
  rfl

theorem runes_append (hb : b < 0x80) (s t : Bytes) :
    runes (s ++ b :: t) = runes s ++ b.toNat :: runes t := by
  induction s using runes_induction with
  | hnil => exact runes_ascii_cons hb t
  | hcons c s ih =>
    obtain ⟨_, hle, _⟩ := decodeRune_spec c s
    rw [cons_append, runes_cons, runes_cons c s, ← cons_append, decodeRune_append hb (by simp),
      drop_append_of_le_length hle, cons_append, ih]

theorem mem_of_mem_runes {r : ℕ} (hr : r < 128) (h : r ∈ runes s) : ∃ b ∈ s, b.toNat = r := by
  induction s using runes_induction with
  | hnil => exact absurd h not_mem_nil
  | hcons c s ih =>
    obtain ⟨_, _, hfirst⟩ := decodeRune_spec c s
    rw [runes_cons] at h
    rcases mem_cons.mp h with rfl | h
    · exact ⟨c, mem_cons_self, (hfirst hr).1.symm⟩
    · obtain ⟨b, hb, hbr⟩ := ih h
      exact ⟨b, mem_of_mem_drop hb, hbr⟩

/-! ## Lower case -/

theorem encodeRune_ascii (hb : b < 0x80) : encodeRune b.toNat = [b] := by
  have hlt : b.toNat < 128 := UInt8.lt_iff_toNat_lt.mp hb
  rw [encodeRune, if_pos hlt, UInt8.ofNat_toNat]

/-- Beyond ASCII every byte of an encoding is. -/
theorem mem_encodeRune {r : ℕ} (hb : b < 0x80) (h : b ∈ encodeRune r) : b.toNat = r := by
  have hlt : b.toNat < 128 := UInt8.lt_iff_toNat_lt.mp hb
  have hhigh : ∀ m, 128 ≤ m % 256 → b ≠ UInt8.ofNat m := by
    rintro m hm rfl
    rw [toNat_ofNat'] at hlt
    omega
  rw [encodeRune] at h
  split_ifs at h with _ _ hrange <;> simp only [mem_cons, not_mem_nil, or_false] at h
  · rw [h, UInt8.toNat_ofNat']
    omega
  · rcases h with h | h <;> exact absurd h (hhigh _ (by omega))
  · rcases h with rfl | rfl | rfl <;> exact absurd hb (by decide)
  · rcases h with h | h | h <;> exact absurd h (hhigh _ (by omega))
  · simp only [Bool.or_eq_true, decide_eq_true_eq, not_or] at hrange
    rcases h with h | h | h | h <;> exact absurd h (hhigh _ (by omega))

theorem encodeRune_ne_nil (r : ℕ) : encodeRune r ≠ [] := by
  rw [encodeRune]
  split_ifs <;> simp

variable (U : Unicode)

theorem toLower_cons_ne_nil (b : UInt8) (t : Bytes) : toLower U (b :: t) ≠ [] := by
  intro hnil
  exact encodeRune_ne_nil _ (append_eq_nil_iff.mp hnil).1

/-- The ASCII bytes that have no case. -/
def Caseless (b : UInt8) : Prop := b < 0x80 ∧ ¬ (65 ≤ b ∧ b ≤ 90) ∧ ¬ (97 ≤ b ∧ b ≤ 122)

instance (b : UInt8) : Decidable (Caseless b) := inferInstanceAs (Decidable (_ ∧ _ ∧ _))

theorem toLower_caseless (hb : Caseless b) : U.toLower b.toNat = b.toNat := by
  obtain ⟨hlt, hupper, _⟩ := hb
  rw [U.toLower_ascii _ (lt_iff_toNat_lt.mp hlt), asciiLower, if_neg]
  simp only [le_iff_toNat_le] at hupper
  simpa using hupper

/-- Lower case commutes with cutting at a byte without case. -/
theorem toLower_append (hb : Caseless b) (s t : Bytes) :
    toLower U (s ++ b :: t) = toLower U s ++ b :: toLower U t := by
  rw [toLower, mapRunes, runes_append hb.1, flatMap_append, flatMap_cons,
    toLower_caseless U hb, encodeRune_ascii hb.1]
  rfl

/-- Lower case makes no byte without case. -/
theorem mem_of_mem_toLower (hb : Caseless b) (h : b ∈ toLower U s) : b ∈ s := by
  obtain ⟨r, hr, hmem⟩ := mem_flatMap.mp h
  have heq := mem_encodeRune hb.1 hmem
  obtain ⟨hlt, hupper, hlower⟩ := hb
  have hlt' : b.toNat < 128 := lt_iff_toNat_lt.mp hlt
  simp only [le_iff_toNat_le, reduceToNat] at hupper hlower
  by_cases hr128 : r < 128
  · rw [U.toLower_ascii r hr128, asciiLower] at heq
    split at heq
    · rename_i hletter
      simp only [Bool.and_eq_true, decide_eq_true_eq] at hletter
      omega
    · obtain ⟨c, hc, hcr⟩ := mem_of_mem_runes hr128 hr
      rwa [UInt8.toNat_inj.mp (heq.trans hcr.symm)]
  · have := U.toLower_letter r (by omega) (by omega)
    omega

theorem runes_ascii (h : ∀ b ∈ s, b < 0x80) : runes s = s.map (·.toNat) := by
  induction s with
  | nil => rfl
  | cons b s ih =>
    rw [runes_ascii_cons (h b mem_cons_self), ih fun c hc => h c (mem_cons_of_mem b hc), map_cons]

/-- Within ASCII, a byte of the lower case is that of a byte of the string. -/
theorem exists_of_mem_toLower (h : ∀ b ∈ s, b < 0x80) (hb : b < 0x80) (hmem : b ∈ toLower U s) :
    ∃ c ∈ s, b.toNat = asciiLower c.toNat := by
  obtain ⟨r, hr, hmem⟩ := mem_flatMap.mp hmem
  rw [runes_ascii h] at hr
  obtain ⟨c, hc, rfl⟩ := mem_map.mp hr
  refine ⟨c, hc, ?_⟩
  rw [mem_encodeRune hb hmem, U.toLower_ascii _ (lt_iff_toNat_lt.mp (h c hc))]

end GoText
