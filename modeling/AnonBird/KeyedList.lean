/-
# Ordered lists with keys

A list whose elements have keys is read from left to right, so its order counts.  `put` replaces
the first element with the key of the new one in its place and appends the new one if there is
none.  After some puts the keys of a list are its old keys, then the new ones in the order of
their first put (`map_key_putAll`), so that a list and the empty one end up the same exactly if the
old keys are the first ones to be put (`putAll_eq_iff`).
-/
import Mathlib

open List

namespace KeyedList

variable {α κ : Type*} [DecidableEq κ] (key : α → κ)

/-- Replaces the first element with the key of `a`, or appends `a`. -/
def put (a : α) : List α → List α
  | [] => [a]
  | b :: l => if key b = key a then a :: l else b :: put a l

/-- Puts some elements one after the other. -/
def putAll (l : List α) (as : List α) : List α := as.foldl (fun l a => put key a l) l

variable {key}

/-- The last value is put last. -/
theorem putAll_concat (l as : List α) (a : α) :
    putAll key l (as ++ [a]) = put key a (putAll key l as) :=
  foldl_concat ..

/-- A value that is put is there. -/
theorem put_ne_nil (a : α) (l : List α) : put key a l ≠ [] := by
  unfold put
  grind

/-- The list is empty if nothing was put. -/
theorem putAll_eq_nil_iff {as : List α} : putAll key [] as = [] ↔ as = [] := by
  constructor
  · intro h
    rcases eq_nil_or_concat as with rfl | ⟨as, a, rfl⟩
    · rfl
    · rw [concat_eq_append, putAll_concat] at h
      exact absurd h (put_ne_nil a _)
  · rintro rfl
    rfl

/-- The keys after one put. -/
theorem map_key_put (a : α) (l : List α) :
    (put key a l).map key = if key a ∈ l.map key then l.map key else l.map key ++ [key a] := by
  induction l with
  | nil => rfl
  | cons b l ih =>
    unfold put
    by_cases hb : key b = key a
    · simp [hb]
    · rw [if_neg hb, map_cons, ih, map_cons]
      have ha : key a ∈ key b :: l.map key ↔ key a ∈ l.map key := by
        rw [mem_cons, or_iff_right (Ne.symm hb)]
      by_cases hmem : key a ∈ l.map key
      · rw [if_pos hmem, if_pos (ha.mpr hmem)]
      · rw [if_neg hmem, if_neg (mt ha.mp hmem), cons_append]

/-- Keys stay distinct. -/
theorem nodup_put {l : List α} (h : (l.map key).Nodup) (a : α) :
    ((put key a l).map key).Nodup := by
  rw [map_key_put]
  split
  · exact h
  next ha => simpa using h.concat ha

/-- The elements after one put. -/
theorem mem_put {l : List α} (h : (l.map key).Nodup) {a b : α} :
    b ∈ put key a l ↔ b = a ∨ b ∈ l ∧ key b ≠ key a := by
  induction l with
  | nil => simp [put]
  | cons c l ih =>
    rw [map_cons, nodup_cons] at h
    unfold put
    by_cases hc : key c = key a
    · rw [if_pos hc, mem_cons, mem_cons]
      have hrest : b ∈ l → key b ≠ key a := fun hb hk =>
        h.1 (mem_map.mpr ⟨b, hb, hk.trans hc.symm⟩)
      grind
    · rw [if_neg hc, mem_cons, ih h.2, mem_cons]
      grind

/-- A put keeps what has other keys, in order. -/
theorem filter_put (a : α) (l : List α) :
    (put key a l).filter (key · ≠ key a) = l.filter (key · ≠ key a) := by
  induction l with
  | nil => simp [put]
  | cons b l ih =>
    unfold put
    by_cases hb : key b = key a
    · simp [hb]
    · rw [if_neg hb, filter_cons, filter_cons, ih]

/-- Elements with other keys may be dropped before a put. -/
theorem filter_put_comm {keep : κ → Bool} {a : α} (ha : keep (key a) = true) (l : List α) :
    (put key a l).filter (fun b => keep (key b)) =
      put key a (l.filter fun b => keep (key b)) := by
  induction l with
  | nil => simp [put, ha]
  | cons b l ih =>
    by_cases hb : key b = key a
    · have hkeep : keep (key b) = true := hb ▸ ha
      simp [put, hb, ha]
    · by_cases hkeep : keep (key b) = true
      · simp [put, hb, hkeep, ih]
      · simp [put, hb, hkeep, ih]

/-- Values of kept keys can be put after the others are dropped. -/
theorem filter_putAll_comm (keep : κ → Bool) {as : List α}
    (has : ∀ a ∈ as, keep (key a) = true) (l : List α) :
    (putAll key l as).filter (fun b => keep (key b)) =
      putAll key (l.filter fun b => keep (key b)) as := by
  induction as using reverseRecOn with
  | nil => rfl
  | append_singleton as a ih =>
    rw [putAll_concat, putAll_concat, filter_put_comm (has a (by simp)),
      ih fun b hb => has b (mem_append_left _ hb)]

theorem nodup_putAll {l : List α} (h : (l.map key).Nodup) (as : List α) :
    ((putAll key l as).map key).Nodup := by
  induction as using reverseRecOn with
  | nil => exact h
  | append_singleton as a ih =>
    rw [putAll_concat]
    exact nodup_put ih a

/-- The elements after some puts: the last one that was put with a key, or the old one. -/
theorem mem_putAll {l : List α} (h : (l.map key).Nodup) (as : List α) {b : α} :
    b ∈ putAll key l as ↔
      (∃ pre post, as = pre ++ b :: post ∧ key b ∉ post.map key) ∨
        b ∈ l ∧ key b ∉ as.map key := by
  induction as using reverseRecOn with
  | nil => simp [putAll]
  | append_singleton as a ih =>
    rw [putAll_concat, mem_put (nodup_putAll h as), ih]
    constructor
    · rintro (rfl | ⟨⟨pre, post, rfl, hpost⟩ | ⟨hb, has⟩, hne⟩)
      · exact .inl ⟨as, [], rfl, not_mem_nil⟩
      · exact .inl ⟨pre, post ++ [a], by simp, by simpa [hne] using hpost⟩
      · exact .inr ⟨hb, by simpa [hne] using has⟩
    · rintro (⟨pre, post, heq, hpost⟩ | ⟨hb, has⟩)
      · rcases eq_nil_or_concat post with rfl | ⟨post, c, rfl⟩
        · rw [← concat_eq_append, ← concat_eq_append] at heq
          exact .inl (concat_inj.mp heq).2.symm
        · obtain ⟨rfl, hc⟩ : as = pre ++ b :: post ∧ a = c := by
            have : as ++ [a] = (pre ++ b :: post) ++ [c] := by simp [heq]
            simpa using append_inj' this rfl
          subst hc
          rw [concat_eq_append, map_append, mem_append, not_or] at hpost
          exact .inr ⟨.inl ⟨pre, post, rfl, hpost.1⟩, by simpa using hpost.2⟩
      · rw [map_append, mem_append, not_or] at has
        exact .inr ⟨.inr ⟨hb, has.1⟩, by simpa using has.2⟩

omit [DecidableEq κ] in
/-- A list is determined by its keys, in order, and by its element for each key. -/
theorem ext_of_keys (key : α → κ) {l l' : List α} (hkeys : l.map key = l'.map key)
    (h : ∀ a ∈ l, ∀ b ∈ l', key a = key b → a = b) : l = l' := by
  induction l generalizing l' with
  | nil =>
    rw [map_nil] at hkeys
    exact (map_eq_nil_iff.mp hkeys.symm).symm
  | cons a l ih =>
    cases l' with
    | nil => cases hkeys
    | cons b l' =>
      rw [map_cons, map_cons, cons.injEq] at hkeys
      rw [h a (mem_cons_self ..) b (mem_cons_self ..) hkeys.1, ih hkeys.2]
      intro a' ha' b' hb'
      exact h a' (mem_cons_of_mem _ ha') b' (mem_cons_of_mem _ hb')

variable [BEq κ] [LawfulBEq κ]

omit [DecidableEq κ] in
theorem eraseDups_concat (ks : List κ) (k : κ) :
    (ks ++ [k]).eraseDups = if k ∈ ks then ks.eraseDups else ks.eraseDups ++ [k] := by
  rw [eraseDups_append]
  by_cases hk : k ∈ ks
  · simp [removeAll, hk]
  · simp [removeAll, hk, eraseDups_cons]

omit [DecidableEq κ] in
theorem nodup_eraseDups (ks : List κ) : ks.eraseDups.Nodup := by
  induction ks using reverseRecOn with
  | nil => simp
  | append_singleton ks k ih =>
    rw [eraseDups_concat]
    split
    · exact ih
    next hk => simpa using ih.concat (by simpa using hk)

/-- The keys after some puts. -/
theorem map_key_putAll (l as : List α) :
    (putAll key l as).map key =
      l.map key ++ (as.map key).eraseDups.filter (· ∉ l.map key) := by
  induction as using reverseRecOn with
  | nil => simp [putAll]
  | append_singleton as a ih =>
    rw [putAll_concat, map_key_put, ih, map_append, map_singleton, eraseDups_concat]
    have hmem : key a ∈ l.map key ++ (as.map key).eraseDups.filter (· ∉ l.map key) ↔
        key a ∈ l.map key ∨ key a ∈ as.map key := by
      simp only [mem_append, mem_filter, mem_eraseDups, decide_eq_true_eq]
      tauto
    by_cases has : key a ∈ as.map key
    · rw [if_pos (hmem.mpr (.inr has)), if_pos has]
    · rw [if_neg has, filter_append]
      by_cases hl : key a ∈ l.map key
      · rw [if_pos (hmem.mpr (.inl hl)), filter_cons_of_neg (by simpa using hl), filter_nil,
          append_nil]
      · rw [if_neg (mt hmem.mp (not_or.mpr ⟨hl, has⟩)), filter_cons_of_pos (by simpa using hl),
          filter_nil, append_assoc]

/-- **Some puts forget what was there before** exactly if the old keys are the first ones that are
put, in the same order. -/
theorem putAll_eq_iff {l : List α} (h : (l.map key).Nodup) (as : List α) :
    putAll key l as = putAll key [] as ↔ l.map key <+: (as.map key).eraseDups := by
  have hkeys : (putAll key l as).map key = _ := map_key_putAll l as
  have hfresh : (putAll key [] as).map key = (as.map key).eraseDups := by
    rw [map_key_putAll]
    simp
  constructor
  · intro heq
    rw [← hfresh, ← heq, hkeys]
    exact prefix_append ..
  · rintro ⟨rest, hrest⟩
    have hdisjoint : ∀ k ∈ rest, k ∉ l.map key := by
      have hnodup : (l.map key ++ rest).Nodup := hrest ▸ nodup_eraseDups _
      exact fun k hk hl => (nodup_append.mp hnodup).2.2 k hl k hk rfl
    have hlast : (as.map key).eraseDups.filter (· ∉ l.map key) = rest := by
      rw [← hrest, filter_append, filter_eq_nil_iff.mpr, nil_append, filter_eq_self.mpr]
      · simpa using hdisjoint
      · simp
    have hput : ∀ k ∈ l.map key, k ∈ as.map key := by
      intro k hk
      rw [← mem_eraseDups, ← hrest]
      exact mem_append_left _ hk
    apply ext_of_keys key
    · rw [hkeys, hlast, hrest, hfresh]
    · intro a ha b hb hab
      have hb' : b ∈ putAll key l as := by
        rw [mem_putAll h]
        rw [mem_putAll (by simp)] at hb
        exact .inl (hb.resolve_right fun hnil => not_mem_nil hnil.1)
      exact inj_on_of_nodup_map (nodup_putAll h as) ha hb' hab

end KeyedList
