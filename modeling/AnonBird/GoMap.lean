/-
# Go maps as association lists

A Go map is kept as a list of entries, and a read takes the first entry of its key.
Writing a key drops its old entry first, so a map built by a loop holds, for every
key, the value of the last write.
-/
import Mathlib

open List

namespace GoMap

variable {κ ν α : Type*} [DecidableEq κ] (m : List (κ × ν))

/-- `v, ok := m[k]`. -/
def get (k : κ) : Option ν := (m.find? fun e => e.1 = k).map Prod.snd

/-- `delete(m, k)`. -/
def erase (k : κ) : List (κ × ν) := m.filter fun e => e.1 ≠ k

/-- `m[k] = v`. -/
def set (k : κ) (v : ν) : List (κ × ν) := (k, v) :: erase m k

/-- The entries of some keys. -/
theorem get_filter_key (keep : κ → Bool) (m : List (κ × ν)) (k : κ) :
    get (m.filter fun e => keep e.1) k = if keep k then get m k else none := by
  rw [get, List.find?_filter, get]
  split
  · rename_i hk
    congr 2
    funext e
    by_cases he : e.1 = k
    · simp [he, hk]
    · simp [he]
  · rename_i hk
    rw [Option.map_eq_none_iff, List.find?_eq_none]
    intro e _ he
    simp only [decide_eq_true_eq] at he
    exact hk (he.2 ▸ he.1)

variable {m : List (κ × ν)} {k k' : κ} {v : ν}

@[simp] theorem get_set_self : get (set m k v) k = some v := by
  simp [get, set]

@[simp] theorem get_erase_self : get (erase m k) k = none := by
  simp [get, erase]

theorem get_erase_of_ne (h : k' ≠ k) : get (erase m k) k' = get m k' :=
  (get_filter_key (· ≠ k) m k').trans (if_pos (decide_eq_true h))

theorem get_set_of_ne (h : k' ≠ k) : get (set m k v) k' = get m k' := by
  have hk : ¬ k = k' := fun hc => h hc.symm
  rw [← get_erase_of_ne (m := m) h, get, set, List.find?_cons_of_neg (by simpa using hk), get]

/-- What a map holds after an entry is set. -/
theorem get_set (m : List (κ × ν)) (k k' : κ) (v : ν) :
    get (set m k v) k' = if k' = k then some v else get m k' := by
  by_cases h : k' = k
  · rw [if_pos h, h, get_set_self]
  · rw [if_neg h, get_set_of_ne h]

/-- What is left was there before. -/
theorem get_of_get_erase {k' : κ} (h : get (erase m k) k' = some v) :
    k' ≠ k ∧ get m k' = some v := by
  by_cases hk : k' = k
  · rw [hk, get_erase_self] at h
    cases h
  · exact ⟨hk, (get_erase_of_ne hk).symm.trans h⟩

theorem get_drop_of_none (h : get m k = none) (n : ℕ) : get (m.drop n) k = none := by
  rw [get, Option.map_eq_none_iff, List.find?_eq_none] at h ⊢
  intro e he
  exact h e (mem_of_mem_drop he)

/-- The map that a loop over `xs` writes, with key `key x` and value `val x`. -/
def build (key : α → κ) (val : α → ν) (xs : List α) : List (κ × ν) :=
  xs.foldl (fun m x => set m (key x) (val x)) []

variable (key : α → κ) (val : α → ν) (xs : List α)

/-- The last turn of the loop with a key decides. -/
theorem get_build_eq_getLast? (k : κ) :
    get (build key val xs) k = ((xs.filter fun x => key x = k).getLast?).map val := by
  unfold build
  induction xs using reverseRecOn with
  | nil => rfl
  | append_singleton xs x ih =>
    rw [foldl_concat, get_set, filter_append]
    by_cases hx : key x = k
    · rw [if_pos hx.symm]
      simp [hx]
    · rw [if_neg fun h => hx h.symm, ih]
      simp [hx]

/-- Every element is found under its key. -/
theorem exists_get_build {xs : List α} {x : α} (h : x ∈ xs) :
    ∃ v, get (build key val xs) (key x) = some v := by
  have hmem : x ∈ xs.filter fun y => key y = key x := by simp [h]
  rw [get_build_eq_getLast?, getLast?_eq_some_getLast (ne_nil_of_mem hmem)]
  exact ⟨_, rfl⟩

/-- A key that the map has was written by a turn of the loop, with its value. -/
theorem exists_of_get_build {key : α → κ} {val : α → ν} {xs : List α}
    (h : get (build key val xs) k = some v) : ∃ x ∈ xs, key x = k ∧ val x = v := by
  rw [get_build_eq_getLast?] at h
  obtain ⟨x, hx, hval⟩ := Option.map_eq_some_iff.mp h
  have hmem := mem_filter.mp (mem_of_getLast? hx)
  exact ⟨x, hmem.1, of_decide_eq_true hmem.2, hval⟩

/-- A key under which all elements have one value. -/
theorem get_build (k : κ) (v : ν) (hmem : ∃ x ∈ xs, key x = k)
    (hval : ∀ x ∈ xs, key x = k → val x = v) :
    get (build key val xs) k = some v := by
  obtain ⟨x, hx, rfl⟩ := hmem
  obtain ⟨v', hv'⟩ := exists_get_build key val hx
  obtain ⟨y, hy, hkey, rfl⟩ := exists_of_get_build hv'
  rw [hv', hval y hy hkey]

/-! ## Keys and loops of writes -/

/-- The keys of a map. -/
def keys (m : List (κ × ν)) : List κ := m.map Prod.fst

/-- The keys are those with a value. -/
theorem mem_keys : k ∈ keys m ↔ ∃ v, get m k = some v := by
  constructor
  · intro h
    obtain ⟨e, he, hk⟩ := mem_map.mp h
    have hfound : (m.find? fun e => e.1 = k).isSome := by
      rw [List.find?_isSome]
      exact ⟨e, he, by simpa using hk⟩
    obtain ⟨e', he'⟩ := Option.isSome_iff_exists.mp hfound
    exact ⟨e'.2, by rw [get, he', Option.map_some]⟩
  · rintro ⟨v, h⟩
    obtain ⟨e, he, -⟩ := Option.map_eq_some_iff.mp h
    have hk : e.1 = k := by simpa using List.find?_some he
    exact mem_map.mpr ⟨e, mem_of_find?_eq_some he, hk⟩

theorem mem_of_get (h : get m k = some v) : (k, v) ∈ m := by
  obtain ⟨e, he, hv⟩ := Option.map_eq_some_iff.mp h
  have hk : e.1 = k := by simpa using List.find?_some he
  have hmem := mem_of_find?_eq_some he
  rw [← hk, ← hv]
  exact hmem

theorem mem_set {e : κ × ν} : e ∈ set m k v ↔ e = (k, v) ∨ e ∈ m ∧ e.1 ≠ k := by
  simp [set, erase]

/-- A value found after an entry is set. -/
theorem get_set_eq_some {m : List (κ × ν)} {k k' : κ} {v v' : ν} :
    get (set m k v) k' = some v' ↔ k' = k ∧ v = v' ∨ k' ≠ k ∧ get m k' = some v' := by
  rw [get_set]
  split <;> simp [*]

theorem exists_get_set_iff {P : κ → Prop} : (∃ k' v', get (set m k v) k' = some v' ∧ P k') ↔
    P k ∨ ∃ k' v', get m k' = some v' ∧ P k' := by
  constructor
  · rintro ⟨k', v', hget, hP⟩
    obtain ⟨rfl, -⟩ | ⟨-, hget⟩ := get_set_eq_some.mp hget
    · exact .inl hP
    · exact .inr ⟨k', v', hget, hP⟩
  · rintro (hP | ⟨k', v', hget, hP⟩)
    · exact ⟨k, v, get_set_self, hP⟩
    · by_cases hk : k' = k
      · exact ⟨k, v, get_set_self, hk ▸ hP⟩
      · exact ⟨k', v', (get_set_of_ne hk).trans hget, hP⟩

/-- `for _, k := range ks { m[k] = f(k) }`. -/
def setAll (f : κ → ν) (m : List (κ × ν)) (ks : List κ) : List (κ × ν) :=
  ks.foldl (fun m k => set m k (f k)) m

/-- What a map holds after entries are set. -/
theorem get_setAll (f : κ → ν) (ks : List κ) (m : List (κ × ν)) (k : κ) :
    get (setAll f m ks) k = if k ∈ ks then some (f k) else get m k := by
  induction ks generalizing m with
  | nil => simp [setAll]
  | cons x ks ih =>
    rw [setAll, foldl_cons]
    have htail := ih (set m x (f x))
    rw [setAll] at htail
    rw [htail, get_set]
    by_cases hks : k ∈ ks
    · simp [hks]
    · by_cases hx : k = x
      · simp [hx]
      · simp [hks, hx]

/-- The map is a function restricted to some keys. -/
def Restricts (f : κ → ν) (m : List (κ × ν)) (K : κ → Prop) : Prop :=
  ∀ k v, get m k = some v ↔ v = f k ∧ K k

variable {f : κ → ν} {K : κ → Prop}

/-- More keys are copied. -/
theorem Restricts.setAll (h : Restricts f m K) (ks : List κ) :
    Restricts f (setAll f m ks) fun k => K k ∨ k ∈ ks := by
  intro k v
  rw [get_setAll]
  by_cases hk : k ∈ ks
  · rw [if_pos hk]
    constructor
    · intro hv
      exact ⟨(Option.some.inj hv).symm, .inr hk⟩
    · rintro ⟨rfl, -⟩
      rfl
  · rw [if_neg hk, h k v]
    tauto

theorem Restricts.congr {K' : κ → Prop} (h : Restricts f m K) (hK : ∀ k, K k ↔ K' k) :
    Restricts f m K' := by
  intro k v
  rw [h k v, hK k]

/-! ## Iteration -/

/-- The order in which `range` visits the keys of a map.  Go leaves it open: what is said of a
program is said for every such order. -/
structure RangeOrder (κ : Type*) where
  order : List κ → List κ
  perm : ∀ ks, (order ks).Perm ks

/-- The order in which the entries are kept. -/
def RangeOrder.kept : RangeOrder κ := ⟨id, fun ks => .refl ks⟩

omit [DecidableEq κ] in
@[simp] theorem RangeOrder.mem_order (ord : RangeOrder κ) {ks : List κ} :
    k ∈ ord.order ks ↔ k ∈ ks := (ord.perm ks).mem_iff

/-- `for k, v := range m`. -/
def range (ord : RangeOrder κ) (m : List (κ × ν)) : List (κ × ν) :=
  (ord.order (keys m)).filterMap fun k => (get m k).map fun v => (k, v)

/-- A loop over a map visits its entries. -/
@[simp] theorem mem_range {ord : RangeOrder κ} : (k, v) ∈ range ord m ↔ get m k = some v := by
  rw [range, mem_filterMap]
  constructor
  · rintro ⟨k', -, h⟩
    obtain ⟨v', hv', he⟩ := Option.map_eq_some_iff.mp h
    cases he
    exact hv'
  · intro h
    exact ⟨k, ord.mem_order.mpr (mem_keys.mpr ⟨v, h⟩), by rw [h, Option.map_some]⟩

theorem mem_range_fst {ord : RangeOrder κ} : k ∈ (range ord m).map Prod.fst ↔ (get m k).isSome := by
  simp only [mem_map, Prod.exists, mem_range, exists_and_right, exists_eq_right,
    Option.isSome_iff_exists]

/-- The entries that a read can see, for a loop whose result does not depend on its order. -/
def entries (m : List (κ × ν)) : List (κ × ν) := range RangeOrder.kept m

@[simp] theorem mem_entries : (k, v) ∈ entries m ↔ get m k = some v := mem_range

variable {μ : Type*}

/-- A loop over a map that rewrites each entry or deletes it. -/
def mapEntries (f : κ → ν → Option μ) (m : List (κ × ν)) : List (κ × μ) :=
  (entries m).filterMap fun e => (f e.1 e.2).map fun v => (e.1, v)

theorem get_eq_some_of_unique (hmem : (k, v) ∈ m) (huniq : ∀ v', (k, v') ∈ m → v' = v) :
    get m k = some v := by
  obtain ⟨v', hv'⟩ := mem_keys.mp (mem_map.mpr ⟨(k, v), hmem, rfl⟩)
  rw [hv', huniq v' (mem_of_get hv')]

/-- The entries that are kept and changed. -/
theorem mem_mapEntries {f : κ → ν → Option μ} {w : μ} :
    (k, w) ∈ mapEntries f m ↔ ∃ v, get m k = some v ∧ f k v = some w := by
  rw [mapEntries, mem_filterMap]
  constructor
  · rintro ⟨⟨k', v⟩, hmem, h⟩
    obtain ⟨w', hw', he⟩ := Option.map_eq_some_iff.mp h
    cases he
    exact ⟨v, mem_entries.mp hmem, hw'⟩
  · rintro ⟨v, hv, hw⟩
    exact ⟨(k, v), mem_entries.mpr hv, by rw [hw, Option.map_some]⟩

/-- The value that a kept entry gets. -/
theorem get_mapEntries (f : κ → ν → Option μ) (m : List (κ × ν)) (k : κ) :
    get (mapEntries f m) k = (get m k).bind (f k) := by
  cases hg : (get m k).bind (f k) with
  | some w =>
    obtain ⟨v, hv, hw⟩ := Option.bind_eq_some_iff.mp hg
    apply get_eq_some_of_unique (mem_mapEntries.mpr ⟨v, hv, hw⟩)
    intro w' hw'
    obtain ⟨v', hv', hfw'⟩ := mem_mapEntries.mp hw'
    rw [hv] at hv'
    cases hv'
    exact Option.some.inj (hfw'.symm.trans hw)
  | none =>
    cases hr : get (mapEntries f m) k with
    | none => rfl
    | some w =>
      obtain ⟨v, hv, hw⟩ := mem_mapEntries.mp (mem_of_get hr)
      rw [hv, Option.bind_some, hw] at hg
      exact absurd hg (Option.some_ne_none w)

/-! ## Rewriting values and dropping keys -/

/-- The map with every value rewritten. -/
def mapValues (f : ν → μ) (m : List (κ × ν)) : List (κ × μ) := m.map fun e => (e.1, f e.2)

/-- The value that an entry gets. -/
theorem get_mapValues (f : ν → μ) (m : List (κ × ν)) (k : κ) :
    get (mapValues f m) k = (get m k).map f := by
  rw [get, mapValues, List.find?_map, get, Option.map_map, Option.map_map]
  rfl

/-- A loop over changed values. -/
theorem range_mapValues (ord : RangeOrder κ) (f : ν → μ) (m : List (κ × ν)) :
    range ord (mapValues f m) = (range ord m).map fun e => (e.1, f e.2) := by
  have hkeys : keys (mapValues f m) = keys m := by
    rw [keys, mapValues, map_map, keys]
    rfl
  rw [range, range, hkeys, map_filterMap]
  congr 1
  funext k
  rw [get_mapValues]
  cases get m k <;> rfl

theorem erase_mapValues (f : ν → μ) (m : List (κ × ν)) (k : κ) :
    erase (mapValues f m) k = mapValues f (erase m k) := by
  rw [mapValues, erase, filter_map, mapValues, erase]
  rfl

theorem set_mapValues (f : ν → μ) (m : List (κ × ν)) (k : κ) (v : ν) :
    set (mapValues f m) k (f v) = mapValues f (set m k v) := by
  rw [set, erase_mapValues, set]
  rfl

theorem mapEntries_mapValues {μ' : Type*} (f : ν → μ) (g : κ → μ → Option μ') (m : List (κ × ν)) :
    mapEntries g (mapValues f m) = mapEntries (fun k v => g k (f v)) m := by
  rw [mapEntries, entries, range_mapValues, filterMap_map, mapEntries, entries]
  rfl

theorem mapValues_mapEntries {μ' : Type*} (f : μ → μ') (g : κ → ν → Option μ) (m : List (κ × ν)) :
    mapValues f (mapEntries g m) = mapEntries (fun k v => (g k v).map f) m := by
  rw [mapValues, mapEntries, map_filterMap, mapEntries]
  congr 1
  funext e
  rw [Option.map_map, Option.map_map]
  rfl

theorem build_map (f : ν → μ) (key : α → κ) (val : α → ν) (xs : List α) :
    build key (fun x => f (val x)) xs = mapValues f (build key val xs) := by
  unfold build
  induction xs using reverseRecOn with
  | nil => rfl
  | append_singleton xs x ih =>
    rw [foldl_concat, ih, set_mapValues, foldl_concat]

/-! ## Maps with one entry for each key -/

omit [DecidableEq κ] in
theorem nodup_keys_filter (h : (keys m).Nodup) (keep : κ × ν → Bool) :
    (keys (m.filter keep)).Nodup :=
  h.sublist (filter_sublist.map Prod.fst)

theorem nodup_keys_set (h : (keys m).Nodup) (k : κ) (v : ν) : (keys (set m k v)).Nodup := by
  rw [set, keys, map_cons, nodup_cons]
  refine ⟨?_, nodup_keys_filter h _⟩
  simp [erase]

theorem nodup_keys_build :
    (keys (build key val xs)).Nodup :=
  foldlRecOn (motive := fun m => (keys m).Nodup) xs _ nodup_nil fun _ h _ _ => nodup_keys_set h _ _

omit [DecidableEq κ] in
/-- A loop that makes at most one entry from each element keeps the order of their keys. -/
theorem keys_filterMap_sublist (f : α → Option ν) (xs : List α) :
    List.Sublist (keys (xs.filterMap fun x => (f x).map fun v => (key x, v))) (xs.map key) := by
  induction xs with
  | nil => exact List.Sublist.refl []
  | cons x xs ih =>
    rw [filterMap_cons, map_cons]
    cases f x with
    | none => exact ih.cons (key x)
    | some v => exact ih.cons_cons (key x)

theorem nodup_keys_range (h : (keys m).Nodup) (ord : RangeOrder κ) :
    (keys (range ord m)).Nodup := by
  have hsub := keys_filterMap_sublist id (get m) (ord.order (keys m))
  rw [List.map_id] at hsub
  exact ((ord.perm _).nodup_iff.mpr h).sublist hsub

theorem nodup_keys_mapEntries (h : (keys m).Nodup) (f : κ → ν → Option μ) :
    (keys (mapEntries f m)).Nodup :=
  (nodup_keys_range h RangeOrder.kept).sublist
    (keys_filterMap_sublist Prod.fst (fun e : κ × ν => f e.1 e.2) (entries m))

/-- With distinct keys every entry is found. -/
theorem get_of_mem (h : (keys m).Nodup) (hmem : (k, v) ∈ m) : get m k = some v := by
  refine get_eq_some_of_unique hmem fun v' hv' => ?_
  have hinj := inj_on_of_nodup_map h hv' hmem rfl
  exact (Prod.mk.inj hinj).2

/-- A loop over a map visits each entry once. -/
theorem range_perm (h : (keys m).Nodup) (ord : RangeOrder κ) : (range ord m).Perm m := by
  refine (perm_ext_iff_of_nodup (nodup_keys_range h ord).of_map h.of_map).mpr ?_
  rintro ⟨k, v⟩
  rw [mem_range]
  exact ⟨mem_of_get, get_of_mem h⟩

theorem erase_of_get_none (h : get m k = none) : erase m k = m := by
  refine filter_eq_self.mpr fun e he => ?_
  rw [get, Option.map_eq_none_iff, List.find?_eq_none] at h
  simpa using h e he

/-- Counting entries, one of them taken out. -/
theorem countP_erase (h : (keys m).Nodup) (hget : get m k = some v) (P : κ × ν → Bool) :
    m.countP P = (erase m k).countP P + if P (k, v) then 1 else 0 := by
  induction m with
  | nil => cases hget
  | cons e m ih =>
    rw [keys, map_cons, nodup_cons] at h
    by_cases he : e.1 = k
    · have hkept : erase (e :: m) k = m := by
        subst he
        rw [erase, filter_cons_of_neg (by simp), filter_eq_self]
        intro e' he'
        have hne : e'.1 ≠ e.1 := fun hc => h.1 (hc ▸ mem_map_of_mem he')
        simp [hne]
      have hv : e = (k, v) := by
        simp [get, he] at hget
        exact Prod.ext he hget
      rw [hkept, hv, countP_cons]
    · have hget' : get m k = some v := by
        simpa [get, he] using hget
      rw [erase, filter_cons_of_pos (by simpa using he), countP_cons, countP_cons,
        ih h.2 hget', erase]
      omega

end GoMap
