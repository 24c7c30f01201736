/-
# Reference counters

Model of `client/internal/routemanager/refcounter/refcounter.go`: the counter calls its add function
for the first reference to a key and its remove function for the last.  What these functions return
is an argument of the calls.
-/
import AnonBird.GoMap
import AnonBird.GoStrings

open GoStrings

namespace RefCounter

export GoMap (get set)

/-- A count, and what was added with the first reference. -/
structure Ref (O : Type) where
  count : ℤ
  out : O

/-- What `AddFunc` returns; `ignore` stands for `ErrIgnore`. -/
inductive AddResult (O : Type) where
  | ok (out : O)
  | ignore
  | error
  deriving DecidableEq

/-- `Counter`: the counts, and the keys under each id. -/
structure Counter (κ O : Type) where
  refCountMap : List (κ × Ref O) := []
  idMap : List (Bytes × List κ) := []

open GoMap

namespace Counter

variable {κ O : Type} [DecidableEq κ]

/-- The count of a key. -/
def count (c : Counter κ O) (key : κ) : ℤ :=
  match get c.refCountMap key with
  | none => 0
  | some ref => ref.count

/-- `increment`; without a result there is an error. -/
def increment [Inhabited O] (c : Counter κ O) (key : κ) (added : AddResult O) :
    Option (Ref O) × Counter κ O :=
  let ref := (get c.refCountMap key).getD ⟨0, default⟩
  if ref.count = 0 then
    match added with
    | .ignore => (some ref, c)
    | .error => (none, c)
    | .ok out =>
      let ref : Ref O := ⟨ref.count + 1, out⟩
      (some ref, { c with refCountMap := set c.refCountMap key ref })
  else
    let ref := { ref with count := ref.count + 1 }
    (some ref, { c with refCountMap := set c.refCountMap key ref })

/-- A reference is taken and its key recorded under an id. -/
def incrementWithID [Inhabited O] (c : Counter κ O) (id : Bytes) (key : κ)
    (added : AddResult O) : Option (Ref O) × Counter κ O :=
  match c.increment key added with
  | (none, c) => (none, c)
  | (some ref, c) =>
    (some ref, { c with idMap := set c.idMap id ((get c.idMap id).getD [] ++ [key]) })

/-- `decrement`; `removed` says whether `RemoveFunc` succeeds. -/
def decrement (c : Counter κ O) (key : κ) (removed : Bool) : Bool × Counter κ O :=
  match get c.refCountMap key with
  | none => (true, c)
  | some ref =>
    if ref.count = 1 then
      if removed then (true, { c with refCountMap := erase c.refCountMap key })
      else (false, c)
    else
      let ref := { ref with count := ref.count - 1 }
      (true, { c with refCountMap := set c.refCountMap key ref })

/-- The references under an id are given back. -/
def decrementWithID (c : Counter κ O) (id : Bytes) (removed : κ → Bool) : Counter κ O :=
  let c := ((get c.idMap id).getD []).foldl (fun c key => (c.decrement key (removed key)).2) c
  { c with idMap := erase c.idMap id }

theorem count_increment_self [Inhabited O] (c : Counter κ O) (key : κ) (added : AddResult O) :
    (c.increment key added).2.count key = c.count key ∨
      (c.increment key added).2.count key = c.count key + 1 := by
  have hcount : c.count key = ((get c.refCountMap key).getD ⟨0, default⟩).count := by
    unfold count
    cases get c.refCountMap key <;> rfl
  unfold increment
  dsimp only
  split
  · split
    · exact .inl rfl
    · exact .inl rfl
    · right
      rw [count, get_set_self, hcount]
  · right
    rw [count, get_set_self, hcount]

theorem count_decrement_self (c : Counter κ O) (key : κ) (removed : Bool) :
    (c.decrement key removed).2.count key = c.count key ∨
      (c.decrement key removed).2.count key = c.count key - 1 := by
  unfold decrement
  split
  · exact .inl rfl
  next ref href =>
    have hcount : c.count key = ref.count := by
      rw [count, href]
    split
    next hone =>
      split
      · right
        rw [count, get_erase_self, hcount, hone]
        rfl
      · exact .inl rfl
    · right
      rw [count, get_set_self, hcount]

/-- A reference is taken if there is one, or if the add function succeeds. -/
theorem count_increment_ne_iff [Inhabited O] (c : Counter κ O) (key : κ) (added : AddResult O) :
    (c.increment key added).2.count key ≠ c.count key ↔
      c.count key ≠ 0 ∨ ∃ out, added = .ok out := by
  have hcount : c.count key = ((get c.refCountMap key).getD ⟨0, default⟩).count := by
    unfold count
    cases get c.refCountMap key <;> rfl
  unfold increment
  dsimp only
  rw [hcount]
  split
  next hzero =>
    cases added with
    | ignore => simp [hzero, hcount]
    | error => simp [hzero, hcount]
    | ok out => simp [hzero, count]
  next hne => simp [hne, count]

/-- Only the add function makes an increment fail. -/
theorem of_increment_eq_none [Inhabited O] {c : Counter κ O} {key : κ} {added : AddResult O}
    (h : (c.increment key added).1 = none) : c.count key = 0 ∧ added = .error := by
  have hcount : c.count key = ((get c.refCountMap key).getD ⟨0, default⟩).count := by
    unfold count
    cases get c.refCountMap key <;> rfl
  unfold increment at h
  dsimp only at h
  split at h
  next hzero =>
    cases added with
    | error => exact ⟨hcount.trans hzero, rfl⟩
    | ignore => cases h
    | ok out => cases h
  · cases h

/-- A reference is released if there is one, and the last one if the remove function succeeds. -/
theorem count_decrement_ne_iff (c : Counter κ O) (key : κ) (removed : Bool) :
    (c.decrement key removed).2.count key ≠ c.count key ↔
      ∃ ref, get c.refCountMap key = some ref ∧ (ref.count = 1 → removed = true) := by
  unfold decrement
  cases hget : get c.refCountMap key with
  | none => simp
  | some ref =>
    by_cases hone : ref.count = 1
    · cases removed with
      | false => simp [hone]
      | true => simp [hone, count, hget]
    · simp [hone, count, hget]

end Counter

end RefCounter
