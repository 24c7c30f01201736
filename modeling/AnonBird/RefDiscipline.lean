/-
# The discipline of reference counters

A reference counter is to add a key with its first live reference and to remove it with its last,
and to give up for an id exactly the references that were acquired with it.  The ledger keeps the
live references, each with the id that it was acquired with, beside the counter of the code.
-/
import AnonBird.RefCounter

open GoStrings List

namespace RefCounter

variable {κ O : Type} [DecidableEq κ]

/-- An increment counts a reference. -/
def Counter.takes (c : Counter κ O) (key : κ) : AddResult O → Bool
  | .ok _ => true
  | _ => c.count key ≠ 0

/-- A counter with the live references; `misused` tells of an add of an installed key and of a
remove of another. -/
structure Ledger (κ O : Type) where
  counter : Counter κ O := {}
  live : List (Option Bytes × κ) := []
  installed : κ → Bool := fun _ => false
  misused : Bool := false

/-- The calls of a counter, with what `AddFunc` returns. -/
inductive Event (κ O : Type) where
  /-- `Increment`, or `IncrementWithID` with the id of the owner. -/
  | increment (owner : Option Bytes) (key : κ) (added : AddResult O)
  /-- `Decrement` by a caller that has acquired its reference as this owner. -/
  | decrement (owner : Option Bytes) (key : κ)
  | decrementWithID (id : Bytes)

namespace Ledger

section Model

variable (s : Ledger κ O)

/-- The live references to a key. -/
def held (key : κ) : ℕ := s.live.countP (·.2 = key)

/-- The live references to a key that were acquired with an id. -/
def acquired (id : Bytes) (key : κ) : ℕ := s.live.count (some id, key)

/-- The keys that are recorded under an id. -/
def recorded (id : Bytes) : List κ := (get s.counter.idMap id).getD []

/-- The reference that an owner gives up: its own, if it has one. -/
def given (owner : Option Bytes) (key : κ) : Option Bytes × κ :=
  if (owner, key) ∈ s.live then (owner, key) else (s.live.find? (·.2 = key)).getD (owner, key)

/-- A reference is given back; the last one removes the key. -/
def release (owner : Option Bytes) (key : κ) : Ledger κ O :=
  let removes : Bool := s.counter.count key = 1
  { counter := (s.counter.decrement key true).2
    live := s.live.erase (s.given owner key)
    installed := if removes then Function.update s.installed key false else s.installed
    misused := s.misused || removes && !s.installed key }

/-- References of one id are given back. -/
def releaseAll (id : Bytes) (keys : List κ) : Ledger κ O :=
  keys.foldl (fun s key => s.release (some id) key) s

/-- Adds and removes alternate, and a key is installed as long as it has live references. -/
def Disciplined : Prop :=
  s.misused = false ∧
    ∀ key, s.counter.count key = s.held key ∧ (s.installed key = true ↔ 0 < s.held key)

/-- A key is recorded for an id more often than the id has live references to it, and others have
some. -/
def Overdrawn (id : Bytes) : Prop :=
  ∃ key, s.acquired id key < (s.recorded id).count key ∧ s.acquired id key < s.held key

variable [Inhabited O]

/-- A reference is taken; the first one adds the key. -/
def acquire (owner : Option Bytes) (key : κ) (added : AddResult O) : Ledger κ O :=
  let adds := s.counter.count key = 0 && s.counter.takes key added
  { counter := match owner with
      | none => (s.counter.increment key added).2
      | some id => (s.counter.incrementWithID id key added).2
    live := if s.counter.takes key added then (owner, key) :: s.live else s.live
    installed := if adds then Function.update s.installed key true else s.installed
    misused := s.misused || adds && s.installed key }

/-- The ledger after a call. -/
def step : Event κ O → Ledger κ O
  | .increment owner key added => s.acquire owner key added
  | .decrement owner key => s.release owner key
  | .decrementWithID id =>
    { s.releaseAll id (s.recorded id) with counter := s.counter.decrementWithID id fun _ => true }

/-- For an id as many references are given up as were acquired with it. -/
def Exact : Event κ O → Prop
  | .decrementWithID id => ∀ key,
      (s.step (.decrementWithID id)).counter.count key = s.counter.count key - s.acquired id key
  | _ => True

end Model

/-- The ledger after calls from the start. -/
def run [Inhabited O] (es : List (Event κ O)) : Ledger κ O := es.foldl (·.step ·) {}

end Ledger

/-! ## The counter -/

namespace Counter

variable {c : Counter κ O} {n : κ → ℕ}

/-- The entries of a counter; a key without references has none. -/
def Counts (c : Counter κ O) (n : κ → ℕ) : Prop :=
  ∀ key, (get c.refCountMap key).map Ref.count = if n key = 0 then none else some (n key : ℤ)

/-- The count of a key. -/
theorem Counts.count (h : c.Counts n) (key : κ) : c.count key = n key := by
  have hkey := h key
  unfold Counter.count
  cases hget : get c.refCountMap key <;> grind

/-- A reference less. -/
theorem Counts.decrement (h : c.Counts n) (key : κ) :
    (c.decrement key true).2.Counts fun k => n k - if k = key then 1 else 0 := by
  intro k
  have hk := h k
  unfold Counter.decrement
  by_cases hkk : k = key <;> cases hget : get c.refCountMap key <;>
    grind [GoMap.get_set, GoMap.get_erase_self, GoMap.get_erase_of_ne]

theorem idMap_decrement (c : Counter κ O) (key : κ) (removed : Bool) :
    (c.decrement key removed).2.idMap = c.idMap := by
  unfold decrement
  grind

variable [Inhabited O]

/-- A reference more, if it was taken. -/
theorem Counts.increment (h : c.Counts n) (key : κ) (added : AddResult O) :
    (c.increment key added).2.Counts fun k =>
      n k + if k = key ∧ c.takes key added then 1 else 0 := by
  intro k
  have hk := h k
  have hcount := h.count key
  unfold Counter.increment
  by_cases hkk : k = key <;> cases hget : get c.refCountMap key <;> cases added <;>
    grind [GoMap.get_set, takes]

theorem idMap_increment (c : Counter κ O) (key : κ) (added : AddResult O) :
    (c.increment key added).2.idMap = c.idMap := by
  unfold increment
  grind

/-- The id does not change the count. -/
theorem refCountMap_incrementWithID (id : Bytes) (key : κ) (added : AddResult O) :
    (c.incrementWithID id key added).2.refCountMap = (c.increment key added).2.refCountMap := by
  unfold incrementWithID
  grind

/-- A key is recorded for an id with each reference that it takes. -/
theorem recorded_incrementWithID (id : Bytes) (key : κ) (added : AddResult O) :
    (c.incrementWithID id key added).2.idMap = set c.idMap id ((get c.idMap id).getD [] ++ [key]) ∨
      (c.incrementWithID id key added).2.idMap = c.idMap ∧ c.takes key added = false := by
  unfold incrementWithID increment takes count
  cases get c.refCountMap key <;> cases added <;> grind

end Counter

open Ledger

namespace Ledger

variable {s : Ledger κ O}

/-- A reference to the key is given back, a live one if there is one. -/
theorem given_spec (s : Ledger κ O) (owner : Option Bytes) (key : κ) :
    (s.given owner key).2 = key ∧ (0 < s.held key → s.given owner key ∈ s.live) := by
  unfold given held
  rw [countP_pos_iff]
  split
  next hmem =>
    exact ⟨rfl, fun _ => hmem⟩
  · cases hfind : s.live.find? (·.2 = key) with
    | none => exact ⟨rfl, by grind⟩
    | some ref => exact ⟨by grind, fun _ => mem_of_find?_eq_some hfind⟩

/-- A reference less is held. -/
theorem held_release (s : Ledger κ O) (owner : Option Bytes) (key k : κ) :
    (s.release owner key).held k = s.held k - if k = key then 1 else 0 := by
  obtain ⟨hkey, hmem⟩ := s.given_spec owner key
  unfold held release at *
  rw [countP_erase]
  grind

/-- What an id acquired does not grow. -/
theorem acquired_release (s : Ledger κ O) (owner : Option Bytes) (key k : κ) (id : Bytes) :
    (s.release owner key).acquired id k ≤
      s.acquired id k - if owner = some id ∧ k = key then 1 else 0 := by
  unfold acquired release
  unfold given
  grind

/-- The invariant. -/
structure Sound (s : Ledger κ O) : Prop where
  counts : s.counter.Counts s.held
  installed : ∀ key, s.installed key = decide (0 < s.held key)
  misused : s.misused = false
  recorded : ∀ id key, s.acquired id key ≤ (s.recorded id).count key

/-- Giving back keeps the ledger sound. -/
theorem Sound.release (h : s.Sound) (owner : Option Bytes) (key : κ) :
    (s.release owner key).Sound := by
  have hheld := s.held_release owner key
  have hcount := h.counts.count key
  refine ⟨?_, fun k => ?_, ?_, fun id k => ?_⟩
  · rw [funext hheld]
    exact h.counts.decrement key
  · have hk := h.installed k
    rw [hheld]
    simp only [Ledger.release, hcount]
    split
    · rw [Function.update_apply]
      grind
    · grind
  · have hk := h.installed key
    grind [release, h.misused]
  · refine (s.acquired_release owner key k id).trans ((Nat.sub_le _ _).trans ?_)
    rw [Ledger.recorded, Ledger.release, Counter.idMap_decrement]
    exact h.recorded id k

/-- Giving back keeps the ledger sound, reference by reference. -/
theorem Sound.releaseAll (h : s.Sound) (id : Bytes) (keys : List κ) :
    (s.releaseAll id keys).Sound ∧ ∀ k, (s.releaseAll id keys).held k = s.held k - keys.count k ∧
        (s.releaseAll id keys).acquired id k ≤ s.acquired id k - keys.count k := by
  induction keys generalizing s with
  | nil => exact ⟨h, by simp [releaseAll]⟩
  | cons key keys ih =>
    obtain ⟨hsound, hrest⟩ := ih (h.release (some id) key)
    refine ⟨hsound, fun k => ?_⟩
    obtain ⟨hheld, hacquired⟩ := hrest k
    have hacq := s.acquired_release (some id) key k id
    rw [s.held_release] at hheld
    simp only [count_cons, beq_iff_eq, eq_comm (a := key), true_and] at hacq ⊢
    exact ⟨hheld.trans (by omega), hacquired.trans (by omega)⟩

/-- A sound ledger is disciplined. -/
theorem Sound.disciplined (h : s.Sound) : s.Disciplined :=
  ⟨h.misused, fun key => ⟨h.counts.count key, by simp [h.installed key]⟩⟩

theorem counter_releaseAll (s : Ledger κ O) (id : Bytes) (keys : List κ) :
    (s.releaseAll id keys).counter = keys.foldl (fun c key => (c.decrement key true).2) s.counter :=
  (foldl_hom counter fun _ _ => rfl).symm

variable [Inhabited O]

/-- Taking keeps the ledger sound. -/
theorem Sound.acquire (h : s.Sound) (owner : Option Bytes) (key : κ) (added : AddResult O) :
    (s.acquire owner key added).Sound := by
  have hheld : (s.acquire owner key added).held = fun k =>
      s.held k + if k = key ∧ s.counter.takes key added then 1 else 0 := by
    funext k
    unfold held Ledger.acquire
    grind
  have hcount := h.counts.count key
  refine ⟨?_, fun k => ?_, ?_, fun id k => ?_⟩
  · rw [hheld]
    have hinc := h.counts.increment key added
    cases owner with
    | none => exact hinc
    | some id =>
      unfold Counter.Counts at hinc ⊢
      rw [Ledger.acquire, Counter.refCountMap_incrementWithID]
      exact hinc
  · have hk := h.installed k
    rw [hheld]
    simp only [Ledger.acquire, hcount]
    split
    · rw [Function.update_apply]
      grind
    · grind [Counter.takes]
  · have hk := h.installed key
    simp only [Ledger.acquire, h.misused, hk, hcount]
    grind
  · have hrec := h.recorded id k
    unfold Ledger.acquired Ledger.recorded Ledger.acquire at *
    cases owner with
    | none =>
      rw [Counter.idMap_increment]
      grind
    | some id' =>
      obtain hset | ⟨hsame, htakes⟩ := s.counter.recorded_incrementWithID id' key added
      · rw [hset, GoMap.get_set]
        grind
      · rw [hsame, htakes]
        exact hrec

/-- Every call keeps the ledger sound. -/
theorem Sound.step (h : s.Sound) (e : Event κ O) : (s.step e).Sound := by
  cases e with
  | increment owner key added => exact h.acquire owner key added
  | decrement owner key => exact h.release owner key
  | decrementWithID id =>
    obtain ⟨hsound, hall⟩ := h.releaseAll id (s.recorded id)
    refine ⟨?_, hsound.installed, hsound.misused, fun id' k => ?_⟩
    · have hcounts := hsound.counts
      rw [counter_releaseAll] at hcounts
      exact hcounts
    · obtain ⟨-, hacquired⟩ := hall k
      have hrec := hsound.recorded id' k
      have hown := h.recorded id k
      unfold Ledger.recorded at hrec ⊢
      rw [counter_releaseAll] at hrec
      by_cases hid : id' = id
      · subst hid
        exact hacquired.trans (by omega)
      · refine hrec.trans (le_of_eq ?_)
        rw [Ledger.step, Counter.decrementWithID, GoMap.get_erase_of_ne hid]

/-- The ledger is sound along every run. -/
theorem sound_run (es : List (Event κ O)) : (run es).Sound :=
  foldlRecOn es _ ⟨fun _ => rfl, fun _ => rfl, rfl, fun _ _ => le_rfl⟩ fun _ h e _ => h.step e

/-- An id gives back what it took unless it is overdrawn. -/
theorem Sound.exact_iff (h : s.Sound) (id : Bytes) :
    s.Exact (.decrementWithID id) ↔ ¬ s.Overdrawn id := by
  simp only [Exact, Overdrawn, not_exists, (h.step _).counts.count, h.counts.count]
  refine forall_congr' fun key => ?_
  have hheld : (s.step (.decrementWithID id)).held key = _ := ((h.releaseAll id _).2 key).1
  have hacquired : s.acquired id key ≤ s.held key := by
    unfold acquired held
    exact countP_mono_left (by grind)
  have hrecorded := h.recorded id key
  omega

end Ledger

/-- **The discipline of reference counters.** -/
theorem discipline_iff [Inhabited O] (es : List (Event κ O)) : (∀ pre e, pre ++ [e] <+: es →
      (run (pre ++ [e])).Disciplined ∧ (run pre).Exact e) ↔
      ∀ pre id, pre ++ [.decrementWithID id] <+: es → ¬ (run pre).Overdrawn id := by
  constructor
  · intro h pre id hpre
    exact ((sound_run pre).exact_iff id).mp (h pre _ hpre).2
  · intro h pre e hpre
    refine ⟨(sound_run _).disciplined, ?_⟩
    cases e with
    | increment owner key added => trivial
    | decrement owner key => trivial
    | decrementWithID id => exact ((sound_run pre).exact_iff id).mpr (h pre id hpre)

/-- An add is ignored, and the removal for its id gives up the reference of another caller. -/
theorem ignored_key_released : let pre : List (Event ℕ Unit) :=
      [.increment (some [1]) 0 .ignore, .increment none 0 (.ok ())]
    (run pre).acquired [1] 0 = 0 ∧ (run pre).counter.count 0 = 1 ∧
      (run (pre ++ [.decrementWithID [1]])).counter.count 0 = 0 ∧
      (run (pre ++ [.decrementWithID [1]])).installed 0 = false := by
  decide

end RefCounter
