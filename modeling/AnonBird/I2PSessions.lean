/-
# No session is leaked or duplicated

The invariant of the registry is stated for one manager at a time: `System.view` projects the
system to the flags of a manager, whether the map holds it, its connections, and the numbers of
calls that are about to run a section on it.  Every section is a small change of them that keeps
`View.Good`.

The argument needs a receive loop to end only after its manager has been closed.  One that ends by
itself sets the `closed` flag, and the `close` that should follow returns (`sessions_leak`).
-/
import AnonBird.Transition
import AnonBird.I2PRegistry

open List Option

namespace I2PRegistry

open Registry I2PRegistry.System

variable {K D : Type} [DecidableEq K]

/-! ## What the calls in progress are about to do to a manager -/

/-- What a call means for the managers it knows. -/
inductive Role where
  | idle
  /-- It holds a reference. -/
  | holding (m : ℕ)
  /-- It owns a manager that is not shared yet. -/
  | publishing (m : ℕ)
  /-- It is about to close the session of such a manager, with a reference to another. -/
  | discarding (m existing : ℕ)
  | closing (m : ℕ)
  | closingSession (m : ℕ)
  | waiting (m : ℕ)

/-- The part of a call in the life of a manager. -/
def Call.role : Call K D → Role
  | .retaining _ _ => .idle
  | .creating _ _ => .idle
  | .publishing m _ => .publishing m
  | .discarding m existing _ => .discarding m existing
  | .starting m _ => .holding m
  | .registering m _ => .holding m
  | .unregistering _ m _ => .holding m
  | .releasing m => .holding m
  | .closing m => .closing m
  | .closingSession m => .closingSession m
  | .waiting m => .waiting m

/-- The role of a call that may have ended. -/
def roleOf (o : Option (Call K D)) : Role := o.elim .idle Call.role

variable (m : ℕ)

/-- A reference to `m` is held. -/
def Role.holds : Role → Bool
  | .holding m' => m' = m
  | .discarding _ m' => m' = m
  | _ => false

/-- `m` is about to be published. -/
def Role.publishes : Role → Bool
  | .publishing m' => m' = m
  | _ => false

/-- `m` is about to be discarded. -/
def Role.discards : Role → Bool
  | .discarding m' _ => m' = m
  | _ => false

/-- `m` is being closed. -/
def Role.closes : Role → Bool
  | .closing m' => m' = m
  | _ => false

/-- The session of `m` is being closed. -/
def Role.closesSession : Role → Bool
  | .closingSession m' => m' = m
  | _ => false

/-- The reader of `m` is awaited. -/
def Role.waits : Role → Bool
  | .waiting m' => m' = m
  | _ => false

/-- The connection holds a reference to the manager. -/
def PeerConn.holds (c : PeerConn D) : Bool := c.manager = m && !c.released

/-! ## The view of one manager -/

/-- The state of the system as far as it concerns one manager. -/
structure View where
  created : Bool
  closed : Bool
  sessionClosed : Bool
  inMap : Bool
  refs : ℕ
  conns : ℕ
  holds : ℕ
  publishes : ℕ
  discards : ℕ
  closes : ℕ
  closesSession : ℕ
  waits : ℕ

/-- The view of the manager `m`. -/
def System.view (s : System K D) (m : ℕ) : View where
  created := m < s.registry.created
  closed := (s.registry.heap m).closed
  sessionClosed := (s.registry.heap m).sessionClosed
  inMap := get s.registry.managers (s.registry.heap m).key = some m
  refs := (s.registry.heap m).refs
  conns := s.registry.conns.countP (·.holds m)
  holds := s.calls.countP (·.role.holds m)
  publishes := s.calls.countP (·.role.publishes m)
  discards := s.calls.countP (·.role.discards m)
  closes := s.calls.countP (·.role.closes m)
  closesSession := s.calls.countP (·.role.closesSession m)
  waits := s.calls.countP (·.role.waits m)

/-- The view of `m` with one more call in progress. -/
def View.plus (v : View) (m : ℕ) : Role → View
  | .idle => v
  | .holding m' => if m' = m then { v with holds := v.holds + 1 } else v
  | .publishing m' => if m' = m then { v with publishes := v.publishes + 1 } else v
  | .discarding m' existing =>
    { v with
      discards := v.discards + if m' = m then 1 else 0
      holds := v.holds + if existing = m then 1 else 0 }
  | .closing m' => if m' = m then { v with closes := v.closes + 1 } else v
  | .closingSession m' =>
    if m' = m then { v with closesSession := v.closesSession + 1 } else v
  | .waiting m' => if m' = m then { v with waits := v.waits + 1 } else v

/-- The role concerns the manager. -/
def Role.mentions : Role → Prop
  | .idle => False
  | .holding m' => m' = m
  | .publishing m' => m' = m
  | .discarding m' existing => m' = m ∨ existing = m
  | .closing m' => m' = m
  | .closingSession m' => m' = m
  | .waiting m' => m' = m

variable (v : View)

open View

theorem plus_of_not_mentions {m : ℕ} {ρ : Role} (h : ¬ ρ.mentions m) :
    v.plus m ρ = v := by
  cases ρ with
  | idle => rfl
  | discarding m' existing =>
    rw [Role.mentions, not_or] at h
    rw [plus, if_neg h.1, if_neg h.2]
    rfl
  | holding m' | publishing m' | closing m' | closingSession m' | waiting m' => exact if_neg h

/-- A call in progress is no part of the state of the manager itself. -/
theorem plus_flags (m : ℕ) (ρ : Role) :
    (v.plus m ρ).inMap = v.inMap ∧ (v.plus m ρ).closed = v.closed := by
  cases ρ with
  | idle | discarding m' existing => exact ⟨rfl, rfl⟩
  | holding m' | publishing m' | closing m' | closingSession m' | waiting m' =>
    rw [plus]
    split <;> exact ⟨rfl, rfl⟩

theorem countP_insert {α : Type} (p : α → Bool) (l₁ l₂ : List α) (a : α) :
    (l₁ ++ a :: l₂).countP p = (l₁ ++ l₂).countP p + if p a then 1 else 0 := by
  rw [countP_append, countP_cons, countP_append, Nat.add_assoc]

variable (r : Registry K D) (l₁ l₂ calls : List (Call K D) )

/-- Where a call stands in the list does not matter. -/
theorem view_insert (o : Option (Call K D)) (m : ℕ) :
    view ⟨r, l₁ ++ o.toList ++ l₂⟩ m = (view ⟨r, l₁ ++ l₂⟩ m).plus m (roleOf o) := by
  cases o with
  | none => simp [roleOf, plus]
  | some c =>
    rw [toList_some, append_assoc, singleton_append, roleOf, elim_some]
    simp only [view, countP_insert]
    -- each counter goes up by one exactly when the role is the one it counts
    generalize c.role = ρ
    cases ρ <;> simp only [View.plus, Role.holds, Role.publishes, Role.discards, Role.closes,
      Role.closesSession, Role.waits, decide_eq_true_eq, Bool.false_eq_true, if_false,
      Nat.add_zero]
    all_goals split <;> rfl

open Function

/-- A section that changes one manager leaves the view of every other as it was. -/
theorem view_modify (m m' : ℕ) (f : Manager K D → Manager K D)
    (hkey : (f (r.heap m)).key = (r.heap m).key) :
    view ⟨r.modify m f, calls⟩ m' = if m' = m then { view ⟨r, calls⟩ m with
          closed := (f (r.heap m)).closed
          sessionClosed := (f (r.heap m)).sessionClosed
          refs := (f (r.heap m)).refs }
      else view ⟨r, calls⟩ m' := by
  by_cases hm : m' = m
  · subst hm
    simp only [view, Registry.modify, update_self, hkey]
    rfl
  · rw [if_neg hm]
    simp only [view, Registry.modify, update_of_ne hm]
    rfl

variable (managers : List (K × ℕ) )

/-- The map decides which managers are in it, and nothing else. -/
theorem view_managers (m : ℕ) :
    view ⟨{ r with managers := managers }, calls⟩ m =
      { view ⟨r, calls⟩ m with
        inMap := get managers (r.heap m).key = some m } := rfl

theorem view_conns (conns : List (PeerConn D)) (calls : List (Call K D)) (m : ℕ) :
    view ⟨{ r with conns := conns }, calls⟩ m =
      { view ⟨r, calls⟩ m with conns := conns.countP (·.holds m) } := rfl

/-- The view of a manager whose place in the map did not change. -/
theorem view_managers_of_iff (m : ℕ)
    (h : get managers (r.heap m).key = some m ↔ get r.managers (r.heap m).key = some m) :
    view ⟨{ r with managers := managers }, calls⟩ m = view ⟨r, calls⟩ m := by
  rw [view_managers, decide_eq_decide.mpr h]
  rfl

/-! ## The invariant of one manager -/

/-- What the numbers of a manager satisfy in every reachable state. -/
structure View.Good (v : View) : Prop where
  absent : v.created = false → v.inMap = false ∧ v.refs = 0 ∧ v.conns = 0 ∧ v.holds = 0 ∧
    v.publishes = 0 ∧ v.discards = 0 ∧ v.closes = 0 ∧ v.closesSession = 0 ∧ v.waits = 0
  refs_eq : v.refs = v.holds + v.conns
  unshared : 1 ≤ v.publishes → v.publishes = 1 ∧ v.refs = 0 ∧ v.closes = 0 ∧ v.inMap = false ∧
    v.closed = false
  shared : v.inMap = true → 1 ≤ v.refs ∧ v.closes = 0 ∧ v.closed = false
  closing : 1 ≤ v.closesSession + v.waits → v.closed = true
  owned : v.created = true → v.sessionClosed = true ∨ v.inMap = true ∨ 1 ≤ v.publishes ∨
    1 ≤ v.discards ∨ (v.closed = false ∧ 1 ≤ v.closes) ∨ 1 ≤ v.closesSession

namespace View.Good

variable {v : View}

theorem retain (h : v.Good) (hin : v.inMap) :
    Good { v with refs := v.refs + 1, holds := v.holds + 1 } := by
  cases h
  constructor <;> grind

theorem create (h : v.Good) (habsent : v.created = false) : Good { v with
      created := true, closed := false, sessionClosed := false, inMap := false, refs := 0
      publishes := v.publishes + 1 } := by
  cases h
  constructor <;> grind

theorem publish (h : Good { v with publishes := v.publishes + 1 }) :
    Good { v with inMap := true, refs := 1, holds := v.holds + 1 } := by
  cases h
  constructor <;> grind

theorem supersede (h : Good { v with publishes := v.publishes + 1 }) :
    Good { v with discards := v.discards + 1 } := by
  cases h
  constructor <;> grind

theorem discard {a b : ℕ} (h : Good { v with discards := v.discards + a, holds := v.holds + b }) :
    Good { v with sessionClosed := true, holds := v.holds + b } := by
  cases h
  constructor <;> grind

theorem register (h : Good { v with holds := v.holds + 1 }) :
    Good { v with conns := v.conns + 1 } := by
  cases h
  constructor <;> grind

theorem closeConn (h : Good { v with conns := v.conns + 1 }) :
    Good { v with holds := v.holds + 1 } := by
  cases h
  constructor <;> grind

/-- A reference is given up, and it is not the last one of a manager in the map. -/
theorem release (h : Good { v with holds := v.holds + 1 }) (hlast : ¬ (v.refs - 1 = 0 ∧ v.inMap)) :
    Good { v with refs := v.refs - 1 } := by
  cases h
  constructor <;> grind

/-- The last reference takes the manager out of the map. -/
theorem releaseLast (h : Good { v with holds := v.holds + 1 })
    (hlast : v.refs - 1 = 0) (hin : v.inMap) :
    Good { v with refs := v.refs - 1, inMap := false, closes := v.closes + 1 } := by
  cases h
  constructor <;> grind

theorem closeAgain (h : Good { v with closes := v.closes + 1 }) (hc : v.closed) : v.Good := by
  cases h
  constructor <;> grind

theorem beginClose (h : Good { v with closes := v.closes + 1 }) :
    Good { v with closed := true, closesSession := v.closesSession + 1 } := by
  cases h
  constructor <;> grind

theorem closeSession (h : Good { v with closesSession := v.closesSession + 1 }) :
    Good { v with sessionClosed := true, waits := v.waits + 1 } := by
  cases h
  constructor <;> grind

/-- `close` ends, and marks the manager once more. -/
theorem closePeers (h : Good { v with waits := v.waits + 1 }) : Good { v with closed := true } := by
  cases h
  constructor <;> grind

end View.Good

/-! ## The sections keep the invariant -/

/-- The map holds every manager under its own key. -/
def Registry.Keyed : Prop :=
  ∀ key m, get r.managers key = some m → (r.heap m).key = key

/-- The invariant, with one call singled out from the calls in progress. -/
def Inv (rest : List (Call K D)) (ρ : Role) : Prop :=
  r.Keyed ∧ ∀ m, ((view ⟨r, rest⟩ m).plus m ρ).Good

variable {c : Call K D} {o : Option (Call K D)}

section Sections

variable {r : Registry K D} {rest : List (Call K D)} {key : K} {m existing conn : ℕ}
  {destination : D} {ρ ρ' : Role}

variable {f : Manager K D → Manager K D}

omit [DecidableEq K] in
theorem key_modify (hkey : (f (r.heap m)).key = (r.heap m).key) (m' : ℕ) :
    ((r.modify m f).heap m').key = (r.heap m').key := by
  show (update r.heap m _ m').key = _
  by_cases hm : m' = m
  · subst hm
    rw [update_self, hkey]
  · rw [update_of_ne hm]

theorem keyed_modify (hk : r.Keyed) (hkey : (f (r.heap m)).key = (r.heap m).key) :
    (r.modify m f).Keyed := by
  intro k m' hget
  rw [key_modify hkey]
  exact hk k m' hget

/-- A live manager is the one in the map. -/
theorem live_eq_some (hk : r.Keyed) (hlive : r.live key = some m) :
    (view ⟨r, rest⟩ m).inMap := by
  rw [live, filter_eq_some_iff] at hlive
  have hkey := hk key m hlive.1
  simp only [view, hkey, hlive.1, decide_true]

/-- In a good state the map has no closed manager. -/
theorem get_eq_none_of_live (hinv : Inv r rest ρ) (hlive : r.live key = none) :
    get r.managers key = none := by
  cases hget : get r.managers key with
  | none => rfl
  | some m =>
    have hflags := plus_flags (view ⟨r, rest⟩ m) m ρ
    have hin : ((view ⟨r, rest⟩ m).plus m ρ).inMap := by
      rw [hflags.1]
      simp [view, hinv.1 key m hget, hget]
    have hopen : (r.heap m).closed = false := hflags.2.symm.trans ((hinv.2 m).shared hin).2.2
    simp [live, hget, hopen] at hlive

theorem inv_remap {managers : List (K × ℕ)} (hinv : Inv r rest ρ)
    (hkey : (f (r.heap m)).key = (r.heap m).key)
    (hkeyed : ∀ k m', get managers k = some m' → get r.managers k = some m' ∨ (r.heap m').key = k)
    (hothers : ∀ m' ≠ m, (¬ ρ.mentions m' ∧ ¬ ρ'.mentions m') ∧
      (get managers (r.heap m').key = some m' ↔ get r.managers (r.heap m').key = some m'))
    (hgood : ((view ⟨r, rest⟩ m).plus m ρ).Good → (plus { view ⟨r, rest⟩ m with
          closed := (f (r.heap m)).closed
          sessionClosed := (f (r.heap m)).sessionClosed
          refs := (f (r.heap m)).refs
          inMap := get managers (r.heap m).key = some m } m ρ').Good) :
    Inv { r.modify m f with managers := managers } rest ρ' := by
  have hheap : ∀ m', ((r.modify m f).heap m').key = (r.heap m').key := key_modify hkey
  refine ⟨?_, ?_⟩
  · intro k m' hk
    rw [hheap]
    exact (hkeyed k m' hk).elim (hinv.1 k m') id
  · intro m'
    by_cases hm : m' = m
    · subst hm
      rw [view_managers, view_modify _ _ _ _ _ hkey, if_pos rfl, hheap]
      exact hgood (hinv.2 m')
    · obtain ⟨⟨h, h'⟩, hsame⟩ := hothers m' hm
      rw [plus_of_not_mentions _ h', view_managers_of_iff _ _ _ _ (by rw [hheap]; exact hsame),
        view_modify _ _ _ _ _ hkey, if_neg hm]
      have hgood' := hinv.2 m'
      rwa [plus_of_not_mentions _ h] at hgood'

theorem inv_modify (hinv : Inv r rest ρ) (hkey : (f (r.heap m)).key = (r.heap m).key)
    (hothers : ∀ m' ≠ m, ¬ ρ.mentions m' ∧ ¬ ρ'.mentions m')
    (hgood : ((view ⟨r, rest⟩ m).plus m ρ).Good → (plus { view ⟨r, rest⟩ m with
          closed := (f (r.heap m)).closed
          sessionClosed := (f (r.heap m)).sessionClosed
          refs := (f (r.heap m)).refs } m ρ').Good) : Inv (r.modify m f) rest ρ' :=
  inv_remap hinv hkey (fun _ _ => .inl) (fun m' hm => ⟨hothers m' hm, Iff.rfl⟩) hgood

theorem inv_retain (hinv : Inv r rest .idle) :
    Inv (r.retain key destination).1 rest (r.retain key destination).2.role := by
  rw [retain]
  cases hlive : r.live key with
  | none => exact hinv
  | some m =>
    show Inv (r.modify m _) rest (.holding m)
    refine inv_modify hinv rfl ?_ ?_
    · intro m' hm
      simp [Role.mentions, Ne.symm hm]
    · intro hgood
      rw [plus, if_pos rfl]
      exact hgood.retain (live_eq_some hinv.1 hlive)

theorem inv_newSession (hinv : Inv r rest .idle) :
    Inv (r.newSession key destination).1 rest (r.newSession key destination).2.role := by
  obtain ⟨hk, hgood⟩ := hinv
  have hnew : (view ⟨r, rest⟩ r.created).created = false := by simp [view]
  -- the new cell is not in the map, whatever key it had
  have hfree : ∀ k, get r.managers k ≠ some r.created := by
    intro k hget
    have hin : (view ⟨r, rest⟩ r.created).inMap := by
      simp [view, hk k _ hget, hget]
    have hout : (view ⟨r, rest⟩ r.created).inMap = false :=
      ((hgood r.created).absent hnew).1
    rw [hout] at hin
    simp at hin
  refine ⟨?_, ?_⟩
  · intro k m' hget
    have hm : m' ≠ r.created := by
      rintro rfl
      exact hfree k hget
    rw [← hk k m' hget]
    simp [newSession, hm]
  · intro m'
    show (plus _ m' (.publishing r.created)).Good
    by_cases hm : m' = r.created
    · subst hm
      have hcreate := (hgood r.created).create hnew
      simpa [newSession, view, newManager, hfree, plus] using hcreate
    · rw [plus, if_neg (Ne.symm hm)]
      have hlt : m' < r.created + 1 ↔ m' < r.created := by omega
      have hold : (view ⟨r, rest⟩ m').Good := hgood m'
      simpa [newSession, view, hm, hlt] using hold

theorem inv_publish (hinv : Inv r rest (.publishing m)) :
    Inv (r.publish m destination).1 rest (r.publish m destination).2.role := by
  have hm := hinv.2 m
  rw [plus, if_pos rfl] at hm
  rw [publish]
  cases hlive : r.live (r.heap m).key with
  | some existing =>
    have hin : (view ⟨r, rest⟩ existing).inMap := live_eq_some hinv.1 hlive
    -- a manager that is not shared is not the one in the map
    have hne : m ≠ existing := by
      rintro rfl
      have hout : (view ⟨r, rest⟩ m).inMap = false :=
        (hm.unshared (Nat.le_add_left 1 _)).2.2.2.1
      rw [hin] at hout
      simp at hout
    show Inv (r.modify existing _) rest (.discarding m existing)
    refine ⟨keyed_modify hinv.1 rfl, ?_⟩
    intro m'
    rw [view_modify _ _ _ _ _ rfl]
    have hgood := hinv.2 m'
    by_cases he : m' = existing
    · subst he
      rw [plus, if_neg hne] at hgood
      rw [if_pos rfl, plus, if_neg hne, if_pos rfl]
      exact hgood.retain hin
    · rw [if_neg he]
      by_cases hmm : m' = m
      · subst hmm
        rw [plus, if_pos rfl, if_neg (Ne.symm he)]
        exact hm.supersede
      · rw [plus_of_not_mentions _ (ρ := .publishing m) (Ne.symm hmm)] at hgood
        rw [plus_of_not_mentions _ (by simp [Role.mentions, Ne.symm hmm, Ne.symm he])]
        exact hgood
  | none =>
    have hnone := get_eq_none_of_live hinv hlive
    show Inv _ rest (.holding m)
    refine inv_remap hinv rfl ?_ ?_ ?_
    · grind [GoMap.get_set]
    · -- the key was free, so no other manager leaves the map
      intro m' hmm
      refine ⟨⟨Ne.symm hmm, Ne.symm hmm⟩, ?_⟩
      grind [GoMap.get_set]
    · intro _
      rw [plus, if_pos rfl, GoMap.get_set_self, decide_eq_true rfl]
      exact hm.publish

theorem inv_discard (hinv : Inv r rest (.discarding m existing)) :
    Inv (r.closeSession m) rest (.holding existing) := by
  refine ⟨keyed_modify hinv.1 rfl, ?_⟩
  intro m'
  have hgood := hinv.2 m'
  rw [plus] at hgood
  -- two managers are concerned: the one that goes, and the one the call now refers to
  rw [closeSession, view_modify _ _ _ _ _ rfl]
  by_cases hm : m' = m
  · subst hm
    rw [if_pos rfl]
    by_cases he : existing = m'
    · rw [plus, if_pos he]
      rw [if_pos he] at hgood
      exact hgood.discard
    · rw [plus, if_neg he]
      rw [if_neg he] at hgood
      exact hgood.discard
  · rw [if_neg (Ne.symm hm)] at hgood
    rw [if_neg hm]
    by_cases he : existing = m'
    · rw [plus, if_pos he]
      rwa [if_pos he] at hgood
    · rw [plus, if_neg he]
      rwa [if_neg he] at hgood

section

variable (hinv : Inv r rest (.holding m) )

include hinv

/-- A section that leaves the numbers of its manager as they are. -/
theorem inv_modify_same
    (hf : (f (r.heap m)).key = (r.heap m).key ∧ (f (r.heap m)).closed = (r.heap m).closed ∧
      (f (r.heap m)).sessionClosed = (r.heap m).sessionClosed ∧
      (f (r.heap m)).refs = (r.heap m).refs) : Inv (r.modify m f) rest (.holding m) := by
  refine inv_modify hinv hf.1 ?_ ?_
  · intro m' hm
    exact ⟨Ne.symm hm, Ne.symm hm⟩
  · intro hgood
    rw [hf.2.1, hf.2.2.1, hf.2.2.2]
    exact hgood

theorem inv_start : Inv (r.start m) rest (.holding m) :=
  inv_modify_same hinv ⟨rfl, rfl, rfl, rfl⟩

theorem inv_release :
    Inv (r.release m).1 rest (roleOf (r.release m).2) := by
  have hm := hinv.2 m
  rw [plus, if_pos rfl] at hm
  rw [release]
  by_cases hlast : (r.heap m).refs - 1 = 0 ∧ get r.managers (r.heap m).key = some m
  · rw [if_pos hlast]
    show Inv _ rest (.closing m)
    refine inv_remap hinv rfl ?_ ?_ ?_
    · intro k m' hk
      exact .inl (GoMap.get_of_get_erase hk).2
    · -- under the key of the manager was the manager itself
      intro m' hmm
      refine ⟨⟨Ne.symm hmm, Ne.symm hmm⟩, ?_⟩
      grind [GoMap.get_erase_of_ne, GoMap.get_of_get_erase]
    · intro _
      rw [plus, if_pos rfl, GoMap.get_erase_self, decide_eq_false (by simp)]
      exact hm.releaseLast hlast.1 (decide_eq_true hlast.2)
  · rw [if_neg hlast]
    refine inv_modify hinv rfl ?_ ?_
    · intro m' hmm
      exact ⟨Ne.symm hmm, id⟩
    · intro _
      refine hm.release ?_
      rintro ⟨hzero, hin⟩
      exact hlast ⟨hzero, of_decide_eq_true hin⟩

end

theorem inv_beginClose (hinv : Inv r rest (.closing m)) :
    Inv (r.beginClose m).1 rest (roleOf (r.beginClose m).2) := by
  have hm := hinv.2 m
  rw [plus, if_pos rfl] at hm
  rw [beginClose]
  by_cases hc : (r.heap m).closed
  · -- `owned` counts a pending close only while the flag is down, so it is not needed here
    rw [if_pos hc]
    refine ⟨hinv.1, ?_⟩
    intro m'
    by_cases hmm : m' = m
    · subst hmm
      exact hm.closeAgain hc
    · have hgood := hinv.2 m'
      rwa [plus_of_not_mentions _ (ρ := .closing m) (Ne.symm hmm)] at hgood
  · rw [if_neg hc]
    show Inv (r.modify m _) rest (.closingSession m)
    refine inv_modify hinv rfl ?_ ?_
    · intro m' hmm
      exact ⟨Ne.symm hmm, Ne.symm hmm⟩
    · intro _
      rw [plus, if_pos rfl]
      exact hm.beginClose

theorem inv_closeSession (hinv : Inv r rest (.closingSession m)) :
    Inv (r.closeSession m) rest (.waiting m) := by
  refine inv_modify hinv rfl ?_ ?_
  · intro m' hmm
    exact ⟨Ne.symm hmm, Ne.symm hmm⟩
  · intro hgood
    rw [plus, if_pos rfl] at hgood
    rw [plus, if_pos rfl]
    exact hgood.closeSession

theorem inv_closePeers (hinv : Inv r rest (.waiting m)) : Inv (r.closePeers m) rest .idle := by
  refine inv_modify hinv rfl ?_ ?_
  · intro m' hmm
    exact ⟨Ne.symm hmm, id⟩
  · intro hgood
    rw [plus, if_pos rfl] at hgood
    exact hgood.closePeers

variable [DecidableEq D]

/-- The reference of the call passes to the new connection, unless `register` fails. -/
theorem inv_register (hinv : Inv r rest (.holding m)) :
    Inv (r.register m destination).1 rest (roleOf (r.register m destination).2) := by
  rw [register]
  by_cases hclosed : (r.heap m).closed
  · rw [if_pos hclosed]
    exact hinv
  · rw [if_neg hclosed]
    by_cases htaken : (get (r.heap m).peers destination).isSome
    · rw [if_pos htaken]
      exact hinv
    · rw [if_neg htaken]
      have hkeyed : (r.modify m fun manager =>
          { manager with peers := set manager.peers destination r.conns.length }).Keyed :=
        keyed_modify hinv.1 rfl
      refine ⟨hkeyed, ?_⟩
      intro m'
      rw [view_conns, view_modify _ _ _ _ _ rfl, countP_append, countP_singleton]
      have hgood := hinv.2 m'
      by_cases hm : m' = m
      · subst hm
        rw [View.plus, if_pos rfl] at hgood
        rw [if_pos rfl, if_pos (by simp [PeerConn.holds])]
        exact hgood.register
      · rw [plus_of_not_mentions _ (ρ := .holding m) (Ne.symm hm)] at hgood
        rw [if_neg hm, if_neg (by simp [PeerConn.holds, Ne.symm hm])]
        exact hgood

/-- **One section.**  Whatever section a call runs, the invariant is kept. -/
theorem inv_next {r' : Registry K D}
    (hinv : Inv r rest c.role) (hnext : c.next r = some (r', o)) : Inv r' rest (roleOf o) := by
  cases c with
  | retaining key destination =>
    cases hnext
    exact inv_retain hinv
  | creating key destination =>
    cases hnext
    exact inv_newSession hinv
  | publishing m destination =>
    cases hnext
    exact inv_publish hinv
  | discarding m existing destination =>
    cases hnext
    exact inv_discard hinv
  | starting m destination =>
    cases hnext
    exact inv_start hinv
  | registering m destination =>
    obtain ⟨rfl, rfl⟩ := Prod.mk.inj (some.inj hnext)
    exact inv_register hinv
  | unregistering conn m destination =>
    cases hnext
    refine inv_modify_same hinv ?_
    split <;> exact ⟨rfl, rfl, rfl, rfl⟩
  | releasing m =>
    obtain ⟨rfl, rfl⟩ := Prod.mk.inj (some.inj hnext)
    exact inv_release hinv
  | closing m =>
    obtain ⟨rfl, rfl⟩ := Prod.mk.inj (some.inj hnext)
    exact inv_beginClose hinv
  | closingSession m =>
    cases hnext
    exact inv_closeSession hinv
  | waiting m =>
    rw [Call.next] at hnext
    split at hnext
    · simp at hnext
    · cases hnext
      exact inv_closePeers hinv

end Sections

/-! ## Runs -/

/-- The invariant of the system. -/
def System.Ok (s : System K D) : Prop := Inv s.registry s.calls .idle

/-- A receive loop ends only after its manager was closed. -/
def LoopEndsAfterClose (s : System K D) (l : Label K D) : Prop :=
  ∀ m, l = .receiveEnds m → (s.registry.heap m).closed = true

/-- One call may be singled out from the calls in progress. -/
theorem ok_insert (o : Option (Call K D)) :
    System.Ok ⟨r, l₁ ++ o.toList ++ l₂⟩ ↔ Inv r (l₁ ++ l₂) (roleOf o) := by
  show r.Keyed ∧ (∀ m, (view ⟨r, l₁ ++ o.toList ++ l₂⟩ m).Good) ↔
    r.Keyed ∧ ∀ m, ((view ⟨r, l₁ ++ l₂⟩ m).plus m (roleOf o)).Good
  simp only [view_insert]

theorem ok_init [Inhabited K] : (init : System K D).Ok := by
  refine ⟨?_, ?_⟩
  · intro k m hget
    simp [init, get] at hget
  · intro m
    constructor <;> simp [init, view, plus, newManager, get]

variable [DecidableEq D]

theorem ok_step {s t : System K D} {l : Label K D} (hok : s.Ok) (hguard : LoopEndsAfterClose s l)
    (hstep : Step s l t) : t.Ok := by
  cases hstep with
  | @openPeerConn _ key destination =>
    have hinv : Inv s.registry (s.calls ++ []) .idle := by
      rw [append_nil]
      exact hok
    have hnew := (ok_insert _ _ _ (some (.retaining key destination))).mpr hinv
    rwa [append_nil] at hnew
  | @closeConn r calls before after m destination hconns =>
    have hinv : Inv { r with conns := before ++ ⟨m, destination, true⟩ :: after } (calls ++ [])
        (.holding m) := by
      -- the reference is the same one, counted with the calls instead of the connections
      rw [append_nil]
      refine ⟨hok.1, ?_⟩
      intro m'
      have hgood : Good { view ⟨r, calls⟩ m' with
          conns := r.conns.countP (·.holds m') } := hok.2 m'
      rw [hconns, countP_insert] at hgood
      rw [view_conns, countP_insert, if_neg (by simp [PeerConn.holds])]
      by_cases hm : m' = m
      · subst hm
        rw [if_pos (by simp [PeerConn.holds])] at hgood
        rw [View.plus, if_pos rfl]
        exact View.Good.closeConn hgood
      · rw [if_neg (by simp [PeerConn.holds, Ne.symm hm])] at hgood
        rw [plus_of_not_mentions _ (ρ := .holding m) (Ne.symm hm)]
        exact hgood
    have hnew := (ok_insert _ _ _ (some (.unregistering before.length m destination))).mpr hinv
    rwa [append_nil] at hnew
  | closeAgain hconn hreleased => exact hok
  | advance hnext =>
    rw [← singleton_append, ← append_assoc] at hok
    exact (ok_insert _ _ _ _).mpr (inv_next ((ok_insert _ _ _ (some _)).mp hok) hnext)
  | sessionFails =>
    rw [← singleton_append, ← append_assoc] at hok
    exact (ok_insert _ _ _ (some _)).mp hok
  | @receiveEnds _ m hloop =>
    -- the flag that `closePeers` sets was set before
    have hclosed := hguard m rfl
    have hpeers : Inv (s.registry.closePeers m) s.calls .idle := by
      refine inv_modify hok rfl (fun _ _ => ⟨id, id⟩) ?_
      intro hgood
      rw [← hclosed]
      exact hgood
    exact inv_modify hpeers rfl (fun _ _ => ⟨id, id⟩) id
  | loopDone hloop => exact inv_modify hok rfl (fun _ _ => ⟨id, id⟩) id

open Transition

/-- **Sessions are neither leaked nor duplicated** where a receive loop ends only after its manager
was closed: with no call in progress the references are the open connections, sessions without
references are closed, and a key has one open session at most. -/
theorem sessions_closed_and_unique [Inhabited K] (labels : List (Label K D)) (s : System K D)
    (hrun : Run Step LoopEndsAfterClose init labels s) (hquiet : s.calls = []) :
    (∀ m < s.registry.created, (s.registry.heap m).refs = s.registry.conns.countP (·.holds m) ∧
      ((s.registry.heap m).refs = 0 → (s.registry.heap m).sessionClosed = true)) ∧
    ∀ m < s.registry.created, ∀ m' < s.registry.created,
      (s.registry.heap m).key = (s.registry.heap m').key →
      (s.registry.heap m).sessionClosed = false → (s.registry.heap m').sessionClosed = false →
      m = m' := by
  obtain ⟨registry, calls⟩ := s
  subst hquiet
  have hgood : ∀ m, (view ⟨registry, []⟩ m).Good :=
    (hrun.invariant (P := fun _ s => System.Ok s) ok_init
      fun _ _ _ _ hok hguard hstep => ok_step hok hguard hstep).2
  -- without calls, a manager whose session is open is the one in the map
  have hmap : ∀ m < registry.created, (registry.heap m).sessionClosed = false →
      get registry.managers (registry.heap m).key = some m := by
    intro m hm hopen
    have hown := (hgood m).owned (decide_eq_true hm)
    simpa [view, hopen] using hown
  refine ⟨?_, ?_⟩
  · intro m hm
    refine ⟨?_, ?_⟩
    · have hrefs := (hgood m).refs_eq
      simpa [view] using hrefs
    · intro hzero
      by_contra hopen
      have hin := hmap m hm (by simpa using hopen)
      have hpos := ((hgood m).shared (decide_eq_true hin)).1
      rw [view, hzero] at hpos
      simp at hpos
  · intro m hm m' hm' hkey hopen hopen'
    have hin := hmap m hm hopen
    rw [hkey, hmap m' hm' hopen'] at hin
    exact (some.inj hin).symm

/-! ## Two runs of a single peer -/

theorem step_advance {r r' : Registry K D}
    (hnext : c.next r = some (r', o)) : Step ⟨r, [c]⟩ (.advance 0) ⟨r', o.toList⟩ := by
  have hstep := @Step.advance _ _ _ _ r r' [] [] c o hnext
  rwa [nil_append, append_nil] at hstep

theorem step_closeConn {r : Registry K D} {m : ℕ} {destination : D}
    (hconns : r.conns = [⟨m, destination, false⟩]) : Step ⟨r, []⟩ (.closeConn 0)
      ⟨{ r with conns := [⟨m, destination, true⟩] }, [.unregistering 0 m destination]⟩ :=
  @Step.closeConn _ _ _ _ r [] [] [] m destination hconns

/-- The labels of a call of `OpenPeerConn` that makes a session and is alone. -/
def openAlone (key : K) (destination : D) : List (Label K D) :=
  [.openPeerConn key destination, .advance 0, .advance 0, .advance 0, .advance 0, .advance 0]

/-- The receive loop ends by itself: the last close leaves the session open, and a second call makes
another one. -/
theorem sessions_leak : (∃ s : System ℕ ℕ, Run Step (fun _ _ => True) init
        (openAlone 7 1 ++ [.receiveEnds 0, .loopDone 0, .closeConn 0, .advance 0, .advance 0,
          .advance 0]) s ∧ s.calls = [] ∧ s.registry.created = 1 ∧ (s.registry.heap 0).refs = 0 ∧
      (s.registry.heap 0).sessionClosed = false) ∧
    ∃ s : System ℕ ℕ, Run Step (fun _ _ => True) init
        (openAlone 7 1 ++ [.receiveEnds 0, .loopDone 0] ++ openAlone 7 2) s ∧
      s.calls = [] ∧ s.registry.created = 2 ∧ (s.registry.heap 0).key = (s.registry.heap 1).key ∧
      (s.registry.heap 0).sessionClosed = false ∧ (s.registry.heap 1).sessionClosed = false := by
  constructor
  · refine ⟨_, .go .openPeerConn (.go (step_advance rfl)
      (.go (step_advance rfl) (.go (step_advance rfl)
      (.go (step_advance rfl) (.go (step_advance rfl)
      (.go (.receiveEnds rfl) (.go (.loopDone rfl)
      (.go (step_closeConn rfl) (.go (step_advance rfl)
      (.go (step_advance rfl) (.go (step_advance rfl) .nil))))))))))), ?_⟩
    decide
  · refine ⟨_, .go .openPeerConn (.go (step_advance rfl)
      (.go (step_advance rfl) (.go (step_advance rfl)
      (.go (step_advance rfl) (.go (step_advance rfl)
      (.go (.receiveEnds rfl) (.go (.loopDone rfl)
      (.go .openPeerConn (.go (step_advance rfl)
      (.go (step_advance rfl) (.go (step_advance rfl)
      (.go (step_advance rfl) (.go (step_advance rfl) .nil))))))))))))), ?_⟩
    decide

/-- When the loop ends after the close, the session of the last connection is closed. -/
theorem session_closed_with_conn : ∃ s : System ℕ ℕ,
    Run Step LoopEndsAfterClose init
      (openAlone 7 1 ++ [.closeConn 0, .advance 0, .advance 0, .advance 0, .advance 0,
        .receiveEnds 0, .loopDone 0, .advance 0]) s ∧
    s.calls = [] ∧ 0 < s.registry.created ∧ (s.registry.heap 0).refs = 0 ∧
    (s.registry.heap 0).sessionClosed = true := by
  refine Run.exists_imp (P := fun s => s.calls = [] ∧ 0 < s.registry.created ∧
    (s.registry.heap 0).refs = 0) ?_ ?_
  · rintro s hrun ⟨hquiet, hcreated, hrefs⟩
    exact ⟨hquiet, hcreated, hrefs,
      ((sessions_closed_and_unique _ s hrun hquiet).1 0 hcreated).2 hrefs⟩
  · refine ⟨_, .cons nofun .openPeerConn (.cons nofun (step_advance rfl)
      (.cons nofun (step_advance rfl) (.cons nofun (step_advance rfl)
      (.cons nofun (step_advance rfl) (.cons nofun (step_advance rfl)
      (.cons nofun (step_closeConn rfl) (.cons nofun (step_advance rfl)
      (.cons nofun (step_advance rfl) (.cons nofun (step_advance rfl)
      (.cons nofun (step_advance rfl) (.cons ?_ (.receiveEnds rfl) (.cons nofun (.loopDone rfl)
      (.cons nofun (step_advance rfl) .nil))))))))))))), ?_⟩
    · rintro m ⟨⟩
      rfl
    · decide

end I2PRegistry
