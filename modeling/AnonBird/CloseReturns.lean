/-
# Every `Close` of a peer connection returns

Progress of the threads of `ConnClose` in fair executions.  A thread that holds the mutex releases
it (`mutex_freed`), so every thread that waits for it gets it, and the watchers end because their
context has ended.
-/
import AnonBird.ConnClose

open Fairness

namespace ConnClose

open State PC

/-! ## What one thread can do -/

/-- The moves of a thread. -/
inductive Moves : PC → PC → Prop
  | acquire (r : Region) : Moves (.lock r) (.hold r)
  | release {p q : PC} : p.released = some q → Moves p q
  | openBody : Moves (.hold .openConn) .openEnd
  | closeBody : Moves (.hold .close) .closeWait
  | closeBodyClosed : Moves (.hold .close) .closeEnd
  | wgDone : Moves .closeWait .closeEnd
  | watchersDone : Moves .closeWatchers .returned
  | openError (c : ℕ) : Moves (.opening c) .openerEnd
  | openReady (c : ℕ) : Moves (.opening c) (.lock (.opener c))
  | loopEnds (kind : Loop) (c : ℕ) : Moves (.loop kind c) .returned
  | openerEnds : Moves .openerEnd .returned
  | watcherCalls (c : ℕ) (last : Bool) : Moves (.watching c) (.lock (.watcher c last))
  | watcherStops (c : ℕ) : Moves (.watching c) .watcherEnd
  | watchingEnds (c : ℕ) : Moves (.watching c) .returned
  | watcherEnds : Moves .watcherEnd .returned

/-- The thread that takes a step. -/
def Label.thread : Label → Option ℕ
  | .call _ | .startWatcher _ => none
  | .acquire i | .release i | .openBody i _ | .closeBody i | .wgDone i | .watchersDone i
  | .openError i | .openReady i | .trackedEnds i | .watcherCalls i _ | .watcherStops i
  | .watcherEnds i => some i

variable {s : State} {i : ℕ} {p : PC}

/-- A thread that another one is set to move stays where it is. -/
theorem set_moves {j : ℕ} (hm : Moves (s.pc j) p) :
    some j ≠ some i ∧ (s.set j p).pc i = s.pc i ∨
      some j = some i ∧ Moves (s.pc i) ((s.set j p).pc i) := by
  rw [pc_set]
  by_cases hij : i = j
  · rw [if_pos hij, hij]
    exact .inr ⟨rfl, hm⟩
  · rw [if_neg hij]
    exact .inl ⟨fun hji => hij (Option.some.inj hji).symm, rfl⟩

theorem spawn_pc (hi : i < s.next) : (s.spawn p).pc i = s.pc i := by
  show (s.set s.next p).pc i = s.pc i
  rw [pc_set, if_neg (by omega)]

theorem openBody_pc (fails : Bool) (hi : i < s.next) : (s.openBody fails).pc i = s.pc i := by
  unfold openBody
  split
  · rfl
  · split
    · rfl
    · have hlistener : ((s.newContext true).track (.loop .listener (s.ctx + 1))).pc i = s.pc i :=
        spawn_pc hi
      have hguard : (((s.newContext true).track (.loop .listener (s.ctx + 1))).track
          (.loop .guard (s.ctx + 1))).pc i = s.pc i :=
        (spawn_pc (Nat.lt_succ_of_lt hi)).trans hlistener
      dsimp only
      split
      · exact (spawn_pc (Nat.lt_succ_of_lt (Nat.lt_succ_of_lt hi))).trans hguard
      · exact hguard

variable {t : State} {l : Label}

/-- **What a step does to a thread**: one of its moves if it is the thread's own, or nothing. -/
theorem State.Good.moves (h : s.Good) (hstep : Step s l t)
    (hi : s.pc i ≠ .idle) : l.thread ≠ some i ∧ t.pc i = s.pc i ∨
      l.thread = some i ∧ Moves (s.pc i) (t.pc i) := by
  have hlt : i < s.next := h.lt_next hi
  cases hstep with
  | call c | startWatcher _ _ _ => exact .inl ⟨nofun, spawn_pc hlt⟩
  | @acquire j r hj _ => exact set_moves (p := .hold r) (hj ▸ Moves.acquire r)
  | @release j p hj => exact set_moves (p := p) (Moves.release hj)
  | @openBody j fails hj =>
    rw [openBody_pc fails (show i < (s.set j .openEnd).next from hlt)]
    exact set_moves (hj ▸ Moves.openBody)
  | @closeBody j hj =>
    unfold State.closeBody
    split
    · exact set_moves (s := s.cancelContext) (show Moves (s.pc j) _ from hj ▸ Moves.closeBody)
    · exact set_moves (hj ▸ Moves.closeBodyClosed)
  | wgDone hj _ => exact set_moves (hj ▸ Moves.wgDone)
  | watchersDone hj _ => exact set_moves (hj ▸ Moves.watchersDone)
  | @openError j c hj => exact set_moves (hj ▸ Moves.openError c)
  | @openReady j c hj => exact set_moves (hj ▸ Moves.openReady c)
  | @trackedEnds j hj =>
    refine set_moves (p := .returned) ?_
    unfold trackedDone at hj
    split at hj
    next kind c hpc =>
      exact hpc ▸ Moves.loopEnds kind c
    next hpc =>
      exact hpc ▸ Moves.openerEnds
    · exact absurd hj (by simp)
  | @watcherCalls j c last hj => exact set_moves (hj ▸ Moves.watcherCalls c last)
  | @watcherStops j c hj => exact set_moves (hj ▸ Moves.watcherStops c)
  | @watcherEnds j hj =>
    refine set_moves (p := .returned) ?_
    unfold watcherDone at hj
    split at hj
    next c hpc =>
      exact hpc ▸ Moves.watchingEnds c
    next hpc =>
      exact hpc ▸ Moves.watcherEnds
    · exact absurd hj (by simp)

/-- The mutex changes hands through being free. -/
theorem mu_step (hstep : Step s l t) :
    t.mu = s.mu ∨ s.mu = none ∨ t.mu = none := by
  cases hstep with
  | acquire _ hfree => exact .inr (.inl hfree)
  | release _ => exact .inr (.inr rfl)
  | @openBody j fails _ =>
    left
    unfold openBody
    split
    · rfl
    · split
      · rfl
      · dsimp only
        split <;> rfl
  | @closeBody j _ =>
    left
    unfold closeBody
    split <;> rfl
  | _ => exact .inl rfl

/-! ## Fair executions -/

section Executions

variable {canUse : Bool} (e : Execution Step CloseUndisturbed (newConn canUse))

theorem good_at (n : ℕ) : (e.state n).Good := by
  obtain ⟨labels, hrun⟩ := e.run n
  exact good_of_run hrun

variable {n i : ℕ} {e} {p : PC} {a : Label}

section

variable (hfair : e.Fair Progress) (hp : (e.state n).pc i = p) (hidle : p ≠ .idle)
  (ha : Progress a) (hown : a.thread = some i)

include hfair hp hidle ha hown

/-- **A thread leaves its place** if a step of its own that takes it away is possible again
and again while it stays. -/
theorem leaves (henabled : ∀ m ≥ n, ∃ m' ≥ m, (e.state m').pc i = p → Enabled Step (e.state m') a) :
    ∃ m ≥ n, Moves p ((e.state m).pc i) := by
  have hnext : ∀ m ≥ n, (e.state m).pc i = p →
      (e.state (m + 1)).pc i = p ∨ Moves p ((e.state (m + 1)).pc i) := by
    intro m _ hm
    rcases e.next m with ⟨-, hsame⟩ | ⟨l, -, -, hstep⟩
    · rw [hsame]
      exact .inl hm
    · have hmoves := (good_at e m).moves hstep (i := i) (by rw [hm]; exact hidle)
      rw [hm] at hmoves
      exact hmoves.imp And.right And.right
  refine e.leadsTo hfair (P := fun s => s.pc i = p) (Q := fun s => Moves p (s.pc i)) ha hnext
    henabled ?_ hp
  intro m hm hpm hlabel
  rcases e.next m with ⟨hnone, -⟩ | ⟨l, hl, -, hstep⟩
  · rw [hnone] at hlabel
    exact absurd hlabel (by simp)
  · obtain rfl : l = a := Option.some.inj (hl.symm.trans hlabel)
    have hmoves := (good_at e m).moves hstep (i := i) (by rw [hpm]; exact hidle)
    rw [hpm] at hmoves
    exact (hmoves.resolve_left fun h => h.1 hown).2

theorem leaves_enabled (henabled : ∀ m ≥ n, (e.state m).pc i = p → Enabled Step (e.state m) a) :
    ∃ m ≥ n, Moves p ((e.state m).pc i) :=
  leaves hfair hp hidle ha hown fun m hm => ⟨m, le_rfl, henabled m hm⟩

/-- The same for a step that gets possible if the thread stays for ever. -/
theorem leaves_stuck
    (henabled : ∀ m, (∀ m' ≥ m, (e.state m').pc i = p) → ∃ m' ≥ m, Enabled Step (e.state m') a) :
    ∃ m ≥ n, Moves p ((e.state m).pc i) := by
  refine leaves hfair hp hidle ha hown fun m _ => ?_
  by_cases hstays : ∀ m' ≥ m, (e.state m').pc i = p
  · obtain ⟨m', hm', hen⟩ := henabled m hstays
    exact ⟨m', hm', fun _ => hen⟩
  · rw [not_forall] at hstays
    obtain ⟨m', hm'⟩ := hstays
    rw [Classical.not_imp] at hm'
    exact ⟨m', hm'.1, fun hpc => absurd hpc hm'.2⟩

end

variable {q : PC}

/-- Where a thread goes, from the places that have a lemma below. -/
theorem Moves.inv (h : Moves p q) :
    match p with
    | .lock r => q = .hold r
    | .hold .openConn => q = .openEnd
    | .hold .close => q = .closeWait ∨ q = .closeEnd
    | .closeWait => q = .closeEnd
    | .opening c => q = .openerEnd ∨ q = .lock (.opener c)
    | .closeWatchers | .loop _ _ | .openerEnd => q = .returned
    | _ => True := by
  cases h with
  | release h =>
    revert h
    cases p with
    | hold r => cases r <;> simp [released]
    | _ => simp [released]
  | _ => simp

theorem moves_released {q' : PC} (h : p.released = some q) (hm : Moves p q') : q' = q := by
  cases hm with
  | release h' => exact Option.some.inj (h'.symm.trans h)
  | _ => exact absurd h (by simp [released])

/-- A thread that has only the release left before it releases the mutex. -/
theorem releases (hfair : e.Fair Progress) (hq : ((e.state n).pc i).released = some q) :
    ∃ m ≥ n, (e.state m).pc i = q := by
  have hidle : (e.state n).pc i ≠ .idle := by
    intro hidle
    rw [hidle] at hq
    exact absurd hq (by simp [released])
  obtain ⟨m, hm, hmoves⟩ := leaves_enabled hfair rfl hidle (a := .release i) trivial rfl
    fun m _ hpc => ⟨_, .release (by rw [hpc]; exact hq)⟩
  exact ⟨m, hm, moves_released hq hmoves⟩

theorem open_ends (hfair : e.Fair Progress) (hi : (e.state n).pc i = .hold .openConn) :
    ∃ m ≥ n, (e.state m).pc i = .openEnd := by
  obtain ⟨m, hm, hmoves⟩ := leaves_enabled hfair hi (by simp) (a := .openBody i false) trivial rfl
    fun m _ hpc => ⟨_, .openBody hpc⟩
  exact ⟨m, hm, hmoves.inv⟩

theorem close_body_ends (hfair : e.Fair Progress) (hi : (e.state n).pc i = .hold .close) :
    ∃ m ≥ n, (e.state m).pc i = .closeWait ∨ (e.state m).pc i = .closeEnd := by
  obtain ⟨m, hm, hmoves⟩ := leaves_enabled hfair hi (by simp) (a := .closeBody i) trivial rfl
    fun m _ hpc => ⟨_, .closeBody hpc⟩
  exact ⟨m, hm, hmoves.inv⟩

/-! ## The tracked goroutines end -/

theorem wg_sublist {s t : State} (h : s.Good) (hstep : Step s l t)
    (hi : s.pc i = .closeWait) : t.wg.Sublist s.wg := by
  cases hstep with
  | @openBody j fails hj =>
    -- `Open` would hold the mutex
    have hij : i = j := h.holder_unique (by rw [hi]; rfl) (by rw [hj]; rfl)
    rw [← hij, hi] at hj
    exact absurd hj (by simp)
  | @closeBody j _ =>
    unfold closeBody
    split <;> exact List.Sublist.refl _
  | trackedEnds _ => exact List.filter_sublist
  | _ => exact List.Sublist.refl _

variable {k : ℕ} (hfair : e.Fair Progress)

include hfair

/-- A goroutine that has nothing left to do leaves the wait group. -/
theorem tracked_ends (hk : ∀ m ≥ n, (e.state m).pc k = (e.state n).pc k →
      ((e.state n).pc k).trackedDone (e.state m).live) : ∃ m ≥ n, k ∉ (e.state m).wg := by
  have hdone := hk n le_rfl rfl
  have hidle : (e.state n).pc k ≠ .idle := by
    intro hidle
    rw [hidle] at hdone
    exact absurd hdone (by simp [trackedDone])
  obtain ⟨m, hm, hmoves⟩ := leaves_enabled hfair rfl hidle (a := .trackedEnds k) trivial rfl
    fun m hm hpc => ⟨_, .trackedEnds (by rw [hpc]; exact hk m hm hpc)⟩
  refine ⟨m, hm, ?_⟩
  have hreturned : (e.state m).pc k = .returned := by
    revert hdone hmoves
    cases (e.state n).pc k with
    | loop kind c => exact fun _ hmoves => hmoves.inv
    | openerEnd => exact fun _ hmoves => hmoves.inv
    | _ => exact fun hdone _ => absurd hdone (by simp [trackedDone])
  rw [(good_at e m).tracked k, hreturned]
  decide

/-- **Every goroutine that `Close` waits for ends.** -/
theorem tracked_leaves (hwait : ∀ m ≥ n, (e.state m).pc i = .closeWait)
    (hk : k ∈ (e.state n).wg) : ∃ m ≥ n, k ∉ (e.state m).wg := by
  -- no context is alive while `Close` waits
  have hdead : ∀ m ≥ n, ∀ j c, ((e.state m).pc j).ctxOf = some c → c ∉ (e.state m).live := by
    intro m hm j c hc hlive
    have hclosed := (good_at e m).closing i (.inl (hwait m hm))
    have hopened := (((good_at e m).contexts j c hc).2 hlive).1
    exact absurd (hclosed.symm.trans hopened) (by decide)
  have hclosing : ∀ m ≥ n, ((e.state m).pc i).Closing := by
    intro m hm
    rw [hwait m hm]
    exact .inr (.inl rfl)
  have htracked := ((good_at e n).tracked k).mp hk
  -- after an error of `OpenPeerConn` only `conn.wg.Done()` is left
  have hend : ∀ m ≥ n, (e.state m).pc k = .openerEnd → ∃ m' ≥ n, k ∉ (e.state m').wg := by
    intro m hm hpc
    obtain ⟨m', hm', hout⟩ := tracked_ends hfair (n := m) (k := k) (by
      intro m' _ _
      rw [hpc]
      rfl)
    exact ⟨m', le_trans hm hm', hout⟩
  cases hpc : (e.state n).pc k with
  | loop kind c =>
    refine tracked_ends hfair ?_
    intro m hm hsame
    rw [hpc]
    have := hdead m hm k c (by rw [hsame, hpc]; rfl)
    simpa [trackedDone] using this
  | openerEnd => exact hend n le_rfl hpc
  | opening c =>
    obtain ⟨m, hm, hmoves⟩ := leaves_enabled hfair hpc (by simp) (a := .openError k) trivial rfl
      fun m _ hpc => ⟨_, .openError hpc⟩
    rcases hmoves.inv with hq | hq
    · exact hend m hm hq
    · exact absurd hq ((good_at e m).handOver i (hclosing m hm) k c)
  | lock r =>
    rw [hpc] at htracked
    cases r with
    | opener c => exact absurd hpc ((good_at e n).handOver i (hclosing n le_rfl) k c)
    | _ => exact absurd htracked (by simp [tracked])
  | hold r =>
    -- `Close` holds the mutex
    have hik : i = k := (good_at e n).holder_unique (by rw [hwait n le_rfl]; rfl) (by rw [hpc]; rfl)
    rw [← hik, hwait n le_rfl] at hpc
    exact absurd hpc (by simp)
  | _ =>
    rw [hpc] at htracked
    exact absurd htracked (by simp [tracked])

omit hfair in
/-- **A wait group gets empty** if threads are only taken out of it, and every one is. -/
theorem group_empties (f : State → List ℕ)
    (hsub : ∀ m ≥ n, (f (e.state (m + 1))).Sublist (f (e.state m)))
    (hleaves : ∀ m ≥ n, ∀ k ∈ f (e.state m), ∃ m' ≥ m, k ∉ f (e.state m')) :
    ∃ m ≥ n, f (e.state m) = [] := by
  refine e.eventually_of_measure (Q := fun s => f s = []) (fun s => (f s).length) ?_
  intro m hm hne
  obtain ⟨k, hk⟩ := List.exists_mem_of_ne_nil _ hne
  obtain ⟨m', hm', hout⟩ := hleaves m hm k hk
  have hle : (f (e.state m')).Sublist (f (e.state m)) := by
    refine e.always (P := fun s => (f s).Sublist (f (e.state m))) ?_ (List.Sublist.refl _) m' hm'
    intro k hk hs
    exact (hsub k (le_trans hm hk)).trans hs
  refine ⟨m', hm', .inr (lt_of_le_of_ne hle.length_le fun heq => ?_)⟩
  rw [hle.eq_of_length heq] at hout
  exact hout hk

theorem wg_empties (hwait : ∀ m ≥ n, (e.state m).pc i = .closeWait) :
    ∃ m ≥ n, (e.state m).wg = [] := by
  refine group_empties wg ?_ ?_
  · intro m hm
    rcases e.next m with ⟨-, hsame⟩ | ⟨l, -, -, hstep⟩
    · rw [hsame]
    · exact wg_sublist (good_at e m) hstep (hwait m hm)
  · intro m hm k hk
    exact tracked_leaves hfair (fun m' hm' => hwait m' (le_trans hm hm')) hk

theorem wg_wait_returns (hi : (e.state n).pc i = .closeWait) :
    ∃ m ≥ n, (e.state m).pc i = .closeEnd := by
  obtain ⟨m, hm, hmoves⟩ := leaves_stuck hfair hi (by simp) (a := .wgDone i) trivial rfl (by
      intro m hstays
      obtain ⟨m', hm', hempty⟩ := wg_empties hfair hstays
      exact ⟨m', hm', _, .wgDone (hstays m' hm') hempty⟩)
  exact ⟨m, hm, hmoves.inv⟩

/-! ## The mutex is passed on -/

/-- **The holder of the mutex releases it.** -/
theorem holder_releases (hi : ((e.state n).pc i).holds) :
    ∃ m ≥ n, ((e.state m).pc i).holds = false := by
  have hrelease : ∀ m ≥ n, ∀ q, ((e.state m).pc i).released = some q →
      ∃ m' ≥ n, ((e.state m').pc i).holds = false := by
    intro m hm q hq
    obtain ⟨m', hm', hpc⟩ := releases hfair hq
    exact ⟨m', le_trans hm hm', by rw [hpc]; exact (of_released hq).2.1⟩
  have hcloseEnd : ∀ m ≥ n, (e.state m).pc i = .closeEnd →
      ∃ m' ≥ n, ((e.state m').pc i).holds = false := by
    intro m hm hpc
    exact hrelease m hm .closeWatchers (by rw [hpc]; rfl)
  have hcloseWait : ∀ m ≥ n, (e.state m).pc i = .closeWait →
      ∃ m' ≥ n, ((e.state m').pc i).holds = false := by
    intro m hm hpc
    obtain ⟨m', hm', hend⟩ := wg_wait_returns hfair hpc
    exact hcloseEnd m' (le_trans hm hm') hend
  cases hpc : (e.state n).pc i with
  | hold r =>
    cases r with
    | openConn =>
      obtain ⟨m, hm, hend⟩ := open_ends hfair hpc
      exact hrelease m hm .returned (by rw [hend]; rfl)
    | close =>
      obtain ⟨m, hm, hwait | hend⟩ := close_body_ends hfair hpc
      · exact hcloseWait m hm hwait
      · exact hcloseEnd m hm hend
    | handler => exact hrelease n le_rfl .returned (by rw [hpc]; rfl)
    | opener c => exact hrelease n le_rfl .openerEnd (by rw [hpc]; rfl)
    | watcher c last =>
      exact hrelease n le_rfl (if last then .watcherEnd else .watching c) (by rw [hpc]; rfl)
  | openEnd => exact hrelease n le_rfl .returned (by rw [hpc]; rfl)
  | closeWait => exact hcloseWait n le_rfl hpc
  | closeEnd => exact hcloseEnd n le_rfl hpc
  | _ =>
    rw [hpc] at hi
    exact absurd hi (by simp [holds])

/-- The mutex is free again and again. -/
theorem mutex_freed (n : ℕ) : ∃ m ≥ n, (e.state m).mu = none := by
  cases hmu : (e.state n).mu with
  | none => exact ⟨n, le_rfl, hmu⟩
  | some i =>
    by_contra hnever
    -- without a free moment the holder stays the same
    have hsame : ∀ m ≥ n, (e.state m).mu = some i := by
      refine e.always (P := fun s => s.mu = some i) ?_ hmu
      intro m hm hi
      rcases e.next m with ⟨-, hstay⟩ | ⟨l, -, -, hstep⟩
      · rw [hstay]
        exact hi
      · rcases mu_step hstep with heq | hnone | hnone
        · rw [heq]
          exact hi
        · exact absurd ⟨m, hm, hnone⟩ hnever
        · exact absurd ⟨m + 1, by omega, hnone⟩ hnever
    have hholds : ((e.state n).pc i).holds := ((good_at e n).mutex i).mpr hmu
    obtain ⟨m, hm, hfree⟩ := holder_releases hfair hholds
    have hstill := ((good_at e m).mutex i).mpr (hsame m hm)
    rw [hfree] at hstill
    exact absurd hstill (by decide)

/-- **Every thread that waits for the mutex gets it.** -/
theorem gets_mutex {r : Region} (hi : (e.state n).pc i = .lock r) :
    ∃ m ≥ n, (e.state m).pc i = .hold r := by
  obtain ⟨m, hm, hmoves⟩ := leaves hfair hi (by simp) (a := .acquire i) trivial rfl (by
      intro m _
      obtain ⟨m', hm', hfree⟩ := mutex_freed hfair m
      exact ⟨m', hm', fun hpc => ⟨_, .acquire hpc hfree⟩⟩)
  exact ⟨m, hm, hmoves.inv⟩

/-! ## The watchers end -/

omit hfair in
theorem watchers_sublist {s t : State} (hok : CloseUndisturbed s l)
    (hstep : Step s l t) (hi : s.pc i = .closeWatchers) : t.wgWatcherWg.Sublist s.wgWatcherWg := by
  cases hstep with
  | @openBody j fails _ =>
    unfold openBody
    split
    · exact List.Sublist.refl _
    · split
      · exact List.Sublist.refl _
      · dsimp only
        split <;> exact List.Sublist.refl _
  | @closeBody j _ =>
    unfold closeBody
    split <;> exact List.Sublist.refl _
  | startWatcher _ _ _ => exact absurd hi (hok.2 i)
  | watcherEnds _ => exact List.filter_sublist
  | _ => exact List.Sublist.refl _

/-- A watcher is again and again out of its callbacks. -/
theorem watcher_idles (hk : ((e.state n).pc k).watches) :
    ∃ m ≥ n, (∃ c, (e.state m).pc k = .watching c) ∨ (e.state m).pc k = .watcherEnd := by
  have hhold : ∀ m ≥ n, ∀ c last, (e.state m).pc k = .hold (.watcher c last) →
      ∃ m' ≥ n, (∃ c, (e.state m').pc k = .watching c) ∨ (e.state m').pc k = .watcherEnd := by
    intro m hm c last hpc
    obtain ⟨m', hm', hq⟩ := releases hfair (n := m) (i := k)
      (q := if last then .watcherEnd else .watching c) (by rw [hpc]; rfl)
    refine ⟨m', le_trans hm hm', ?_⟩
    cases last with
    | true => exact .inr hq
    | false => exact .inl ⟨c, hq⟩
  cases hpc : (e.state n).pc k with
  | watching c => exact ⟨n, le_rfl, .inl ⟨c, hpc⟩⟩
  | watcherEnd => exact ⟨n, le_rfl, .inr hpc⟩
  | lock r =>
    cases r with
    | watcher c last =>
      obtain ⟨m, hm, hq⟩ := gets_mutex hfair hpc
      exact hhold m hm c last hq
    | _ =>
      rw [hpc] at hk
      exact absurd hk (by simp [watches])
  | hold r =>
    cases r with
    | watcher c last => exact hhold n le_rfl c last hpc
    | _ =>
      rw [hpc] at hk
      exact absurd hk (by simp [watches])
  | _ =>
    rw [hpc] at hk
    exact absurd hk (by simp [watches])

/-- **Every watcher that `Close` waits for ends.** -/
theorem watcher_leaves (hwait : ∀ m ≥ n, (e.state m).pc i = .closeWatchers) :
    ∃ m ≥ n, k ∉ (e.state m).wgWatcherWg := by
  by_contra hnever
  have hin : ∀ m ≥ n, k ∈ (e.state m).wgWatcherWg := by
    intro m hm
    by_contra hout
    exact hnever ⟨m, hm, hout⟩
  have henabled : ∀ m, ∃ m' ≥ m, Enabled Step (e.state m') (.watcherEnds k) := by
    intro m
    have hn : n ≤ max n m := le_max_left _ _
    obtain ⟨m', hm', hpos⟩ := watcher_idles hfair (((good_at e _).watchers k).mp (hin (max n m) hn))
    refine ⟨m', le_trans (le_max_right _ _) hm', _, .watcherEnds ?_⟩
    rcases hpos with ⟨c, hpc⟩ | hpc
    · have hdead : c ∉ (e.state m').live := by
        refine (good_at e m').ending i (hwait m' (le_trans hn hm')) k c ?_ ?_
        · rw [hpc]; rfl
        · rw [hpc]; rfl
      rw [hpc]
      simpa [watcherDone] using hdead
    · rw [hpc]
      rfl
  obtain ⟨m, hm, hlabel⟩ := hfair (.watcherEnds k) trivial henabled n
  rcases e.next m with ⟨hnone, -⟩ | ⟨l, hl, -, hstep⟩
  · rw [hnone] at hlabel
    exact absurd hlabel (by simp)
  · obtain rfl : l = .watcherEnds k := Option.some.inj (hl.symm.trans hlabel)
    have hmem := hin (m + 1) (by omega)
    revert hmem
    generalize e.state (m + 1) = t at hstep
    intro hmem
    cases hstep with
    | watcherEnds _ => simp at hmem

theorem watchers_empty (hwait : ∀ m ≥ n, (e.state m).pc i = .closeWatchers) :
    ∃ m ≥ n, (e.state m).wgWatcherWg = [] := by
  refine group_empties wgWatcherWg ?_ ?_
  · intro m hm
    rcases e.next m with ⟨-, hsame⟩ | ⟨l, -, hok, hstep⟩
    · rw [hsame]
    · exact watchers_sublist hok hstep (hwait m hm)
  · intro m hm k _
    exact watcher_leaves hfair (fun m' hm' => hwait m' (le_trans hm hm'))

theorem watchers_wait_returns (hi : (e.state n).pc i = .closeWatchers) :
    ∃ m ≥ n, (e.state m).pc i = .returned := by
  obtain ⟨m, hm, hmoves⟩ := leaves_stuck hfair hi (by simp) (a := .watchersDone i) trivial rfl (by
      intro m hstays
      obtain ⟨m', hm', hempty⟩ := watchers_empty hfair hstays
      exact ⟨m', hm', _, .watchersDone (hstays m' hm') hempty⟩)
  exact ⟨m, hm, hmoves.inv⟩

/-- A `Close` that waits for the mutex goes through all of its places. -/
theorem started_close_returns (hi : (e.state n).pc i = .lock .close) :
    ∃ m ≥ n, (e.state m).pc i = .returned := by
  have hend : ∀ m ≥ n, (e.state m).pc i = .closeEnd → ∃ m' ≥ n, (e.state m').pc i = .returned := by
    intro m hm hpc
    obtain ⟨m₁, hm₁, hwatch⟩ := releases hfair (n := m) (i := i) (q := .closeWatchers)
      (by rw [hpc]; rfl)
    obtain ⟨m₂, hm₂, hreturned⟩ := watchers_wait_returns hfair hwatch
    exact ⟨m₂, by omega, hreturned⟩
  obtain ⟨m₁, hm₁, hhold⟩ := gets_mutex hfair hi
  obtain ⟨m₂, hm₂, hwait | hclosed⟩ := close_body_ends hfair hhold
  · obtain ⟨m₃, hm₃, hdone⟩ := wg_wait_returns hfair hwait
    exact hend m₃ (by omega) hdone
  · exact hend m₂ (by omega) hclosed

end Executions

/-! ## The theorem -/

/-- In no state a `Close` that holds the mutex waits for a thread that waits for it, and in every
fair execution every started `Close` returns. -/
def CloseFinishes (ok : State → Label → Prop) (canUse : Bool) : Prop :=
  (∀ labels s, Transition.Run Step ok (newConn canUse) labels s → s.DeadlockFree) ∧
  ∀ e : Execution Step ok (newConn canUse), e.Fair Progress →
    ∀ n i, (e.state n).pc i = .lock .close → ∃ m ≥ n, (e.state m).pc i = .returned

/-- **Closing a connection finishes** if the connection of an opener does not meet a `Close`, and
watchers are not started under one. -/
theorem close_returns (canUse : Bool) : CloseFinishes CloseUndisturbed canUse := by
  refine ⟨fun labels s hrun => ?_, fun e hfair n i hi => ?_⟩
  · exact (good_of_run hrun).deadlockFree
  · exact started_close_returns hfair hi

theorem not_enabled_of_ended (h : ∀ i, t.pc i = .returned ∨ t.pc i = .idle) (a : Label)
    (ha : Progress a) : ¬ Enabled Step t a := by
  have hends : ∀ i, (t.pc i).released = none ∧ (t.pc i).trackedDone t.live = false ∧
      (t.pc i).watcherDone t.live = false ∧ (t.pc i).holds = false ∧ (∀ r, t.pc i ≠ .lock r) ∧
      t.pc i ≠ .closeWatchers ∧ ∀ c, t.pc i ≠ .opening c := by
    intro i
    rcases h i with hi | hi <;> simp [hi, released, trackedDone, watcherDone, holds]
  rintro ⟨u, hstep⟩
  cases hstep with
  | call c | openReady _ | startWatcher _ _ _ | watcherCalls _ | watcherStops _ => exact ha
  | @acquire i r hi _ => exact (hends i).2.2.2.2.1 r hi
  | @release i p hi => exact absurd ((hends i).1.symm.trans hi) (by simp)
  | @openBody i _ hi | @closeBody i hi | @wgDone i hi _ =>
    exact absurd (hends i).2.2.2.1 (by simp [hi, holds])
  | @watchersDone i hi _ => exact (hends i).2.2.2.2.2.1 hi
  | @openError i c hi => exact (hends i).2.2.2.2.2.2 c hi
  | @trackedEnds i hi => exact absurd ((hends i).2.1.symm.trans hi) (by decide)
  | @watcherEnds i hi => exact absurd ((hends i).2.2.1.symm.trans hi) (by decide)

/-- `Open`, then `Close` while `OpenPeerConn` is running, which returns an error. -/
theorem close_returns_after_error :
    ∃ (e : Execution Step CloseUndisturbed (newConn true)) (n m : ℕ), e.Fair Progress ∧
      (e.state n).pc 4 = .lock .close ∧ (e.state n).pc 3 = .opening 1 ∧ n ≤ m ∧
      (e.state m).pc 4 = .returned := by
  obtain ⟨s, hs, hclose, hopener, t, ht, hended⟩ : ∃ s, Transition.Run Step CloseUndisturbed
      (newConn true) [.call .openConn, .acquire 0, .openBody 0 false, .release 0, .call .close] s ∧
      s.pc 4 = .lock .close ∧ s.pc 3 = .opening 1 ∧ ∃ t, Transition.Run Step CloseUndisturbed s
        [.acquire 4, .closeBody 4, .openError 3, .trackedEnds 1, .trackedEnds 2, .trackedEnds 3,
          .wgDone 4, .release 4, .watchersDone 4] t ∧
      ∀ i, t.pc i = .returned ∨ t.pc i = .idle := by
    refine ⟨_, .go (.call .openConn) <|
      .cons (fun h => absurd h (by decide)) (.acquire rfl rfl) <|
      .go (.openBody rfl) <| .go (.release rfl) <|
      .go (.call .close) .nil, rfl, rfl, _,
      .cons (fun _ j c => ?_) (.acquire rfl rfl) <| .go (.closeBody rfl) <|
      .go (.openError rfl) <| .go (.trackedEnds rfl) <|
      .go (.trackedEnds rfl) <| .go (.trackedEnds rfl) <|
      .go (.wgDone rfl rfl) <| .go (.release rfl) <|
      .go (.watchersDone rfl rfl) .nil, fun i => ?_⟩
    · -- the only thread that waits for the mutex is `Close` itself
      rcases j with _ | _ | _ | _ | _ | j
      case succ.succ.succ.succ.zero => exact fun h => Region.noConfusion (lock.inj h)
      all_goals exact PC.noConfusion
    · rcases i with _ | _ | _ | _ | _ | i
      case succ.succ.succ.succ.succ => exact .inr rfl
      all_goals exact .inl rfl
  obtain ⟨e, n, k, hn, -, hrest⟩ := exists_resting_through hs ht
  have hfair : e.Fair Progress :=
    e.fair_of_rest (fun m hm => (hrest m hm).1) (not_enabled_of_ended hended)
  obtain ⟨m, hm, hreturned⟩ := (close_returns true).2 e hfair n 4 (by rw [hn]; exact hclose)
  exact ⟨e, n, m, hfair, by rw [hn]; exact hclose, by rw [hn]; exact hopener, hm, hreturned⟩

/-- The opener has a connection when `Close` takes the mutex: it waits for the mutex, and
`Close` waits for it. -/
theorem close_waits_for_opener : ¬ CloseFinishes (fun _ _ => True) true := by
  intro h
  obtain ⟨s, hrun, hwait, hwg, hopener, hmu⟩ : ∃ s, Transition.Run Step (fun _ _ => True)
      (newConn true) [.call .openConn, .acquire 0, .openBody 0 false, .release 0, .openReady 3,
        .call .close, .acquire 4, .closeBody 4] s ∧ s.pc 4 = .closeWait ∧ 3 ∈ s.wg ∧
      s.pc 3 = .lock (.opener 1) ∧ s.mu = some 4 :=
    ⟨_, .go (.call .openConn) <| .go (.acquire rfl rfl) <|
      .go (.openBody rfl) <| .go (.release rfl) <|
      .go (.openReady rfl) <| .go (.call .close) <|
      .go (.acquire rfl rfl) <| .go (.closeBody rfl) .nil,
      rfl, by decide, rfl, rfl⟩
  refine h.1 _ s hrun 4 3 (.inr (.inl hwait)) ?_ ⟨_, hopener⟩
  exact Relation.ReflTransGen.single (.inr (.inl ⟨hwait, hwg⟩))

end ConnClose
