/-
# Fair executions

Infinite executions of a labelled transition relation, in which time may also pass
without a step, and strong fairness: a step that is possible again and again is taken
again and again.

The rule `Execution.leadsTo` is all that proofs of progress use: as long as the goal is
not reached a condition is kept, under it a fair step is possible again and again, and
taking that step reaches the goal.
-/
import AnonBird.Transition

namespace Fairness

open Transition

variable {σ α : Type*} {step : σ → α → σ → Prop} {ok : σ → α → Prop} {s₀ : σ}

/-- An infinite execution from `s₀`: the state at every time, and the step taken from it,
if any.  All steps satisfy the guard `ok`. -/
structure Execution (step : σ → α → σ → Prop) (ok : σ → α → Prop) (s₀ : σ) where
  state : ℕ → σ
  label : ℕ → Option α
  start : state 0 = s₀
  next : ∀ n, (label n = none ∧ state (n + 1) = state n) ∨
    ∃ a, label n = some a ∧ ok (state n) a ∧ step (state n) a (state (n + 1))

/-- The step is possible. -/
def Enabled (step : σ → α → σ → Prop) (s : σ) (a : α) : Prop := ∃ t, step s a t

variable (e : Execution step ok s₀)

/-- Strong fairness for the labels in `fair`: a step that is possible infinitely often is
taken infinitely often. -/
def Execution.Fair (fair : α → Prop) : Prop :=
  ∀ a, fair a → (∀ n, ∃ m ≥ n, Enabled step (e.state m) a) → ∀ n, ∃ m ≥ n, e.label m = some a

theorem Execution.run (n : ℕ) : ∃ as, Run step ok s₀ as (e.state n) := by
  induction n with
  | zero =>
    rw [e.start]
    exact ⟨[], .nil⟩
  | succ n ih =>
    obtain ⟨as, hrun⟩ := ih
    rcases e.next n with ⟨-, hsame⟩ | ⟨a, -, hok, hstep⟩
    · rw [hsame]
      exact ⟨as, hrun⟩
    · exact ⟨as ++ [a], .snoc hrun hok hstep⟩

variable {n : ℕ}

/-- What every step keeps, and time too, holds from some time on. -/
theorem Execution.always {P : σ → Prop}
    (hnext : ∀ m ≥ n, P (e.state m) → P (e.state (m + 1))) (hn : P (e.state n)) :
    ∀ m ≥ n, P (e.state m) := by
  intro m hm
  induction m, hm using Nat.le_induction with
  | base => exact hn
  | succ m hm ih => exact hnext m hm ih

variable {fair : α → Prop} {a : α}

/-- **Progress.** While `Q` is not reached `P` is kept, under `P` a fair step is possible again and
again, and it leads to `Q`: then `Q` is reached. -/
theorem Execution.leadsTo (hfair : e.Fair fair) {P Q : σ → Prop} (ha : fair a)
    (hkeep : ∀ m ≥ n, P (e.state m) → P (e.state (m + 1)) ∨ Q (e.state (m + 1)))
    (henabled : ∀ m ≥ n, ∃ m' ≥ m, P (e.state m') → Enabled step (e.state m') a)
    (htaken : ∀ m ≥ n, P (e.state m) → e.label m = some a → Q (e.state (m + 1)))
    (hn : P (e.state n)) : ∃ m ≥ n, Q (e.state m) := by
  by_contra hnever
  have hnot : ∀ m ≥ n, ¬ Q (e.state m) := fun m hm hq => hnever ⟨m, hm, hq⟩
  have hP : ∀ m ≥ n, P (e.state m) :=
    e.always (fun m hm hp => (hkeep m hm hp).resolve_right (hnot _ (by omega))) hn
  obtain ⟨m, hm, hlabel⟩ := hfair a ha (fun k => by
    obtain ⟨m', hm', hen⟩ := henabled (max n k) (le_max_left _ _)
    exact ⟨m', le_trans (le_max_right _ _) hm', hen (hP m' (le_trans (le_max_left _ _) hm'))⟩) n
  exact hnot (m + 1) (by omega) (htaken m hm (hP m hm) hlabel)

/-- Progress in finitely many rounds: while the goal is not reached a measure can be brought
down. -/
theorem Execution.eventually_of_measure {Q : σ → Prop} (f : σ → ℕ)
    (hdown : ∀ m ≥ n, ¬ Q (e.state m) →
      ∃ m' ≥ m, Q (e.state m') ∨ f (e.state m') < f (e.state m)) : ∃ m ≥ n, Q (e.state m) := by
  have h : ∀ r m, m ≥ n → f (e.state m) = r → ∃ m' ≥ n, Q (e.state m') := by
    intro r
    induction r using Nat.strong_induction_on with
    | _ r ih =>
      intro m hm hr
      by_cases hq : Q (e.state m)
      · exact ⟨m, hm, hq⟩
      · obtain ⟨m', hm', hq' | hlt⟩ := hdown m hm hq
        · exact ⟨m', le_trans hm hm', hq'⟩
        · exact ih _ (hr ▸ hlt) m' (le_trans hm hm') rfl
  exact h _ n le_rfl rfl

/-! ## Executions that come to rest -/

variable {s t : σ} {k : ℕ}

/-- An execution that rests in `s` can take one more step and rest behind it. -/
theorem Execution.extend
    (hrest : ∀ m ≥ k, e.state m = s ∧ e.label m = none) (hok : ok s a) (hstep : step s a t) :
    ∃ e' : Execution step ok s₀, (∀ m ≤ k, e'.state m = e.state m) ∧
      ∀ m ≥ k + 1, e'.state m = t ∧ e'.label m = none := by
  refine ⟨⟨fun m => if m ≤ k then e.state m else t,
    fun m => if m < k then e.label m else if m = k then some a else none, ?_, ?_⟩, ?_, ?_⟩
  · rw [if_pos (Nat.zero_le k)]
    exact e.start
  · intro m
    rcases lt_trichotomy m k with hlt | rfl | hgt
    · rw [if_pos hlt, if_pos (by omega : m + 1 ≤ k), if_pos (by omega : m ≤ k)]
      exact e.next m
    · right
      rw [if_neg (lt_irrefl m), if_pos rfl, if_pos le_rfl, if_neg (by omega : ¬ m + 1 ≤ m),
        (hrest m le_rfl).1]
      exact ⟨a, rfl, hok, hstep⟩
    · left
      rw [if_neg (by omega : ¬ m < k), if_neg (by omega : ¬ m = k),
        if_neg (by omega : ¬ m + 1 ≤ k), if_neg (by omega : ¬ m ≤ k)]
      exact ⟨rfl, rfl⟩
  · intro m hm
    exact if_pos hm
  · intro m hm
    exact ⟨if_neg (by omega), by
      show (if m < k then e.label m else if m = k then some a else none) = none
      rw [if_neg (by omega), if_neg (by omega)]⟩

theorem exists_resting {as : List α} {s : σ} (h : Run step ok s₀ as s) :
    ∃ (e : Execution step ok s₀) (k : ℕ), ∀ m ≥ k, e.state m = s ∧ e.label m = none := by
  induction h with
  | nil =>
    exact ⟨⟨fun _ => s₀, fun _ => none, rfl, fun _ => .inl ⟨rfl, rfl⟩⟩, 0, fun _ _ => ⟨rfl, rfl⟩⟩
  | snoc _ hok hstep ih =>
    obtain ⟨e, k, hrest⟩ := ih
    obtain ⟨e', -, hrest'⟩ := e.extend hrest hok hstep
    exact ⟨e', k + 1, hrest'⟩

theorem exists_resting_through {as bs : List α} (h₁ : Run step ok s₀ as s)
    (h₂ : Run step ok s bs t) : ∃ (e : Execution step ok s₀) (n k : ℕ), e.state n = s ∧ n ≤ k ∧
      ∀ m ≥ k, e.state m = t ∧ e.label m = none := by
  induction h₂ with
  | nil =>
    obtain ⟨e, k, hrest⟩ := exists_resting h₁
    exact ⟨e, k, k, (hrest k le_rfl).1, le_rfl, hrest⟩
  | snoc _ hok hstep ih =>
    obtain ⟨e, n, k, hn, hnk, hrest⟩ := ih
    obtain ⟨e', hsame, hrest'⟩ := e.extend hrest hok hstep
    exact ⟨e', n, k + 1, (hsame n hnk).trans hn, by omega, hrest'⟩

theorem Execution.fair_of_rest {t : σ}
    (hrest : ∀ m ≥ k, e.state m = t) (hstuck : ∀ a, fair a → ¬ Enabled step t a) : e.Fair fair := by
  intro a ha hen
  obtain ⟨m, hm, hm'⟩ := hen k
  rw [hrest m hm] at hm'
  exact absurd hm' (hstuck a ha)

end Fairness
