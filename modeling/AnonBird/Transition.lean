/-
# Guarded runs of a transition relation

A run is a finite sequence of labelled steps from a fixed start state, and a guard `ok` restricts
which labels may be taken in which states: `fun _ _ => True` for a statement about every run, and
the exact side condition for a statement about the runs on which the code behaves.
-/
import Mathlib

namespace Transition

variable {σ α : Type*} {step : σ → α → σ → Prop} {ok : σ → α → Prop} {s₀ : σ}

/-- A finite run of `step` from `s₀`, with its labels in order, all of whose steps
satisfy the guard `ok` in the state they are taken from. -/
inductive Run (step : σ → α → σ → Prop) (ok : σ → α → Prop) (s₀ : σ) : List α → σ → Prop
  | nil : Run step ok s₀ [] s₀
  | snoc {as : List α} {s t : σ} {a : α} :
      Run step ok s₀ as s → ok s a → step s a t → Run step ok s₀ (as ++ [a]) t

variable {as : List α} {s : σ}

/-- **The invariant rule.**  A property of the history and the state that holds at
the start and is kept by every guarded step holds at the end of every run. -/
theorem Run.invariant {P : List α → σ → Prop} (h0 : P [] s₀)
    (hstep : ∀ as s a t, P as s → ok s a → step s a t → P (as ++ [a]) t) (h : Run step ok s₀ as s) :
    P as s := by
  induction h with
  | nil => exact h0
  | snoc _ hok hs ih => exact hstep _ _ _ _ ih hok hs

variable {s₁ t : σ} {a : α}

/-- A run may also be read from its first step on. -/
theorem Run.cons (hok : ok s₀ a) (hs : step s₀ a s₁)
    (h : Run step ok s₁ as t) : Run step ok s₀ (a :: as) t := by
  induction h with
  | nil => exact .snoc .nil hok hs
  | snoc _ hok' hs' ih => exact .snoc ih hok' hs'

/-- A first step whose guard is trivial. -/
theorem Run.go (hs : step s₀ a s₁) (h : Run step ok s₁ as t)
    (hok : ok s₀ a := by trivial) : Run step ok s₀ (a :: as) t := .cons hok hs h

theorem Run.mono {ok' : σ → α → Prop} (hw : ∀ s a, ok s a → ok' s a) (h : Run step ok s₀ as s) : Run
    step ok' s₀ as s := by
  induction h with
  | nil => exact .nil
  | snoc _ hok hs ih => exact .snoc ih (hw _ _ hok) hs

/-- A run that is there with one property is there with what follows from it. -/
theorem Run.exists_imp {P Q : σ → Prop} (h : ∀ s, Run step ok s₀ as s → P s → Q s)
    (hrun : ∃ s, Run step ok s₀ as s ∧ P s) : ∃ s, Run step ok s₀ as s ∧ Q s :=
  hrun.imp fun s hs => ⟨hs.1, h s hs.1 hs.2⟩

/-! ## Laws of histories -/

/-- **The law rule.** A law of histories that the next event keeps exactly when a condition holds of
it holds all along exactly when the condition holds of each event. -/
theorem forall_prefix_iff {P : List α → Prop} {kept : List α → α → Prop} {es : List α}
    (h0 : P []) (hstep : ∀ pre e, pre ++ [e] <+: es → P pre → (P (pre ++ [e]) ↔ kept pre e)) :
    (∀ pre, pre <+: es → P pre) ↔ ∀ pre e, pre ++ [e] <+: es → kept pre e := by
  constructor
  · intro h pre e hpre
    have hshort : pre <+: es := (List.prefix_append pre [e]).trans hpre
    exact (hstep pre e hpre (h pre hshort)).mp (h (pre ++ [e]) hpre)
  · intro h pre
    induction pre using List.reverseRecOn with
    | nil =>
      intro _
      exact h0
    | append_singleton pre e ih =>
      intro hpre
      have hshort : pre <+: es := (List.prefix_append pre [e]).trans hpre
      exact (hstep pre e hpre (ih hshort)).mpr (h pre e hpre)

end Transition
