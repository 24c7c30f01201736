/-
# Loops that may fail

Rules for computations in `Except`: how a sequence succeeds, and what a loop with an
accumulator keeps.  A property that each turn keeps holds of the result; and a loop whose
turns all succeed under the property succeeds.
-/
import Mathlib

open List

namespace Except

universe u v

variable {ε : Type u} {σ α β : Type v} {x : Except ε α} {f : α → Except ε β}

theorem bind_eq_ok {b : β} : (x >>= f) = .ok b ↔ ∃ y, x = .ok y ∧ f y = .ok b := by
  cases x with
  | error e | ok y => simp [bind, Except.bind]

theorem bind_succeeds (hx : ∃ y, x = .ok y) (hf : ∀ y, ∃ z, f y = .ok z) :
    ∃ z, (x >>= f) = .ok z := by
  obtain ⟨y, rfl⟩ := hx
  exact hf y

theorem map_eq_ok {γ : Type*} {f : α → γ} {b : γ} : x.map f = .ok b ↔ ∃ y, x = .ok y ∧ f y = b := by
  cases x with
  | error e | ok y => simp [Except.map]

/-- What a decision procedure finds of the result. -/
theorem exists_of_decide {P : α → Prop} [DecidablePred P]
    (h : (x.map fun y => decide (P y)) = .ok true) : ∃ y, x = .ok y ∧ P y := by
  obtain ⟨y, hy, hP⟩ := map_eq_ok.mp h
  exact ⟨y, hy, of_decide_eq_true hP⟩

variable {l : List α}

theorem foldlM_keeps {f : σ → α → Except ε σ} {P : σ → Prop} {s t : σ}
    (hstep : ∀ s x t, x ∈ l → P s → f s x = .ok t → P t) (hs : P s) (h : l.foldlM f s = .ok t) :
    P t := by
  induction l generalizing s with
  | nil =>
    cases h
    exact hs
  | cons x l ih =>
    obtain ⟨u, hu, hrest⟩ := bind_eq_ok.mp h
    apply ih _ (hstep s x u (by simp) hs hu) hrest
    intro s' y t' hy
    exact hstep s' y t' (by simp [hy])

/-- What the turn for one element attains, and every turn keeps, holds at the end. -/
theorem foldlM_attains {f : σ → α → Except ε σ} {P Q : σ → Prop} {s t : σ} {x : α} (hx : x ∈ l)
    (hkeeps : ∀ s y t, y ∈ l → P s → f s y = .ok t → P t)
    (hattains : ∀ s t, P s → f s x = .ok t → Q t)
    (hkept : ∀ s y t, y ∈ l → Q s → f s y = .ok t → Q t) (hs : P s) (h : l.foldlM f s = .ok t) :
    Q t := by
  induction l generalizing s with
  | nil => simp at hx
  | cons y l ih =>
    obtain ⟨u, hu, hrest⟩ := bind_eq_ok.mp h
    have hlater : ∀ {z}, z ∈ l → z ∈ y :: l := mem_cons_of_mem y
    rcases mem_cons.mp hx with rfl | hx
    · exact foldlM_keeps (fun s z t hz => hkept s z t (hlater hz)) (hattains s u hs hu) hrest
    · exact ih hx (fun s z t hz => hkeeps s z t (hlater hz))
        (fun s z t hz => hkept s z t (hlater hz)) (hkeeps s y u mem_cons_self hs hu) hrest

theorem mem_of_mapM {ys : List β} (h : l.mapM f = .ok ys) {y : β} :
    y ∈ ys ↔ ∃ x ∈ l, f x = .ok y := by
  induction l generalizing ys with
  | nil =>
    cases h
    simp
  | cons x l ih =>
    rw [mapM_cons] at h
    obtain ⟨z, hz, hrest⟩ := bind_eq_ok.mp h
    obtain ⟨zs, hzs, he⟩ := bind_eq_ok.mp hrest
    cases he
    rw [mem_cons, ih hzs]
    constructor
    · rintro (rfl | ⟨x', hx', hy⟩)
      · exact ⟨x, by simp, hz⟩
      · exact ⟨x', by simp [hx'], hy⟩
    · rintro ⟨x', hx', hy⟩
      rcases mem_cons.mp hx' with rfl | hx'
      · exact .inl (ok.inj (hy.symm.trans hz))
      · exact .inr ⟨x', hx', hy⟩

theorem mapM_succeeds (h : ∀ x ∈ l, ∃ y, f x = .ok y) : ∃ ys, l.mapM f = .ok ys := by
  induction l with
  | nil => exact ⟨[], rfl⟩
  | cons x l ih =>
    obtain ⟨y, hy⟩ := h x (by simp)
    obtain ⟨ys, hys⟩ := ih fun x' hx' => h x' (by simp [hx'])
    exact ⟨y :: ys, by rw [mapM_cons, hy, hys]; rfl⟩

end Except
