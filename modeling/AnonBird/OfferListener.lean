/-
# The listener of remote offers

`Notify` of `AsyncOfferListener` leaves an offer in a slot, and starts a goroutine that passes
offers to the callback unless one is running.  The goroutine passes the offer it was given and then
what it finds in the slot, where the first offer still is if no other one has come
(`offer_passed_twice`).
-/
import AnonBird.Transition

open List

namespace OfferListener

variable {O : Type}

/-- `AsyncOfferListener` with its goroutines.  One that is about to call the callback has the offer
it will pass, one in the callback has none.  The offers notified and passed are recorded. -/
structure AsyncOfferListener (O : Type) where
  running : Bool := false
  latest : Option O := none
  workers : List (Option O) := []
  notified : List O := []
  passed : List O := []

namespace AsyncOfferListener

variable (o : AsyncOfferListener O)

/-- `Notify`, up to the start of the goroutine. -/
def notify (remoteOfferAnswer : O) : AsyncOfferListener O :=
  let notified := o.notified ++ [remoteOfferAnswer]
  let o := { o with latest := some remoteOfferAnswer, notified }
  if o.running then o
  else { o with running := true, workers := o.workers ++ [some remoteOfferAnswer] }

/-- The offers that have been passed or are about to be. -/
def handed : List O := o.passed ++ o.workers.reduceOption

end AsyncOfferListener

open AsyncOfferListener

/-- What may happen next: a notification, the call of the callback, or its return. -/
inductive Label (O : Type) where
  | notify (remoteOfferAnswer : O)
  | call
  | callReturns

/-- `Notify`, the call of the callback by a goroutine, and what the goroutine does under the lock
when the callback returns. -/
inductive Step : AsyncOfferListener O → Label O → AsyncOfferListener O → Prop
  | notify {o} (offer : O) : Step o (.notify offer) (o.notify offer)
  | call {o u v offer} (hw : o.workers = u ++ some offer :: v) :
      Step o .call { o with workers := u ++ none :: v, passed := o.passed ++ [offer] }
  | stop {o u v} (hw : o.workers = u ++ none :: v) (hlatest : o.latest = none) :
      Step o .callReturns { o with running := false, workers := u ++ v }
  | take {o u v offer} (hw : o.workers = u ++ none :: v) (hlatest : o.latest = some offer) :
      Step o .callReturns { o with latest := none, workers := u ++ some offer :: v }

/-! ## When notifications come -/

/-- Where a goroutine stands, by the order of notifications and returns alone. -/
inductive Phase where
  /-- There is none. -/
  | idle
  /-- A notification has started one, and no other has come since. -/
  | started
  /-- A notification has come that it has not seen. -/
  | behind
  /-- It has seen all notifications. -/
  | level
  deriving DecidableEq

/-- The phase after a notification or a return; a return in the phase `started` has none. -/
def Phase.next : Phase → Label O → Option Phase
  | .idle, .notify _ => some .started
  | .started, .notify _ => some .behind
  | .level, .notify _ => some .behind
  | .started, .callReturns => none
  | .behind, .callReturns => some .level
  | .level, .callReturns => some .idle
  | ph, _ => some ph

/-- The phase at the end of a run. -/
def phase (labels : List (Label O)) : Option Phase := labels.foldlM Phase.next .idle

/-- Whenever the callback that a notification has started returns, another notification has come
in the meantime. -/
def Renewed (labels : List (Label O)) : Prop := phase labels ≠ none

theorem phase_concat (labels : List (Label O)) (l : Label O) :
    phase (labels ++ [l]) = (phase labels).bind fun ph => ph.next l := by
  unfold phase
  rw [foldlM_append]
  cases labels.foldlM Phase.next .idle with
  | none => rfl
  | some ph => simp

/-! ## Every run -/

/-- One goroutine runs at most, and the slot and what was handed on are up to date. -/
structure Good (o : AsyncOfferListener O) : Prop where
  workers : (o.running = true ∧ ∃ w, o.workers = [w]) ∨
    (o.running = false ∧ o.workers = [] ∧ o.latest = none)
  empty : o.latest = none → o.handed.getLast? = o.notified.getLast?
  full : ∀ offer ∈ o.latest, o.notified.getLast? = some offer

variable {o o' : AsyncOfferListener O}

theorem Good.alone (h : Good o) {u v : List (Option O)} {w : Option O}
    (hw : o.workers = u ++ w :: v) : o.running = true ∧ u = [] ∧ v = [] := by
  rcases h.workers with ⟨hrunning, w', hone⟩ | ⟨-, hnone, -⟩
  · rw [hone, eq_comm, append_eq_singleton_iff] at hw
    simp only [cons_ne_nil, cons.injEq, and_false, or_false] at hw
    exact ⟨hrunning, hw.1, hw.2.2⟩
  · simp [hnone] at hw

/-- What a step does to a listener with one goroutine at most. -/
theorem Good.step_cases {l : Label O} (h : Good o) (hstep : Step o l o') :
    (∃ offer, l = .notify offer ∧ o.running = true ∧
      o' = { o with latest := some offer, notified := o.notified ++ [offer] }) ∨
    (∃ offer, l = .notify offer ∧ o.running = false ∧ o' =
      { o with running := true, latest := some offer, workers := [some offer],
               notified := o.notified ++ [offer] } ∧ o'.handed = o.handed ++ [offer]) ∨
    (l = .call ∧ o.running = true ∧ o'.handed = o.handed ∧
      ∃ offer, o' = { o with workers := [none], passed := o.passed ++ [offer] }) ∨
    (l = .callReturns ∧ o.running = true ∧ o.latest = none ∧
      o' = { o with running := false, workers := [] } ∧ o'.handed = o.handed) ∨
    ∃ offer, l = .callReturns ∧ o.running = true ∧ o.latest = some offer ∧
      o' = { o with latest := none, workers := [some offer] } ∧
      o'.handed = o.handed ++ [offer] := by
  cases hstep with
  | notify offer =>
    obtain ⟨running, latest, workers, notified, passed⟩ := o
    rcases h.workers with ⟨rfl, -⟩ | ⟨rfl, rfl, rfl⟩
    · exact .inl ⟨offer, rfl, rfl, rfl⟩
    · refine .inr (.inl ⟨offer, rfl, rfl, rfl, ?_⟩)
      simp [AsyncOfferListener.notify, handed]
  | @call u v offer hw =>
    obtain ⟨hrunning, rfl, rfl⟩ := h.alone hw
    refine .inr (.inr (.inl ⟨rfl, hrunning, ?_, offer, rfl⟩))
    simp [handed, hw]
  | stop hw hlatest =>
    obtain ⟨hrunning, rfl, rfl⟩ := h.alone hw
    refine .inr (.inr (.inr (.inl ⟨rfl, hrunning, hlatest, rfl, ?_⟩)))
    simp [handed, hw]
  | @take u v offer hw hlatest =>
    obtain ⟨hrunning, rfl, rfl⟩ := h.alone hw
    refine .inr (.inr (.inr (.inr ⟨offer, rfl, hrunning, hlatest, rfl, ?_⟩)))
    simp [handed, hw]

theorem Good.step {l : Label O} (h : Good o) (hstep : Step o l o') : Good o' := by
  have hrunning : o.running = true → ∃ w, o.workers = [w] := by
    intro hrun
    rcases h.workers with ⟨-, hone⟩ | ⟨hidle, -⟩
    · exact hone
    · simp [hrun] at hidle
  obtain ⟨offer, -, hrun, rfl⟩ | ⟨offer, -, -, rfl, -⟩ | ⟨-, hrun, hhanded, offer, rfl⟩ |
    ⟨-, -, hlatest, rfl, hhanded⟩ | ⟨offer, -, hrun, hlatest, rfl, hhanded⟩ := h.step_cases hstep
  · exact ⟨.inl ⟨hrun, hrunning hrun⟩, by simp, by simp⟩
  · exact ⟨.inl ⟨rfl, _, rfl⟩, by simp, by simp⟩
  · refine ⟨.inl ⟨hrun, _, rfl⟩, fun hempty => ?_, h.full⟩
    rw [hhanded]
    exact h.empty hempty
  · refine ⟨.inr ⟨rfl, rfl, hlatest⟩, fun hempty => ?_, h.full⟩
    rw [hhanded]
    exact h.empty hempty
  · refine ⟨.inl ⟨hrun, _, rfl⟩, fun _ => ?_, by simp⟩
    rw [hhanded, getLast?_concat]
    exact (h.full offer hlatest).symm

/-! ## What was handed on -/

/-- What the phase says about the slot and the offers that were handed on. -/
def Tracked (o : AsyncOfferListener O) : Option Phase → Prop
  | none => ¬ o.handed.Nodup
  | some .idle => o.running = false ∧ o.handed <+ o.notified
  | some .started => o.running = true ∧ o.handed <+ o.notified ∧
      ∃ offer ∈ o.handed, o.latest = some offer
  | some .behind => o.running = true ∧
      ∃ offer before, o.latest = some offer ∧ o.notified = before ++ [offer] ∧ o.handed <+ before
  | some .level => o.running = true ∧ o.latest = none ∧ o.handed <+ o.notified

theorem Tracked.step {l : Label O} {ph : Option Phase} (h : Tracked o ph) (hgood : Good o)
    (hstep : Step o l o') : Tracked o' (ph.bind fun p => p.next l) := by
  obtain ⟨offer, rfl, hrun, rfl⟩ | ⟨offer, rfl, hrun, rfl, hhanded⟩ |
    ⟨rfl, hrun, hhanded, offer, rfl⟩ | ⟨rfl, hrun, hlatest, rfl, hhanded⟩ |
    ⟨offer, rfl, hrun, hlatest, rfl, hhanded⟩ := hgood.step_cases hstep
  · match ph, h with
    | none, h => exact h
    | some .idle, h => simp [Tracked, hrun] at h
    | some .started, h => exact ⟨hrun, offer, o.notified, rfl, rfl, h.2.1⟩
    | some .behind, ⟨_, last, before, _, hnotified, hsub⟩ =>
      refine ⟨hrun, offer, o.notified, rfl, rfl, hsub.trans ?_⟩
      rw [hnotified]
      exact sublist_append_left before [last]
    | some .level, h => exact ⟨hrun, offer, o.notified, rfl, rfl, h.2.2⟩
  · match ph, h with
    | none, h => exact fun hnodup => h ((hhanded ▸ hnodup).sublist (sublist_append_left _ _))
    | some .idle, h =>
      refine ⟨rfl, ?_, offer, ?_, rfl⟩
      · rw [hhanded]
        exact h.2.append_right [offer]
      · rw [hhanded]
        exact mem_append_right _ (mem_singleton_self offer)
    | some .started, h => simp [Tracked, hrun] at h
    | some .behind, h => simp [Tracked, hrun] at h
    | some .level, h => simp [Tracked, hrun] at h
  · match ph, h with
    | none, h => exact fun hnodup => h (hhanded ▸ hnodup)
    | some .idle, h => simp [Tracked, hrun] at h
    | some .started, ⟨_, hsub, hmem⟩ => exact ⟨hrun, by rwa [hhanded], by rwa [hhanded]⟩
    | some .behind, ⟨_, last, before, hlatest, hnotified, hsub⟩ =>
      exact ⟨hrun, last, before, hlatest, hnotified, by rwa [hhanded]⟩
    | some .level, ⟨_, hlatest, hsub⟩ => exact ⟨hrun, hlatest, by rwa [hhanded]⟩
  · match ph, h with
    | none, h => exact fun hnodup => h (hhanded ▸ hnodup)
    | some .idle, h => simp [Tracked, hrun] at h
    | some .started, h => simp [Tracked, hlatest] at h
    | some .behind, h => simp [Tracked, hlatest] at h
    | some .level, h => exact ⟨rfl, by rw [hhanded]; exact h.2.2⟩
  · match ph, h with
    | none, h => exact fun hnodup => h ((hhanded ▸ hnodup).sublist (sublist_append_left _ _))
    | some .idle, h => simp [Tracked, hrun] at h
    | some .started, ⟨_, _, last, hmem, hlast⟩ =>
      -- The slot still has the offer that the goroutine was started with.
      obtain rfl : last = offer := Option.some.inj (hlast.symm.trans hlatest)
      intro hnodup
      rw [hhanded, nodup_append] at hnodup
      exact hnodup.2.2 last hmem last (mem_singleton_self last) rfl
    | some .behind, ⟨_, last, before, hlast, hnotified, hsub⟩ =>
      obtain rfl : last = offer := Option.some.inj (hlast.symm.trans hlatest)
      refine ⟨hrun, rfl, ?_⟩
      rw [hhanded]
      exact hnotified ▸ hsub.append_right [last]
    | some .level, h => simp [Tracked, hlatest] at h

open Transition

/-- **Offers are processed one at a time and the newest always**, in every run.  Every offer is
passed once if every callback that a notification starts returns after another notification, and
otherwise one of them is handed to the callback twice. -/
theorem offers_passed_once (labels : List (Label O)) (o : AsyncOfferListener O)
    (hrun : Run Step (fun _ _ => True) {} labels o) :
    o.workers.countP Option.isNone ≤ 1 ∧
      (o.workers = [] → o.passed.getLast? = o.notified.getLast?) ∧
      (Renewed labels → o.passed <+ o.notified) ∧ (¬ Renewed labels → ¬ o.handed.Nodup) := by
  have hnew : Good ({} : AsyncOfferListener O) := ⟨.inr ⟨rfl, rfl, rfl⟩, fun _ => rfl, by simp⟩
  have h : Good o ∧ Tracked o (phase labels) := by
    refine hrun.invariant (P := fun labels o => Good o ∧ Tracked o (phase labels))
      ⟨hnew, rfl, Sublist.refl []⟩ ?_
    intro as s a t hs _ hstep
    rw [phase_concat]
    exact ⟨hs.1.step hstep, hs.2.step hs.1 hstep⟩
  obtain ⟨hgood, htracked⟩ := h
  have hpassed : o.passed <+ o.handed := sublist_append_left o.passed o.workers.reduceOption
  refine ⟨?_, ?_, ?_, ?_⟩
  · rcases hgood.workers with ⟨-, w, hone⟩ | ⟨-, hnone, -⟩
    · rw [hone]
      exact countP_le_length
    · rw [hnone]
      exact zero_le_one
  · intro hidle
    rcases hgood.workers with ⟨-, w, hone⟩ | ⟨-, hnone, hlatest⟩
    · simp [hidle] at hone
    · have hlast := hgood.empty hlatest
      simpa [handed, hnone] using hlast
  · intro hrenewed
    unfold Renewed at hrenewed
    match hph : phase labels, hrenewed with
    | some .idle, _ => exact hpassed.trans (hph ▸ htracked).2
    | some .started, _ => exact hpassed.trans (hph ▸ htracked).2.1
    | some .level, _ => exact hpassed.trans (hph ▸ htracked).2.2
    | some .behind, _ =>
      rw [hph] at htracked
      obtain ⟨-, offer, before, -, hnotified, hsub⟩ := htracked
      rw [hnotified]
      exact hpassed.trans (hsub.trans (sublist_append_left before [offer]))
  · intro hnot
    rw [Renewed, not_not] at hnot
    rwa [hnot] at htracked

/-- One offer is notified, and passed twice. -/
theorem offer_passed_twice : ∃ o : AsyncOfferListener ℕ, Run Step (fun _ _ => True) {}
    [.notify 7, .call, .callReturns, .call] o ∧ o.notified = [7] ∧ o.passed = [7, 7] :=
  ⟨_, .go (.notify 7) (.go (.call (u := []) rfl) (.go (.take (u := []) rfl rfl)
    (.go (.call (u := []) rfl) .nil))), rfl, rfl⟩

/-- Two offers come before the first callback returns, and each is passed once. -/
theorem two_offers_passed_once : ∃ o : AsyncOfferListener ℕ, Run Step (fun _ _ => True) {}
    [.notify 7, .notify 8, .call, .callReturns, .call, .callReturns] o ∧ o.passed <+ o.notified ∧
      o.passed.getLast? = o.notified.getLast? := by
  refine Run.exists_imp (P := fun o => o.workers = []) ?_ ?_
  · intro o hrun hidle
    obtain ⟨-, hnewest, honce, -⟩ := offers_passed_once _ o hrun
    exact ⟨honce (by simp [Renewed, phase, Phase.next]), hnewest hidle⟩
  · exact ⟨_, .go (.notify 7) (.go (.notify 8) (.go (.call (u := []) rfl)
      (.go (.take (u := []) rfl rfl) (.go (.call (u := []) rfl)
      (.go (.stop (u := []) rfl rfl) .nil))))), rfl⟩

end OfferListener
