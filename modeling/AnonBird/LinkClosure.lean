/-
# Closure under links

The set that some points lead to along the links of a list, found by rounds over the list until one
of them adds nothing.
-/
import Mathlib.Data.Finset.Card
import Mathlib.Logic.Relation

open List Relation

namespace LinkClosure

variable {α : Type*} [DecidableEq α]

/-- A link is followed. -/
def follow (s : Finset α) (link : α × α) : Finset α :=
  if link.1 ∈ s then insert link.2 s else s

/-- Every link is followed once. -/
def round (links : List (α × α)) (s : Finset α) : Finset α := links.foldl follow s

section

variable {links : List (α × α)} {s : Finset α} {link : α × α}

theorem subset_follow : s ⊆ follow s link := by
  unfold follow
  split_ifs
  · exact Finset.subset_insert _ _
  · exact Finset.Subset.refl s

theorem subset_round : s ⊆ round links s :=
  foldlRecOn links follow (Finset.Subset.refl s) fun _ h _ _ => h.trans subset_follow

theorem snd_mem_round (hlink : link ∈ links) (h : link.1 ∈ s) : link.2 ∈ round links s := by
  induction links generalizing s with
  | nil => cases hlink
  | cons first links ih =>
    rcases mem_cons.mp hlink with rfl | hlink
    · refine subset_round (s := follow s link) ?_
      rw [follow, if_pos h]
      exact Finset.mem_insert_self _ _
    · exact ih hlink (subset_follow h)

theorem round_induction {P : α → Prop} (hs : ∀ a ∈ s, P a)
    (hlinks : ∀ link ∈ links, P link.1 → P link.2) : ∀ a ∈ round links s, P a := by
  refine foldlRecOn (motive := fun s => ∀ a ∈ s, P a) links follow hs ?_
  intro s hs link hlink a ha
  unfold follow at ha
  split_ifs at ha with h
  · rcases Finset.mem_insert.mp ha with rfl | ha
    · exact hlinks link hlink (hs _ h)
    · exact hs a ha
  · exact hs a ha

/-- A round that adds something leaves fewer second ends to add. -/
theorem card_sdiff_round_lt (h : round links s ≠ s) :
    ((links.map Prod.snd).toFinset \ round links s).card <
      ((links.map Prod.snd).toFinset \ s).card := by
  obtain ⟨a, ha, hnew⟩ := Finset.exists_of_ssubset (subset_round.ssubset_of_ne h.symm)
  have hsnd : a ∈ s ∨ a ∈ (links.map Prod.snd).toFinset :=
    round_induction (P := fun a => a ∈ s ∨ a ∈ (links.map Prod.snd).toFinset) (fun _ => .inl)
      (fun link hlink _ => .inr (mem_toFinset.mpr (mem_map_of_mem hlink))) a ha
  refine Finset.card_lt_card ((Finset.ssubset_iff_of_subset ?_).mpr ⟨a, ?_, fun h => ?_⟩)
  · exact Finset.sdiff_subset_sdiff (Finset.Subset.refl _) subset_round
  · exact Finset.mem_sdiff.mpr ⟨hsnd.resolve_left hnew, hnew⟩
  · exact (Finset.mem_sdiff.mp h).2 ha

end

/-- Rounds, until nothing is added. -/
def linked (links : List (α × α)) (s : Finset α) : Finset α :=
  if round links s = s then s else linked links (round links s)
termination_by ((links.map Prod.snd).toFinset \ s).card
decreasing_by exact card_sdiff_round_lt ‹_›

theorem mem_linked_iff (links : List (α × α)) (s : Finset α) (b : α) :
    b ∈ linked links s ↔ ∃ a ∈ s, ReflTransGen (fun a b => (a, b) ∈ links) a b := by
  fun_induction linked links s with
  | case1 s hdone =>
    refine ⟨fun hb => ⟨b, hb, .refl⟩, ?_⟩
    rintro ⟨a, ha, hlinks⟩
    induction hlinks with
    | refl => exact ha
    | tail _ hlink ih =>
      rw [← hdone]
      exact snd_mem_round hlink ih
  | case2 s _ ih =>
    rw [ih]
    constructor
    · rintro ⟨a, ha, hlinks⟩
      obtain ⟨a', ha', hlinks'⟩ := round_induction
        (P := fun b => ∃ a ∈ s, ReflTransGen (fun a b => (a, b) ∈ links) a b)
        (fun a ha => ⟨a, ha, .refl⟩)
        (fun link hlink => Exists.imp fun a h => ⟨h.1, h.2.tail hlink⟩) a ha
      exact ⟨a', ha', hlinks'.trans hlinks⟩
    · rintro ⟨a, ha, hlinks⟩
      exact ⟨a, subset_round ha, hlinks⟩

end LinkClosure
