/-
# Internal address mappings of the packet filter

Model of the 1:1 mappings of `client/firewall/uspfilter/nat.go`: `AddInternalDNATMapping`,
`RemoveInternalDNATMapping` and the lookups of the translation.

A reply is looked up in a second map, which keeps in step with the mappings only if a translated
address belongs to one mapping (`consistent_iff`).
-/
import AnonBird.GoMap
import AnonBird.NetIP
import AnonBird.Transition

open NetIP
open GoMap hiding set

namespace Uspfilter

/-- The mappings of `Manager`: `dnatMappings`, the two maps of `dnatBiMap` and `dnatEnabled`. -/
structure InternalDNAT where
  dnatMappings : List (Addr × Addr) := []
  forward : List (Addr × Addr) := []
  reverse : List (Addr × Addr) := []
  dnatEnabled : Bool := false
  forward_eq : ∀ original, get forward original = get dnatMappings original
  enabled_iff : dnatEnabled = true ↔ dnatMappings ≠ []

/-- No mapping is there yet. -/
def noMappings : InternalDNAT where
  forward_eq original := rfl
  enabled_iff := by simp

namespace InternalDNAT

variable (m : InternalDNAT)

/-- `AddInternalDNATMapping` for an address that may be mapped to. -/
def set (originalAddr translatedAddr : Addr) : InternalDNAT :=
  let dnatMappings := GoMap.set m.dnatMappings originalAddr translatedAddr
  { dnatMappings
    forward := GoMap.set m.forward originalAddr translatedAddr
    reverse := GoMap.set m.reverse translatedAddr originalAddr
    dnatEnabled := if dnatMappings.length = 1 then true else m.dnatEnabled
    forward_eq := by
      intro original
      rw [get_set, get_set, m.forward_eq]
    enabled_iff := by
      refine iff_of_true ?_ (by simp [dnatMappings, GoMap.set])
      split
      · rfl
      next hlength =>
        rw [m.enabled_iff]
        rintro hnil
        apply hlength
        simp [dnatMappings, GoMap.set, erase, hnil] }

/-- `AddInternalDNATMapping`; an address of this host may not be mapped to. -/
def addInternalDNATMapping (isLocalIP : Addr → Bool) (originalAddr translatedAddr : Addr) :
    InternalDNAT :=
  if isLocalIP translatedAddr then m else m.set originalAddr translatedAddr

/-- `RemoveInternalDNATMapping`; a mapping that is not there is an error. -/
def removeInternalDNATMapping (originalAddr : Addr) : InternalDNAT :=
  match get m.dnatMappings originalAddr with
  | none => m
  | some translated =>
    let dnatMappings := erase m.dnatMappings originalAddr
    { dnatMappings
      forward := erase m.forward originalAddr
      reverse := erase m.reverse translated
      dnatEnabled := if dnatMappings.length = 0 then false else m.dnatEnabled
      forward_eq := by
        intro original
        by_cases h : original = originalAddr
        · rw [h, get_erase_self, get_erase_self]
        · rw [get_erase_of_ne h, get_erase_of_ne h, m.forward_eq]
      enabled_iff := by
        by_cases hlength : dnatMappings.length = 0
        · rw [if_pos hlength, List.length_eq_zero_iff.mp hlength]
          simp
        · rw [if_neg hlength, m.enabled_iff]
          refine iff_of_true ?_ fun hnil => hlength (by rw [hnil]; rfl)
          intro hnil
          apply hlength
          simp [dnatMappings, erase, hnil] }

/-- Where packets for an address go. -/
def getDNATTranslation (addr : Addr) : Option Addr :=
  if m.dnatEnabled then get m.forward addr else none

theorem mappings_eq_nil (h : ¬ m.dnatEnabled = true) : m.dnatMappings = [] := by
  by_contra hne
  exact h (m.enabled_iff.mpr hne)

theorem getDNATTranslation_eq (addr : Addr) :
    m.getDNATTranslation addr = get m.dnatMappings addr := by
  unfold getDNATTranslation
  split
  · exact m.forward_eq addr
  next hdisabled =>
    rw [m.mappings_eq_nil hdisabled]
    rfl

@[simp] theorem getDNATTranslation_set (originalAddr translatedAddr addr : Addr) :
    (m.set originalAddr translatedAddr).getDNATTranslation addr =
      if addr = originalAddr then some translatedAddr else m.getDNATTranslation addr := by
  rw [getDNATTranslation_eq, getDNATTranslation_eq, set, get_set]

@[simp] theorem getDNATTranslation_remove (originalAddr addr : Addr) :
    (m.removeInternalDNATMapping originalAddr).getDNATTranslation addr =
      if addr = originalAddr then none else m.getDNATTranslation addr := by
  rw [getDNATTranslation_eq, getDNATTranslation_eq, removeInternalDNATMapping]
  split
  next hnone =>
    split
    next h =>
      rw [h]
      exact hnone
    · rfl
  · split
    next h =>
      rw [h]
      exact get_erase_self
    next h =>
      exact get_erase_of_ne h

/-! ## Replies -/

/-- The address that packets from an address get. -/
def findReverseDNATMapping (translatedAddr : Addr) : Option Addr :=
  if m.dnatEnabled then get m.reverse translatedAddr else none

/-- The successful calls. -/
inductive Call where
  | add (originalAddr translatedAddr : Addr)
  | remove (originalAddr : Addr)

/-- One call. -/
def call : Call → InternalDNAT
  | .add originalAddr translatedAddr => m.set originalAddr translatedAddr
  | .remove originalAddr => m.removeInternalDNATMapping originalAddr

/-- The maps after a sequence of calls. -/
def calls (cs : List Call) : InternalDNAT := cs.foldl call noMappings

/-- The three maps fit together, and the sources of replies that are rewritten are the translated
addresses of the mappings. -/
structure Consistent : Prop where
  mappings : ∀ o, get m.dnatMappings o = get m.forward o
  back : ∀ t o, get m.reverse t = some o → get m.forward o = some t
  forth : ∀ o t, get m.forward o = some t → ∃ o', get m.reverse t = some o'
  replies : ∀ t, (m.findReverseDNATMapping t).isSome ↔
    ∃ o, get m.dnatMappings o = some t

/-- An address that replies are rewritten to is not mapped to another one, and the translated
address of a removed mapping is that of no other. -/
def Keeps : Call → Prop
  | .add o t => ∀ t', get m.forward o = some t' → get m.reverse t' = some o → t' = t
  | .remove o => ∀ t o', get m.forward o = some t → get m.forward o' = some t → o' = o

variable {m}

/-- What is looked up of replies follows from the maps. -/
theorem Consistent.of_maps
    (back : ∀ t o, get m.reverse t = some o → get m.forward o = some t)
    (forth : ∀ o t, get m.forward o = some t → ∃ o', get m.reverse t = some o') :
    m.Consistent := by
  refine ⟨fun o => (m.forward_eq o).symm, back, forth, fun t => ?_⟩
  unfold findReverseDNATMapping
  split
  · simp only [Option.isSome_iff_exists, ← m.forward_eq]
    exact ⟨fun ⟨o, ho⟩ => ⟨o, back t o ho⟩, fun ⟨o, ho⟩ => forth o t ho⟩
  next hdisabled =>
    simp [m.mappings_eq_nil hdisabled, GoMap.get]

theorem get_forward_remove (o k : Addr) : get (m.removeInternalDNATMapping o).forward k =
    if k = o then none else get m.forward k := by
  rw [forward_eq, forward_eq, ← getDNATTranslation_eq, ← getDNATTranslation_eq]
  exact getDNATTranslation_remove m o k

theorem get_reverse_remove (o k : Addr) : get (m.removeInternalDNATMapping o).reverse k =
    if get m.forward o = some k then none else get m.reverse k := by
  rw [removeInternalDNATMapping, forward_eq]
  cases hget : get m.dnatMappings o with
  | none => simp
  | some t =>
    by_cases hk : t = k
    · simp [hk]
    · simp [hk, get_erase_of_ne (Ne.symm hk)]

theorem Consistent.call_iff (h : m.Consistent) (c : Call) : (m.call c).Consistent ↔ m.Keeps c := by
  obtain ⟨-, back, forth, -⟩ := h
  cases c with
  | add o t =>
    have hf : ∀ k, get (m.call (.add o t)).forward k = if k = o then some t else
      get m.forward k := fun k => get_set _ _ _ _
    have hr : ∀ k, get (m.call (.add o t)).reverse k = if k = t then some o else
      get m.reverse k := fun k => get_set _ _ _ _
    refine ⟨fun h t' hfor hrev => ?_, fun h => .of_maps ?_ ?_⟩
    · have := h.back t' o
      grind
    all_goals grind [Keeps]
  | remove o =>
    have hf := get_forward_remove (m := m) o
    have hr := get_reverse_remove (m := m) o
    refine ⟨fun h t o' hfor hfor' => ?_, fun h => .of_maps ?_ ?_⟩
    · have := h.forth o' t
      grind [call]
    all_goals grind [Keeps, call]

/-- **The maps stay together** all along a sequence of calls exactly if each call keeps them. -/
theorem consistent_iff (cs : List Call) : (∀ pre, pre <+: cs → (calls pre).Consistent) ↔
    ∀ pre c, pre ++ [c] <+: cs → (calls pre).Keeps c := by
  refine Transition.forall_prefix_iff (.of_maps ?_ ?_) fun pre c _ h => ?_
  · simp [calls, noMappings, GoMap.get]
  · simp [calls, noMappings, GoMap.get]
  · rw [calls, List.foldl_concat]
    exact h.call_iff c

/-- Two addresses are mapped to one and one mapping is removed: replies to the other are not
rewritten. An address is mapped anew: replies from its old one still are. -/
theorem reply_lost_and_stale :
    let shared := calls [.add (.v4 1#32) (.v4 3#32), .add (.v4 2#32) (.v4 3#32), .remove (.v4 1#32)]
    let remapped := calls [.add (.v4 1#32) (.v4 3#32), .add (.v4 1#32) (.v4 4#32)]
    shared.getDNATTranslation (.v4 2#32) = some (.v4 3#32) ∧
    shared.findReverseDNATMapping (.v4 3#32) = none ∧
    remapped.dnatMappings = [(.v4 1#32, .v4 4#32)] ∧
    remapped.findReverseDNATMapping (.v4 3#32) = some (.v4 1#32) := by
  decide

end InternalDNAT

end Uspfilter
