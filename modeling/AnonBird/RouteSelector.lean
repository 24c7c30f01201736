/-
# Route selection

Model of `RouteSelector` (`client/internal/routeselector/routeselector.go`), which keeps what the
user has selected and deselected.  A route without explicit state is selected, and an exit node
entry for IPv6 without state of its own goes by the state of its IPv4 base.
-/
import AnonBird.Account
import AnonBird.GoJSON

open GoStrings NetIP GoText GoJSON Management

namespace RouteSelection

export GoMap (get)

/-- `RouteSelector`: what the user selected and deselected. -/
structure RouteSelector where
  deselectedRoutes : Finset Bytes := ∅
  selectedRoutes : Finset Bytes := ∅
  deselectAll : Bool := false
  deriving DecidableEq

/-- The loop over the ids that are to be selected or deselected: an available one goes into one
set and out of the other. -/
def moveAll (allRoutes routes : List Bytes) (into outOf : Finset Bytes) :
    Finset Bytes × Finset Bytes :=
  routes.foldl (fun s route =>
    if route ∈ allRoutes then (insert route s.1, s.2.erase route) else s) (into, outOf)

/-- The errors of the loop. -/
def unavailable (allRoutes routes : List Bytes) : List Bytes :=
  (routes.filter (· ∉ allRoutes)).map fun route =>
    ascii "route '" ++ route ++ ascii "' is not available"

namespace RouteSelector

variable (rs : RouteSelector)

/-- The routes are selected, alone or in addition; the second result are those unknown. -/
def selectRoutes (routes : List Bytes) (appendRoute : Bool) (allRoutes : List Bytes) :
    RouteSelector × List Bytes :=
  let rs := if !appendRoute || rs.deselectAll then
      { rs with deselectedRoutes := allRoutes.toFinset, selectedRoutes := ∅ } else rs
  let moved := moveAll allRoutes routes rs.selectedRoutes rs.deselectedRoutes
  (⟨moved.2, moved.1, false⟩, unavailable allRoutes routes)

/-- The user's choices are forgotten. -/
def selectAllRoutes : RouteSelector := ⟨∅, ∅, false⟩

/-- The routes are deselected; the second result are those unknown. -/
def deselectRoutes (routes allRoutes : List Bytes) : RouteSelector × List Bytes :=
  if rs.deselectAll then (rs, [])
  else
    let moved := moveAll allRoutes routes rs.deselectedRoutes rs.selectedRoutes
    (⟨moved.1, moved.2, rs.deselectAll⟩, unavailable allRoutes routes)

/-- Every route is off, whatever was chosen before. -/
def deselectAllRoutes : RouteSelector := ⟨∅, ∅, true⟩

/-- `MarshalJSON`, then `UnmarshalJSON`. -/
def reload : RouteSelector :=
  ⟨rs.deselectedRoutes.image jsonString, rs.selectedRoutes.image jsonString, rs.deselectAll⟩

/-- A route is on. -/
def isSelectedLocked (routeID : Bytes) : Bool := !rs.deselectAll && routeID ∉ rs.deselectedRoutes

/-- A route is off. -/
def isDeselectedLocked (netID : Bytes) : Bool := rs.deselectAll || netID ∈ rs.deselectedRoutes

/-- The user decided on a route. -/
def hasUserSelectionForRouteLocked (routeID : Bytes) : Bool :=
  routeID ∈ rs.selectedRoutes || routeID ∈ rs.deselectedRoutes

end RouteSelector

/-- The network id in an id of routes that stand in for each other. -/
def netID (id : Bytes) : Bytes :=
  match lastIndexByte id 124 with
  | some i => id.take i
  | none => id

/-- What the IPv6 twin of an exit node ends in. -/
def v6ExitSuffix : Bytes := ascii "-v6"

/-- The first route is a default route. -/
def isExitNode : List Route → Bool
  | [] => false
  | r :: _ => r.network = some ⟨.v4 0, 0⟩ || r.network = some ⟨.v6 0 [], 0⟩

/-- The routes that apply without being selected. -/
def collectSelected (rt : List Route) : List Route := rt.filter fun r => !r.skipAutoApply

namespace RouteSelector

variable (rs : RouteSelector)

/-- The routes that are not off. -/
def filterSelected (routes : List (Bytes × List Route)) : List (Bytes × List Route) :=
  if rs.deselectAll then []
  else GoMap.mapEntries (fun id rt => if rs.isDeselectedLocked (netID id) then none else some rt)
    routes

/-- The id whose selection counts: a twin without one follows its exit node. -/
def effectiveNetID (id : Bytes) : Bytes :=
  if !hasSuffix id v6ExitSuffix then id
  else if id ∈ rs.selectedRoutes then id
  else if id ∈ rs.deselectedRoutes then id
  else trimSuffix id v6ExitSuffix

/-- What is left of an entry of an exit node, if anything. -/
def applyExitNodeFilter (netID : Bytes) (rt : List Route) : Option (List Route) :=
  let effective := rs.effectiveNetID netID
  if rs.hasUserSelectionForRouteLocked effective then
    if rs.isSelectedLocked effective then some rt else none
  else if collectSelected rt = [] then none
  else some (collectSelected rt)

/-- The routes that are not off, exit nodes by what the user selected. -/
def filterSelectedExitNodes (routes : List (Bytes × List Route)) : List (Bytes × List Route) :=
  if rs.deselectAll then []
  else
    GoMap.mapEntries (fun id rt =>
      if rs.isDeselectedLocked (netID id) then none
      else if !isExitNode rt then some rt
      else rs.applyExitNodeFilter (netID id) rt) routes

end RouteSelector

/-! ## Histories -/

/-- The calls that change a selector. -/
inductive Call where
  | selectRoutes (routes : List Bytes) (appendRoute : Bool) (allRoutes : List Bytes)
  | deselectRoutes (routes allRoutes : List Bytes)
  | selectAllRoutes
  | deselectAllRoutes
  | reload

/-- The ids that a call brings in. -/
def Call.ids : Call → List Bytes
  | .selectRoutes _ _ allRoutes => allRoutes
  | .deselectRoutes _ allRoutes => allRoutes
  | _ => []

/-- The selector after a call. -/
def RouteSelector.step (rs : RouteSelector) : Call → RouteSelector
  | .selectRoutes routes appendRoute allRoutes => (rs.selectRoutes routes appendRoute allRoutes).1
  | .deselectRoutes routes allRoutes => (rs.deselectRoutes routes allRoutes).1
  | .selectAllRoutes => selectAllRoutes
  | .deselectAllRoutes => deselectAllRoutes
  | .reload => rs.reload

open RouteSelector

/-- The selector after calls from the start. -/
def run (calls : List Call) : RouteSelector := calls.foldl step {}

theorem mem_moveAll (allRoutes routes : List Bytes) (into outOf : Finset Bytes) (id : Bytes) :
    (id ∈ (moveAll allRoutes routes into outOf).1 ↔ id ∈ into ∨ id ∈ routes ∧ id ∈ allRoutes) ∧
    (id ∈ (moveAll allRoutes routes into outOf).2 ↔
      id ∈ outOf ∧ ¬ (id ∈ routes ∧ id ∈ allRoutes)) := by
  unfold moveAll
  induction routes generalizing into outOf with
  | nil => simp
  | cons route routes ih =>
    rw [List.foldl_cons]
    by_cases h : route ∈ allRoutes
    · rw [if_pos h, (ih _ _).1, (ih _ _).2]
      grind
    · rw [if_neg h, (ih _ _).1, (ih _ _).2]
      grind

namespace RouteSelector

/-- No id is both selected and deselected. -/
def Apart (rs : RouteSelector) : Prop :=
  ∀ id, ¬ (id ∈ rs.selectedRoutes ∧ id ∈ rs.deselectedRoutes)

/-- A selected and a deselected id are the same once they are saved. -/
def Merges (rs : RouteSelector) : Prop :=
  ∃ id ∈ rs.selectedRoutes, ∃ id' ∈ rs.deselectedRoutes, jsonString id = jsonString id'

/-- The ids with explicit state are valid, so that saving does not change them. -/
def Valid (rs : RouteSelector) : Prop :=
  ∀ id, id ∈ rs.selectedRoutes ∨ id ∈ rs.deselectedRoutes → jsonString id = id

/-- While all routes are deselected there is no explicit state. -/
def Cleared (rs : RouteSelector) : Prop :=
  rs.deselectAll = true → rs.selectedRoutes = ∅ ∧ rs.deselectedRoutes = ∅

variable {rs : RouteSelector}

/-- Ids that are apart and are not changed by saving do not merge. -/
theorem Apart.not_merges (h : rs.Apart) (hvalid : rs.Valid) : ¬ rs.Merges := by
  rintro ⟨id, hid, id', hid', hsame⟩
  rw [hvalid id (.inl hid), hvalid id' (.inr hid')] at hsame
  exact h id ⟨hid, hsame ▸ hid'⟩

theorem apart_reload (h : ¬ rs.Merges) : rs.reload.Apart := by
  rintro id ⟨hsel, hdes⟩
  obtain ⟨a, ha, rfl⟩ := Finset.mem_image.mp hsel
  obtain ⟨b, hb, hsame⟩ := Finset.mem_image.mp hdes
  exact h ⟨a, ha, b, hb, hsame.symm⟩

theorem Apart.step (h : rs.Apart) {call : Call} (hcall : call = .reload → ¬ rs.Merges) :
    (rs.step call).Apart := by
  cases call with
  | selectRoutes routes appendRoute allRoutes =>
    intro id
    simp only [RouteSelector.step, selectRoutes]
    rw [(mem_moveAll ..).1, (mem_moveAll ..).2]
    have := h id
    split <;> grind
  | deselectRoutes routes allRoutes =>
    simp only [RouteSelector.step, deselectRoutes]
    split
    · exact h
    · intro id
      rw [(mem_moveAll ..).1, (mem_moveAll ..).2]
      have := h id
      grind
  | selectAllRoutes => exact nofun
  | deselectAllRoutes => exact nofun
  | reload => exact apart_reload (hcall rfl)

theorem Valid.step (h : rs.Valid) {call : Call} (hcall : ∀ id ∈ call.ids, jsonString id = id) :
    (rs.step call).Valid := by
  cases call with
  | selectRoutes routes appendRoute allRoutes =>
    intro id
    simp only [RouteSelector.step, selectRoutes]
    rw [(mem_moveAll ..).1, (mem_moveAll ..).2]
    have := h id
    split <;> grind [Call.ids, List.mem_toFinset]
  | deselectRoutes routes allRoutes =>
    simp only [RouteSelector.step, deselectRoutes]
    split
    · exact h
    · intro id
      rw [(mem_moveAll ..).1, (mem_moveAll ..).2]
      have := h id
      grind [Call.ids]
  | selectAllRoutes => exact nofun
  | deselectAllRoutes => exact nofun
  | reload =>
    have himage : ∀ s : Finset Bytes, (∀ id ∈ s, jsonString id = id) → s.image jsonString = s :=
      fun s hs => (Finset.image_congr hs).trans Finset.image_id
    rw [RouteSelector.step, RouteSelector.reload, himage _ fun id hid => h id (.inr hid),
      himage _ fun id hid => h id (.inl hid)]
    exact h

theorem Cleared.step (h : rs.Cleared) (call : Call) : (rs.step call).Cleared := by
  cases call with
  | selectRoutes routes appendRoute allRoutes => exact nofun
  | deselectRoutes routes allRoutes =>
    simp only [RouteSelector.step, deselectRoutes]
    split
    · exact h
    next hall => exact fun hdes => absurd hdes hall
  | selectAllRoutes => exact nofun
  | deselectAllRoutes => exact fun _ => ⟨rfl, rfl⟩
  | reload =>
    intro hall
    obtain ⟨hsel, hdes⟩ := h hall
    exact ⟨by simp [RouteSelector.step, reload, hsel], by simp [RouteSelector.step, reload, hdes]⟩

theorem run_concat (calls : List Call) (call : Call) :
    run (calls ++ [call]) = (run calls).step call := List.foldl_concat ..

/-- Only loading what was saved can bring a selected and a deselected id together. -/
theorem apart_run {calls : List Call}
    (h : ∀ pre, pre ++ [.reload] <+: calls → ¬ (run pre).Merges) : (run calls).Apart := by
  induction calls using List.reverseRecOn with
  | nil => exact nofun
  | append_singleton calls call ih =>
    rw [run_concat]
    refine (ih fun pre hpre => h pre (hpre.trans (List.prefix_append _ _))).step ?_
    rintro rfl
    exact h calls List.prefix_rfl

/-- Valid ids stay valid, and apart. -/
theorem apart_valid_run {calls : List Call}
    (hvalid : ∀ call ∈ calls, ∀ id ∈ call.ids, jsonString id = id) :
    (run calls).Apart ∧ (run calls).Valid := by
  refine List.foldlRecOn (motive := fun rs : RouteSelector => rs.Apart ∧ rs.Valid) calls _
    ⟨nofun, nofun⟩ ?_
  rintro rs ⟨hapart, hrs⟩ call hcall
  exact ⟨hapart.step fun _ => hapart.not_merges hrs, hrs.step (hvalid call hcall)⟩

theorem cleared_run (calls : List Call) : (run calls).Cleared :=
  List.foldlRecOn calls _ nofun fun _ h call _ => h.step call

theorem isSelectedLocked_selectRoutes {routes allRoutes : List Bytes} {appendRoute : Bool}
    (hclear : appendRoute = false ∨ rs.deselectAll = true) {id : Bytes} (hid : id ∈ allRoutes) :
    (rs.selectRoutes routes appendRoute allRoutes).1.isSelectedLocked id = true ↔ id ∈ routes := by
  have hcond : (!appendRoute || rs.deselectAll) = true := by grind
  simp only [selectRoutes, hcond, if_true, isSelectedLocked, (mem_moveAll ..).2]
  simp [hid]

variable {routes : List (Bytes × List Route)} {id : Bytes}

theorem get_filterSelected : get (rs.filterSelected routes) id =
      if rs.isSelectedLocked (netID id) then get routes id else none := by
  unfold filterSelected
  cases hall : rs.deselectAll with
  | true => simp [isSelectedLocked, hall, get]
  | false =>
    simp only [Bool.false_eq_true, if_false, GoMap.get_mapEntries, isDeselectedLocked,
      isSelectedLocked, hall]
    cases get routes id <;> by_cases hid : netID id ∈ rs.deselectedRoutes <;> simp [hid]

/-- What is to be left of a default route by the state of its base. -/
def inherited (rs : RouteSelector) (base : Bytes) (rt : List Route) : Option (List Route) :=
  if rs.deselectAll then none
  else if rs.hasUserSelectionForRouteLocked base then
    if rs.isSelectedLocked base then some rt else none
  else if collectSelected rt = [] then none
  else some (collectSelected rt)

/-- A default route for IPv6 without state of its own goes by its base. -/
theorem get_filterSelectedExitNodes {rt : List Route} (hget : get routes id = some rt)
    (hexit : isExitNode rt) (hsuffix : hasSuffix (netID id) v6ExitSuffix)
    (hown : rs.hasUserSelectionForRouteLocked (netID id) = false) :
    get (rs.filterSelectedExitNodes routes) id =
      rs.inherited (trimSuffix (netID id) v6ExitSuffix) rt := by
  obtain ⟨hsel, hdes⟩ := Bool.or_eq_false_iff.mp hown
  have heff : rs.effectiveNetID (netID id) = trimSuffix (netID id) v6ExitSuffix := by
    simp [effectiveNetID, hsuffix, of_decide_eq_false hsel, of_decide_eq_false hdes]
  unfold inherited
  cases hall : rs.deselectAll with
  | true => simp [filterSelectedExitNodes, hall, get]
  | false =>
    simp [filterSelectedExitNodes, hall, GoMap.get_mapEntries, hget, isDeselectedLocked,
      of_decide_eq_false hdes, hexit, applyExitNodeFilter, heff]

end RouteSelector

/-- **Route selection.** An id is both selected and deselected only after two ids have been saved
that JSON makes the same; the rest holds in every history. -/
theorem selection_state (calls : List Call) : let rs := run calls
    ((∀ pre, pre ++ [.reload] <+: calls → ¬ (run pre).Merges) → rs.Apart) ∧
    ((∀ call ∈ calls, ∀ id ∈ call.ids, jsonString id = id) →
      (∀ pre, pre ++ [.reload] <+: calls → ¬ (run pre).Merges) ∧ rs.Apart) ∧
    (rs.deselectAll = true → rs.selectedRoutes = ∅ ∧ rs.deselectedRoutes = ∅) ∧
    (∀ routes id, get (rs.filterSelected routes) id =
      if rs.isSelectedLocked (netID id) then get routes id else none) ∧
    (∀ routes allRoutes appendRoute, appendRoute = false ∨ rs.deselectAll = true → ∀ id ∈ allRoutes,
        (rs.selectRoutes routes appendRoute allRoutes).1.isSelectedLocked id = true ↔ id ∈ routes) ∧
    ∀ routes id rt, get routes id = some rt → isExitNode rt = true →
      hasSuffix (netID id) v6ExitSuffix = true →
      rs.hasUserSelectionForRouteLocked (netID id) = false →
      get (rs.filterSelectedExitNodes routes) id =
        rs.inherited (trimSuffix (netID id) v6ExitSuffix) rt := by
  intro rs
  refine ⟨apart_run, fun hvalid => ?_, cleared_run calls, fun _ _ => get_filterSelected, ?_, ?_⟩
  · refine ⟨fun pre hpre => ?_, (apart_valid_run hvalid).1⟩
    obtain ⟨hapart, hpreValid⟩ := apart_valid_run fun call (hcall : call ∈ pre) =>
      hvalid call (hpre.subset (List.mem_append_left _ hcall))
    exact hapart.not_merges hpreValid
  · intro routes allRoutes appendRoute hclear id hid
    exact isSelectedLocked_selectRoutes hclear hid
  · intro routes id rt hget hexit hsuffix hown
    exact get_filterSelectedExitNodes hget hexit hsuffix hown

/-- One id is deselected and the state saved. -/
theorem selection_state_saved :
    let calls : List Call := [.deselectRoutes [ascii "a"] [ascii "a", ascii "b"], .reload]
    (∀ call ∈ calls, ∀ id ∈ call.ids, jsonString id = id) ∧ (run calls).Apart :=
  ⟨by decide, ((selection_state _).2.1 (by decide)).2⟩

/-- Two ids that are not valid come back as one, both selected and deselected; and once all routes
are deselected, a default route that is to be applied is not kept. -/
theorem selection_not_as_claimed :
    ¬ (run [.selectRoutes [[0xff]] false [[0xff], [0xfe]], .reload]).Apart ∧
    let rs := run [.deselectAllRoutes]
    let rt : List Route := [{ id := [1], network := some ⟨.v6 0 [], 0⟩ }]
    rs.hasUserSelectionForRouteLocked (ascii "exit") = false ∧ collectSelected rt = rt ∧
      get (rs.filterSelectedExitNodes [(ascii "exit-v6|::/0", rt)])
        (ascii "exit-v6|::/0") = none := by
  refine ⟨fun h => h [0xef, 0xbf, 0xbd] ?_, ?_⟩
  · decide
  · decide

end RouteSelection
