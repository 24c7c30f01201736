/-
# The watcher of a high-availability route

Model of `Watcher` (`client/internal/routemanager/client/client.go`).  Of the routes to one network
the watcher chooses the best by the states of their peers.  To switch, it removes the allowed IPs
first and adds them for the new peer; it takes note of the new route once both are done.

Scores are floating-point numbers, as in the code.  The log and the events for the user are left
out; of the goroutines that watch the peers only the channels that end them are kept.
-/
import AnonBird.Account
import AnonBird.Transition

open GoStrings Management

namespace RouteWatcher

export GoMap (get set)

/-- The state of the connection to a routing peer. -/
inductive ConnStatus where
  | idle
  | connecting
  | connected
  deriving DecidableEq

/-- What is known of a routing peer. -/
structure RouterPeerStatus where
  status : ConnStatus := .idle
  relayed : Bool := false
  /-- In nanoseconds. -/
  latency : ℤ := 0
  deriving DecidableEq

/-- What a turn of the watcher meets: the states of the peers, an order of the routes, and whether
the handler can add and remove the allowed IPs. -/
structure Env where
  states : List (Bytes × RouterPeerStatus)
  ord : GoMap.RangeOrder Bytes
  added : Bool
  removed : Bool

/-! ## The best route -/

/-- The largest metric. -/
def maxMetric : ℤ := 9999

/-- In nanoseconds, as a duration. -/
def second : ℤ := 1000000000

/-- In nanoseconds, as a duration. -/
def millisecond : ℤ := 1000000

/-- `Duration.Seconds`: whole seconds and the rest are converted separately. -/
def seconds (d : ℤ) : Float :=
  Float.ofInt (d.tdiv second) + Float.ofInt (d.tmod second) / 1e9

/-- The score of a route, added up in the order of the source. -/
def tempScore (r : Route) (peerStatus : RouterPeerStatus) : Float :=
  let tempScore := if r.metric < maxMetric then Float.ofInt (maxMetric - r.metric) * 10 else 0
  let latency := if peerStatus.latency ≠ 0 then peerStatus.latency else 999 * millisecond
  let latency := if second < latency then 999 * millisecond else latency
  let tempScore := tempScore + (1 - seconds latency)
  let tempScore := if peerStatus.status = .connected then tempScore + 100000 else tempScore
  if peerStatus.relayed then tempScore else tempScore + 1

/-- The variables of the loop over the routes. -/
structure Best where
  chosen : Bytes := []
  chosenStatus : RouterPeerStatus := {}
  chosenScore : Float := 0
  currScore : Float := 0

/-- A turn of the loop. -/
def Best.visit (routePeerStatuses : List (Bytes × RouterPeerStatus)) (currID : Bytes) (b : Best)
    (r : Route) : Best :=
  match get routePeerStatuses r.id with
  | none => b
  | some peerStatus =>
    if peerStatus.status = .connecting then b
    else
      let score := tempScore r peerStatus
      let taken := { b with chosen := r.id, chosenStatus := peerStatus, chosenScore := score }
      let b := if b.chosenScore < score ∨ score == b.chosenScore ∧ b.chosen = [] then taken else b
      let b := if b.chosen = [] ∧ currID = [] then taken else b
      if r.id = currID then { b with currScore := score } else b

/-- The watcher, with its handler. -/
structure Watcher where
  routes : List (Bytes × Route) := []
  currentChosen : Option Route := none
  currentChosenStatus : Option RouterPeerStatus := none
  updateSerial : ℕ := 0
  /-- The peers with an open channel in `routePeersNotifiers`. -/
  notifiers : List Bytes := []
  /-- The peer that the handler has allowed IPs installed for. -/
  installed : Option Bytes := none
  /-- The handler was to add allowed IPs to installed ones, or to remove them where none were. -/
  outOfTurn : Bool := false

namespace Watcher

variable (w : Watcher) (env : Env)

/-- `getRouterPeerStatuses` and `convertRouterPeerStatuses`, which differ in where the states
come from. -/
def routerPeerStatuses : List (Bytes × RouterPeerStatus) :=
  (GoMap.range env.ord w.routes).foldl (fun m e =>
    match get env.states e.2.peer with
    | none => m
    | some peerStatus => set m e.2.id peerStatus) []

/-- The id of the current route is read off without one when a route has an empty id. -/
def getBestRouteFromStatuses (routePeerStatuses : List (Bytes × RouterPeerStatus)) :
    Option (Bytes × RouterPeerStatus) :=
  let currID := (w.currentChosen.map Route.id).getD []
  let b := ((GoMap.range env.ord w.routes).map Prod.snd).foldl
    (Best.visit routePeerStatuses currID) {}
  if b.chosen ≠ [] ∧ b.chosen ≠ currID ∧ b.currScore != 0 ∧
      b.chosenScore < b.currScore + 0.01 then
    -- the log message reads the peer of the current route
    w.currentChosen.map fun _ => (currID, b.chosenStatus)
  else some (b.chosen, b.chosenStatus)

/-- `Route.Equal`: the account is not compared, and no domains are as good as an empty list. -/
def equal (r : Route) : Option Route → Bool
  | none => false
  | some other =>
    { r with accountID := [], domains := some (r.domains.getD []) } =
      { other with accountID := [], domains := some (other.domains.getD []) }

/-- The chosen route and the state of its peer are as before. -/
def shouldSkipRecalculation (newChosenID : Bytes) (newStatus : RouterPeerStatus) : Bool :=
  match w.currentChosen with
  | none => false
  | some current =>
    current.id = newChosenID && equal current (get w.routes newChosenID) &&
      match w.currentChosenStatus with
      | none => true
      | some status => status.status = newStatus.status

/-- The network is taken from the peer that has it. -/
def removeAllowedIPs : Watcher :=
  { w with
    installed := if env.removed then none else w.installed
    outOfTurn := w.outOfTurn || w.installed.isNone }

/-- The network is given to the peer of a route. -/
def addAllowedIPs (route : Route) : Watcher :=
  { w with
    installed := if env.added then some route.peer else w.installed
    outOfTurn := w.outOfTurn || w.installed.isSome }

/-- The end of `recalculateRoutes`; `none` where the code would dereference nil. -/
def choose (newChosenID : Bytes) (newStatus : RouterPeerStatus) : Option Watcher :=
  (get w.routes newChosenID).map fun newChosenRoute =>
    let w := w.addAllowedIPs env newChosenRoute
    if env.added then
      { w with currentChosen := some newChosenRoute, currentChosenStatus := some newStatus }
    else w

/-- The best route is chosen, and the network moved to its peer. -/
def recalculateRoutes : Option Watcher :=
  (w.getBestRouteFromStatuses env (w.routerPeerStatuses env)).bind fun (newChosenID, newStatus) =>
    if newChosenID = [] then
      match w.currentChosen with
      | none => some w
      | some _ =>
        let w := w.removeAllowedIPs env
        some (if env.removed then { w with currentChosen := none, currentChosenStatus := none }
          else w)
    else if w.shouldSkipRecalculation newChosenID newStatus then some w
    else
      match w.currentChosen with
      | none => w.choose env newChosenID newStatus
      | some _ =>
        let w := w.removeAllowedIPs env
        if env.removed then w.choose env newChosenID newStatus else some w

/-- The channels of the peers are closed, one after the other; closing the nil channel of a peer
that has none, or no longer has one, panics. -/
def closeNotifiers (notifiers : List Bytes) (peers : List Bytes) : Option (List Bytes) :=
  peers.foldlM (fun notifiers peer =>
    if peer ∈ notifiers then some (notifiers.filter (· ≠ peer)) else none) notifiers

/-- The new routes, and whether they differ from the old; `none` where closing the channel of a
route that is gone panics. -/
def classifyUpdate (routes : List Route) : Option (Watcher × Bool) :=
  let updateMap := GoMap.build Route.id id routes
  let gone := (GoMap.range env.ord w.routes).filter fun e => get updateMap e.1 = none
  (closeNotifiers w.notifiers (gone.map fun e => e.2.peer)).map fun notifiers =>
    ({ w with routes := updateMap, notifiers := notifiers },
      w.routes.length ≠ updateMap.length ||
        w.routes.any fun e => get updateMap e.1 ≠ get w.routes e.1)

/-- Every peer of a route has a channel. -/
def startNewPeerStatusWatchers : Watcher :=
  { w with
    notifiers := (GoMap.range env.ord w.routes).foldl (fun notifiers e =>
      if e.2.peer ∈ notifiers then notifiers else e.2.peer :: notifiers) w.notifiers }

end Watcher

/-- What the loop of `Start` receives, with what its turn meets. -/
inductive Event where
  | peerStateUpdate (env : Env)
  | routeUpdate (updateSerial : ℕ) (routes : List Route) (env : Env)

namespace Watcher

/-- A turn of the loop of `Start`; `none` where the code panics. -/
def step (w : Watcher) : Event → Option Watcher
  | .peerStateUpdate env => w.recalculateRoutes env
  | .routeUpdate updateSerial routes env =>
    if updateSerial < w.updateSerial then some w
    else
      (w.classifyUpdate env routes).bind fun (w, isTrueRouteUpdate) =>
        let w := { w with updateSerial := updateSerial }
        (if isTrueRouteUpdate then w.recalculateRoutes env else some w).map
          (startNewPeerStatusWatchers · env)

/-- The watcher that an event makes recalculate, and what the recalculation meets. -/
def recalculation (w : Watcher) : Event → Option (Watcher × Env)
  | .peerStateUpdate env => some (w, env)
  | .routeUpdate updateSerial routes env =>
    if updateSerial < w.updateSerial then none
    else
      (w.classifyUpdate env routes).bind fun (w, isTrueRouteUpdate) =>
        if isTrueRouteUpdate then some ({ w with updateSerial := updateSerial }, env) else none

/-- The watcher after some events; `none` where it has panicked. -/
def run (es : List Event) : Option Watcher := es.foldlM step {}

/-- A route is chosen exactly if allowed IPs are installed, for its peer, and the handler was
never called out of turn. -/
def Matches (w : Watcher) : Prop :=
  w.installed = w.currentChosen.map Route.peer ∧ w.outOfTurn = false

/-- A recalculation gives the chosen route up for another, or for its new state, and can remove
the allowed IPs but not add them. -/
def Strands (w : Watcher) (env : Env) : Prop :=
  w.currentChosen ≠ none ∧ env.removed = true ∧ env.added = false ∧
    ∃ id status, w.getBestRouteFromStatuses env (w.routerPeerStatuses env) = some (id, status) ∧
      id ≠ [] ∧ w.shouldSkipRecalculation id status = false ∧ get w.routes id ≠ none

variable {w w' : Watcher} {env : Env}

theorem matches_choose {id : Bytes} {status : RouterPeerStatus} (hinstalled : w.installed = none)
    (hturn : w.outOfTurn = false) (hw : w.choose env id status = some w') :
    w'.Matches ↔ (env.added = false → w.currentChosen = none) := by
  obtain ⟨r, -, rfl⟩ := Option.map_eq_some_iff.mp hw
  cases hadded : env.added <;> simp [Matches, addAllowedIPs, hadded, hinstalled, hturn, eq_comm]

theorem Matches.removeAllowedIPs {r : Route} (h : w.Matches) (env : Env)
    (hr : w.currentChosen = some r) :
    (w.removeAllowedIPs env).installed = (if env.removed then none else some r.peer) ∧
      (w.removeAllowedIPs env).outOfTurn = false := by
  obtain ⟨hinstalled, hturn⟩ := h
  simp [Watcher.removeAllowedIPs, hinstalled, hturn, hr]

/-- The step: only a recalculation that strands the allowed IPs breaks the match. -/
theorem Matches.recalculateRoutes_iff (h : w.Matches) (hw : w.recalculateRoutes env = some w') :
    w'.Matches ↔ ¬ w.Strands env := by
  obtain ⟨⟨id, status⟩, hbest, hw⟩ := Option.bind_eq_some_iff.mp hw
  have hstrands : w.Strands env ↔ w.currentChosen ≠ none ∧ env.removed = true ∧
      env.added = false ∧ id ≠ [] ∧ w.shouldSkipRecalculation id status = false ∧
        get w.routes id ≠ none := by
    simp [Strands, hbest]
  rw [hstrands]
  dsimp only at hw
  split at hw
  next hid =>
    simp only [hid, ne_eq, not_true_eq_false, false_and, and_false, not_false_eq_true, iff_true]
    split at hw
    · cases hw
      exact h
    next r hr =>
      cases hw
      cases hremoved : env.removed <;> simp_all [Matches, Watcher.removeAllowedIPs]
  next hid =>
    split at hw
    next hskip =>
      cases hw
      simpa [hskip] using h
    next hskip =>
      split at hw
      next hnone =>
        rw [matches_choose (h.1.trans (by rw [hnone]; rfl)) h.2 hw]
        simp [hnone]
      next r hr =>
        obtain ⟨hinstalled, hturn⟩ := h.removeAllowedIPs env hr
        cases hremoved : env.removed with
        | false =>
          rw [hremoved] at hw hinstalled
          cases hw
          have hkept : (w.removeAllowedIPs env).Matches :=
            ⟨hinstalled.trans (congrArg (Option.map Route.peer) hr).symm, hturn⟩
          simp [hkept]
        | true =>
          rw [hremoved] at hw hinstalled
          obtain ⟨newChosenRoute, hget, -⟩ := Option.map_eq_some_iff.mp hw
          have hroute : get w.routes id = some newChosenRoute := hget
          rw [matches_choose hinstalled hturn hw]
          simp [hid, hskip, hr, hroute, Watcher.removeAllowedIPs]

/-- A recalculation that strands the allowed IPs does not panic. -/
theorem Strands.exists_recalculateRoutes (h : w.Strands env) :
    ∃ w', w.recalculateRoutes env = some w' := by
  obtain ⟨hchosen, hremoved, -, id, status, hbest, hid, hskip, hget⟩ := h
  obtain ⟨r, hr⟩ := Option.ne_none_iff_exists'.mp hchosen
  obtain ⟨r', hr'⟩ := Option.ne_none_iff_exists'.mp hget
  have hroutes : get (w.removeAllowedIPs env).routes id = some r' := hr'
  simp [recalculateRoutes, hbest, hid, hskip, hr, hremoved, choose, hroutes]

/-- The match is about the chosen route and the handler only. -/
theorem matches_congr (hchosen : w'.currentChosen = w.currentChosen)
    (hinstalled : w'.installed = w.installed) (hturn : w'.outOfTurn = w.outOfTurn) :
    w'.Matches ↔ w.Matches := by
  rw [Matches, hchosen, hinstalled, hturn, Matches]

theorem classifyUpdate_matches {routes : List Route} {differs : Bool}
    (hw : w.classifyUpdate env routes = some (w', differs)) : w'.Matches ↔ w.Matches := by
  obtain ⟨notifiers, -, heq⟩ := Option.map_eq_some_iff.mp hw
  cases heq
  exact matches_congr rfl rfl rfl

/-- The watcher that recalculates has the match of the one that received the event. -/
theorem Matches.of_recalculation (h : w.Matches) {e : Event}
    (hrec : w.recalculation e = some (w', env)) : w'.Matches := by
  cases e with
  | peerStateUpdate env =>
    cases hrec
    exact h
  | routeUpdate updateSerial routes env =>
    simp only [recalculation] at hrec
    split at hrec
    · cases hrec
    · obtain ⟨⟨w₁, differs⟩, hclassify, hrec⟩ := Option.bind_eq_some_iff.mp hrec
      dsimp only at hrec
      split at hrec
      · cases hrec
        exact (matches_congr rfl rfl rfl).mpr ((classifyUpdate_matches hclassify).mpr h)
      · cases hrec

/-- A turn ends with the match that its recalculation has, or with the one before. -/
theorem Matches.step_iff (h : w.Matches) {e : Event} (hw : w.step e = some w') :
    w'.Matches ↔ ∀ w₁ env, w.recalculation e = some (w₁, env) → ¬ w₁.Strands env := by
  -- what a recalculation leaves decides, whatever follows it
  have hrecalculated : ∀ {w₁ w₂ env}, w.recalculation e = some (w₁, env) →
      w₁.recalculateRoutes env = some w₂ →
      (w₂.Matches ↔ ∀ w₁ env, w.recalculation e = some (w₁, env) → ¬ w₁.Strands env) := by
    intro w₁ w₂ env hrec hw₂
    rw [(h.of_recalculation hrec).recalculateRoutes_iff hw₂]
    simp [hrec]
  cases e with
  | peerStateUpdate env => exact hrecalculated rfl hw
  | routeUpdate updateSerial routes env =>
    simp only [step] at hw
    split at hw
    next hold =>
      cases hw
      simpa [recalculation, hold] using h
    next hnew =>
      obtain ⟨⟨w₁, differs⟩, hclassify, hw⟩ := Option.bind_eq_some_iff.mp hw
      obtain ⟨w₂, hw₂, rfl⟩ := Option.map_eq_some_iff.mp hw
      have hwatchers : (w₂.startNewPeerStatusWatchers env).Matches ↔ w₂.Matches :=
        matches_congr rfl rfl rfl
      rw [hwatchers]
      cases differs with
      | true =>
        refine hrecalculated ?_ hw₂
        simp [recalculation, hnew, hclassify]
      | false =>
        cases hw₂
        have hkept : { w₁ with updateSerial := updateSerial }.Matches :=
          (matches_congr rfl rfl rfl).mpr ((classifyUpdate_matches hclassify).mpr h)
        simpa [recalculation, hnew, hclassify] using hkept

/-- A turn whose recalculation strands the allowed IPs does not panic. -/
theorem exists_step_of_strands {e : Event} {w₁ : Watcher}
    (hrec : w.recalculation e = some (w₁, env)) (h : w₁.Strands env) :
    ∃ w', w.step e = some w' := by
  obtain ⟨w₂, hw₂⟩ := h.exists_recalculateRoutes
  cases e with
  | peerStateUpdate env' =>
    cases hrec
    exact ⟨w₂, hw₂⟩
  | routeUpdate updateSerial routes env' =>
    simp only [recalculation] at hrec
    split at hrec
    · cases hrec
    next hnew =>
      obtain ⟨⟨w', differs⟩, hclassify, hrec⟩ := Option.bind_eq_some_iff.mp hrec
      cases differs with
      | false => cases hrec
      | true =>
        cases hrec
        simp [step, hnew, hclassify, hw₂]

end Watcher

open Watcher

/-- **The chosen route is the installed one** all along if and only if no recalculation strands
the allowed IPs. -/
theorem matches_iff (es : List Event) :
    (∀ pre, pre <+: es → ∀ w, run pre = some w → w.Matches) ↔
      ∀ pre e, pre ++ [e] <+: es → ∀ w w' env, run pre = some w →
        w.recalculation e = some (w', env) → ¬ w'.Strands env := by
  refine Transition.forall_prefix_iff (fun w hw => ?_) fun pre e _ h => ?_
  · cases hw
    exact ⟨rfl, rfl⟩
  · have hrun : ∀ w', run (pre ++ [e]) = some w' ↔
        ∃ w, run pre = some w ∧ w.step e = some w' := by
      intro w'
      rw [run, List.foldlM_append, Option.bind_eq_bind, Option.bind_eq_some_iff]
      simp [run]
    simp only [hrun]
    constructor
    · intro hnext w w₁ env hw hrec hstrands
      obtain ⟨w', hw'⟩ := exists_step_of_strands hrec hstrands
      exact ((h w hw).step_iff hw').mp (hnext w' ⟨w, hw, hw'⟩) w₁ env hrec hstrands
    · rintro hkept w' ⟨w, hw, hw'⟩
      exact ((h w hw).step_iff hw').mpr fun w₁ env => hkept w w₁ env hw

/-- The route goes over from one connected peer to another, and the addition fails. -/
theorem allowedIPs_stranded : let env (peer : Bytes) (added : Bool) : Env :=
      ⟨[(peer, { status := .connected })], .kept, added, true⟩
    let route (id peer : Bytes) : Route := { id := id, peer := peer }
    (run [.routeUpdate 1 [route [1] [10]] (env [10] true),
      .routeUpdate 2 [route [2] [20]] (env [20] false)]).map (fun w =>
        (w.currentChosen.map Route.peer, w.installed)) = some (some [10], none) := by
  decide +kernel

end RouteWatcher
