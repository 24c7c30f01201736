/-
# Access to network resources

A policy applies to a network resource if one of its enabled rules has the resource as its
destination; the routes and firewall rules of the resource are then made from the whole
policy.  Where the rules with a source of the policy all target the resource this is the access that
the rules grant; with other rules in the policy it can be more.
-/
import AnonBird.MapSpec

open GoStrings NetIP List Except

namespace Management

open Request

variable {rule : PolicyRule} {pid : Bytes}

open GoMap

namespace Account

variable (a : Account)

/-! ## What the rules grant -/

/-- A rule has a network resource as its destination, by itself or through a group. -/
def targets (rule : PolicyRule) (resourceID : Bytes) : Bool :=
  rule.destinationResource.id = resourceID ||
    (a.getNetworkResourceGroups resourceID).any fun group => rule.destinations.contains group.id

/-- The sources of a rule: the members of its groups, and its peer resource. -/
def sourcesOf (rule : PolicyRule) : List Bytes :=
  peersOf a.getGroup rule.sources ++
    if rule.sourceResource.isPeer then [rule.sourceResource.id] else []

/-- An enabled rule of an enabled policy grants a peer access to a network resource. -/
def Grants (peerID resourceID : Bytes) : Prop :=
  ∃ pr ∈ activeRules a.policies, a.targets pr.2 resourceID = true ∧
    peerID ∈ a.sourcesOf pr.2 ∧
    a.validatePostureChecksOnPeer pr.1.sourcePostureChecks peerID = true

instance (peerID resourceID : Bytes) : Decidable (a.Grants peerID resourceID) :=
  inferInstanceAs (Decidable (∃ pr ∈ activeRules a.policies, _))

variable (ord : RangeOrder Bytes) (validated : List Bytes) (target : Bytes)

/-- A peer that the map for the target can have: it exists, and is the target, stands opposite to it
in a rule, or is brought by a network resource. -/
def Collectable (pid : Bytes) : Prop :=
  (a.getPeer pid).isSome = true ∧ (a.RelevantPeer validated target pid ∨
    a.Brought ord validated target a.getResourcePoliciesMap a.getResourceRoutersMap pid)

/-- The sources that a rule is expanded with on the target: a routing peer is no source of its own
through a group. -/
def otherSources (rule : PolicyRule) : List Bytes :=
  (peersOf a.getGroup rule.sources).filter (· ≠ target) ++
    if rule.sourceResource.isPeer then [rule.sourceResource.id] else []

/-- The routing peers of a network. -/
def routersOf (networkID : Bytes) : List (Bytes × NetworkRouter) :=
  (get a.getResourceRoutersMap networkID).getD []

/-- Where the target does not route a resource but another peer does, every policy for the resource
that lets the target in has a rule for the resource that grants it access, or another policy has. -/
def PoliciesGrant : Prop :=
  ∀ resource ∈ a.networkResources, resource.enabled = true →
    get (a.routersOf resource.networkID) target = none →
    (∃ q ∈ keys (a.routersOf resource.networkID), a.Collectable ord validated target q) →
    ∀ policy ∈ a.getPoliciesForNetworkResource resource.id, a.LetsIn ord target policy →
      a.Grants target resource.id

/-- The target routes a resource; routes are told apart by the keys of their peers. -/
def Routes (resource : NetworkResource) : Prop :=
  ∃ q ∈ keys (a.routersOf resource.networkID),
    (a.getPeer q).map Peer.key = (a.getPeer target).map Peer.key

/-- The policies whose rules a routing peer of the resource expands.  `GetResourceID` cuts an id at
its first colon. -/
def expandedPolicies (resource : NetworkResource) : List Policy :=
  (get a.getResourcePoliciesMap (resource.id.takeWhile (· ≠ 58))).getD []

/-- Of the rules that are expanded for a resource that the target routes, those with a source that
the map can have are for the resource. -/
def RulesTarget : Prop :=
  ∀ resource ∈ a.networkResources, resource.enabled = true → a.Routes target resource →
    ∀ pr ∈ activeRules (a.expandedPolicies resource),
      (∃ pid ∈ a.otherSources target pr.2, a.Collectable ord validated target pid) →
        a.targets pr.2 resource.id = true

instance (pid : Bytes) : Decidable (a.RelevantPeer validated target pid) :=
  inferInstanceAs (Decidable (_ ∨ ∃ pr ∈ activeRules a.policies, (_ ∧ _) ∨ (_ ∧ _)))

instance (policy : Policy) : Decidable (a.LetsIn ord target policy) :=
  decidable_of_iff (policyHasSource a ord policy target = .ok true ∧
      ((a.validatePostureChecksOnPeerGetFailed policy.sourcePostureChecks target).1 = false →
        (a.validatePostureChecksOnPeerGetFailed policy.sourcePostureChecks target).2 = [])) <| by
    refine and_congr_right' ⟨fun h c hc => ?_, fun h hfalse => h _ (Prod.ext hfalse rfl)⟩
    rw [hc] at h
    exact h rfl

instance (policies : List Policy) (routers : List (Bytes × NetworkRouter)) (pid : Bytes) :
    Decidable (a.Brings ord target policies routers pid) :=
  inferInstanceAs (Decidable (_ ∨ (_ ∨ ∃ policy ∈ policies, _) ∧ ∃ policy ∈ policies, _))

instance (pid : Bytes) : Decidable (a.Collectable ord validated target pid) :=
  inferInstanceAs (Decidable (_ ∧ (_ ∨ (_ ∧ _ ∧ ∃ resource ∈ a.networkResources, _ ∧ _))))

instance : Decidable (a.PoliciesGrant ord validated target) :=
  inferInstanceAs (Decidable (∀ resource ∈ a.networkResources, _))

instance (resource : NetworkResource) : Decidable (a.Routes target resource) :=
  inferInstanceAs (Decidable (∃ q ∈ GoMap.keys _, _))

instance : Decidable (a.RulesTarget ord validated target) :=
  inferInstanceAs (Decidable (∀ resource ∈ a.networkResources, _))

/-! ## The policies of a resource -/

variable {a}

/-- The sources of a rule. -/
theorem mem_sourcesOf :
    pid ∈ a.sourcesOf rule ↔ pid ∈ peersOf a.getGroup rule.sources ∨
      (rule.sourceResource.isPeer ∧ rule.sourceResource.id = pid) := by
  rw [sourcesOf, mem_append]
  cases rule.sourceResource.isPeer <;> simp [eq_comm]

variable {target : Bytes}

/-- The sources that a rule is expanded with. -/
theorem mem_otherSources :
    pid ∈ a.otherSources target rule ↔ (pid ≠ target ∧ pid ∈ peersOf a.getGroup rule.sources) ∨
      (rule.sourceResource.isPeer ∧ rule.sourceResource.id = pid) := by
  rw [otherSources, mem_append, mem_filter, and_comm, decide_eq_true_iff]
  cases rule.sourceResource.isPeer <;> simp [eq_comm]

/-- They are sources of the rule. -/
theorem mem_sourcesOf_of_mem_otherSources (h : pid ∈ a.otherSources target rule) :
    pid ∈ a.sourcesOf rule :=
  mem_sourcesOf.mpr ((mem_otherSources.mp h).imp_left And.right)

variable {resourceID : Bytes} {policy : Policy}

/-- The loop over the rules finds one for the resource. -/
theorem mem_policyForResource {p : Policy} {rules : List PolicyRule} :
    p ∈ policyForResource (a.getNetworkResourceGroups resourceID) resourceID policy rules ↔
      p = policy ∧ ∃ rule ∈ rules, rule.enabled ∧ a.targets rule resourceID := by
  induction rules with
  | nil => simp [policyForResource]
  | cons rule rules ih =>
    rw [policyForResource]
    cases hen : rule.enabled with
    | false => simp [ih, hen]
    | true =>
      simp only [Bool.true_eq_false, if_false]
      by_cases hres : rule.destinationResource.id = resourceID
      · rw [if_pos hres]
        simp [hen, hres, targets]
      · rw [if_neg hres]
        cases hgroup : (a.getNetworkResourceGroups resourceID).any fun group =>
          rule.destinations.contains group.id with
        | true =>
          have htargets : a.targets rule resourceID := by
            rw [targets, hgroup, Bool.or_true]
          rw [if_pos rfl, mem_cons, ih]
          tauto
        | false =>
          have htargets : a.targets rule resourceID = false := by
            rw [targets, hgroup, Bool.or_false, decide_eq_false hres]
          rw [if_neg Bool.false_ne_true, ih]
          simp only [mem_cons, exists_eq_or_imp, htargets, Bool.false_eq_true, and_false, false_or]

/-- The policies of a resource. -/
theorem mem_getPoliciesForNetworkResource :
    policy ∈ a.getPoliciesForNetworkResource resourceID ↔ policy ∈ a.policies ∧ policy.enabled ∧
      ∃ rule ∈ policy.rules, rule.enabled ∧ a.targets rule resourceID := by
  rw [getPoliciesForNetworkResource, mem_flatMap]
  simp only [mem_filter, mem_policyForResource]
  constructor
  · rintro ⟨p, ⟨hp, hen⟩, rfl, hrule⟩
    exact ⟨hp, hen, hrule⟩
  · rintro ⟨hp, hen, hrule⟩
    exact ⟨policy, ⟨hp, hen⟩, rfl, hrule⟩

/-- The policies that are collected for a resource. -/
theorem of_get_getResourcePoliciesMap {policies : List Policy}
    (h : get a.getResourcePoliciesMap resourceID = some policies) :
    policies = a.getPoliciesForNetworkResource resourceID ∧
      ∃ resource ∈ a.networkResources, resource.enabled ∧ resource.id = resourceID := by
  obtain ⟨resource, hmem, rfl, rfl⟩ := exists_of_get_build h
  obtain ⟨hmem, henabled⟩ := mem_filter.mp hmem
  exact ⟨rfl, resource, hmem, henabled, rfl⟩

end Account

/-! ## Routes of resources -/

open Account

namespace Components

/-- A route that the calculation has for a network resource. -/
def RouteOf (c : Components) (env : Env) (ord : RangeOrder Bytes) (target : Bytes)
    (resource : NetworkResource) (r : Route) : Prop :=
  resource ∈ c.networkResources ∧ resource.enabled = true ∧
    ∃ part, c.resourceRoutes env ord target resource = .ok part ∧ r ∈ part.routes

variable {a : Account} {env : Env} {ord : RangeOrder Bytes} {peer : Peer} {req : Request}
  {c : Components} {resource : NetworkResource} {r : Route}

/-- Every route is one to a resource. -/
theorem exists_routeOf {target : Bytes} {res : ResourceRoutes}
    (h : c.getNetworkResourcesRoutesToSync env ord target = .ok res) (hr : r ∈ res.routes) :
    ∃ resource, c.RouteOf env ord target resource r := by
  obtain ⟨parts, hparts, hrest⟩ := bind_eq_ok.mp h
  cases hrest
  obtain ⟨part, hpart, hr⟩ := mem_flatMap.mp hr
  obtain ⟨resource, hmem, hres⟩ := (mem_of_mapM hparts).mp hpart
  obtain ⟨hmem, henabled⟩ := mem_filter.mp hmem
  exact ⟨resource, hmem, henabled, part, hres, hr⟩

/-- The resource of a route, up to a colon. -/
theorem getResourceID_networkResourceToRoute {p : Peer} {router : NetworkRouter} :
    getResourceID (networkResourceToRoute env resource p router) =
      resource.id.takeWhile (· ≠ 58) := by
  have hid : (networkResourceToRoute env resource p router).id = resource.id ++ 58 :: p.id := by
    rw [networkResourceToRoute]
    repeat' split
    all_goals
      rw [append_assoc]
      rfl
  have hcolon : (58 :: p.id).takeWhile (fun b : UInt8 => b ≠ 58) = [] := by simp
  rw [getResourceID, hid, takeWhile_append, hcolon, append_nil]
  split
  next hall => exact (( takeWhile_prefix _).eq_of_length hall).symm
  · rfl

/-- The peer of a route, by its key. -/
theorem peer_networkResourceToRoute {p : Peer} {router : NetworkRouter} :
    (networkResourceToRoute env resource p router).peer = p.key := by
  rw [networkResourceToRoute]
  repeat' split
  all_goals rfl

variable (h : c.Built a ord peer req a.getResourcePoliciesMap a.getResourceRoutersMap)

include h

/-- The groups of the components have no other peers. -/
theorem peersOf_of_getGroupInfo {groups : List Bytes}
    (hp : pid ∈ peersOf c.getGroupInfo groups) : pid ∈ peersOf a.getGroup groups := by
  obtain ⟨gid, hgid, g, hg, hpg⟩ := mem_peersOf.mp hp
  obtain ⟨g₀, hg₀, rfl, -⟩ := h.groups_val gid g hg
  exact mem_peersOf.mpr ⟨gid, hgid, g₀, hg₀, (mem_filter.mp hpg).1⟩

/-- The peers of a rule are sources of it. -/
theorem mem_otherSources_of_mem_getRulePeers
    {checkIDs distributionPeers : List Bytes} {target : Bytes} {p : Peer}
    (hp : p ∈ c.getRulePeers ord rule checkIDs target distributionPeers) :
    p.id ∈ a.otherSources target rule := by
  obtain ⟨pid, hinfo, -, hsource⟩ := mem_getRulePeers.mp hp
  obtain rfl := h.keyedById pid p hinfo
  exact mem_otherSources.mpr (hsource.imp_left fun hg => ⟨hg.1, peersOf_of_getGroupInfo h hg.2⟩)

/-- A peer of the components can be in a map. -/
theorem collectable_of_getPeerInfo {p : Peer} (hp : c.getPeerInfo p.id = some p) :
    a.Collectable ord req.validated peer.id p.id := by
  obtain ⟨hhas, hget⟩ := h.getPeerInfo_eq_some.mp hp
  exact ⟨by rw [hget]; rfl, h.peers_new p.id hhas⟩

/-- The route of a resource leads through one of the routing peers of its network. -/
theorem exists_router_of_routeOf (hroute : c.RouteOf env ord peer.id resource r) :
    ∃ p router, c.getPeerInfo p.id = some p ∧
      get (a.routersOf resource.networkID) p.id = some router ∧
      r = networkResourceToRoute env resource p router ∧
      (p.id = peer.id ∨ get (a.routersOf resource.networkID) peer.id = none) ∧
      (get c.resourcePoliciesMap resource.id).getD [] ≠ [] := by
  obtain ⟨-, -, part, hpart, hr⟩ := hroute
  obtain ⟨p, hserved, hwhere⟩ := (partOf_resourceRoutes h.keyedById hpart).routes r hr
  obtain ⟨router, hrouter, hr⟩ := hserved.route
  -- the routers of the network are those of the account
  have hrouters : (get c.routersMap resource.networkID).getD [] =
      a.routersOf resource.networkID := by
    cases hget : get c.routersMap resource.networkID with
    | none =>
      rw [hget] at hrouter
      exact absurd hrouter.symm (Option.some_ne_none router)
    | some rs => exact h.routersMap resource.networkID rs hget
  rw [hrouters] at hrouter hwhere
  exact ⟨p, router, hserved.peer, hrouter, hr, hwhere, hserved.applied⟩

/-- A route through another peer is granted. -/
theorem grants_of_routeOf (hgrant : a.PoliciesGrant ord req.validated peer.id)
    (hroute : c.RouteOf env ord peer.id resource r) (hother : r.peerID ≠ peer.id) :
    a.Grants peer.id resource.id := by
  obtain ⟨p, router, hp, hrouter, rfl, hwhere, -⟩ := exists_router_of_routeOf h hroute
  rw [peerID_networkResourceToRoute] at hother
  have hnone := hwhere.resolve_left hother
  obtain ⟨hresource, henabled, policies, hpolicies, hreason⟩ := h.resources resource hroute.1
  obtain ⟨rfl, -⟩ := of_get_getResourcePoliciesMap hpolicies
  rcases hreason with hrouting | ⟨policy, hpolicy, hlets⟩
  · rw [← routersOf, hnone] at hrouting
    exact Bool.noConfusion hrouting
  · exact hgrant resource hresource henabled hnone
      ⟨p.id, mem_keys.mpr ⟨router, hrouter⟩, collectable_of_getPeerInfo h hp⟩ policy hpolicy hlets

variable {policy : Policy}

/-- A route with the key of the target is one of a resource that the target routes. -/
theorem routes_of_routeOf (hpeer : a.getPeer peer.id = some peer)
    (hroute : c.RouteOf env ord peer.id resource r) (hkey : r.peer = peer.key) :
    a.Routes peer.id resource := by
  obtain ⟨p, router, hp, hrouter, rfl, -, -⟩ := exists_router_of_routeOf h hroute
  rw [peer_networkResourceToRoute] at hkey
  refine ⟨p.id, mem_keys.mpr ⟨router, hrouter⟩, ?_⟩
  rw [(h.getPeerInfo_eq_some.mp hp).2, hpeer, Option.map_some, Option.map_some, hkey]

/-- The rules that are expanded for a route of a resource. -/
theorem expanded_of_routeOf (hroute : c.RouteOf env ord peer.id resource r)
    (hrule : (policy, rule) ∈ activeRules ((get c.resourcePoliciesMap (getResourceID r)).getD [])) :
    (policy, rule) ∈ activeRules (a.expandedPolicies resource) ∧
      (policy, rule) ∈ activeRules a.policies ∧
      ∃ id ps, get c.resourcePoliciesMap id = some ps ∧ policy ∈ ps := by
  obtain ⟨p, router, -, -, rfl, -, -⟩ := exists_router_of_routeOf h hroute
  rw [getResourceID_networkResourceToRoute] at hrule
  obtain ⟨hpolicy, hen, hmem, hren⟩ := mem_activeRules.mp hrule
  cases hget : get c.resourcePoliciesMap (resource.id.takeWhile (· ≠ 58)) with
  | none =>
    rw [hget] at hpolicy
    simp at hpolicy
  | some policies =>
    rw [hget, Option.getD_some] at hpolicy
    have happlied := h.appliedPolicies _ policies hget
    refine ⟨mem_activeRules.mpr ⟨?_, hen, hmem, hren⟩, mem_activeRules.mpr ⟨?_, hen, hmem, hren⟩,
      _, policies, hget, hpolicy⟩
    · rw [expandedPolicies, happlied]
      exact hpolicy
    · obtain ⟨rfl, -⟩ := of_get_getResourcePoliciesMap happlied
      exact (mem_getPoliciesForNetworkResource.mp hpolicy).1

/-- A firewall rule for a route comes from a rule for the resource. -/
theorem exists_rule_of_routeOf (htarget : a.RulesTarget ord req.validated peer.id)
    (hpeer : a.getPeer peer.id = some peer) (hroute : c.RouteOf env ord peer.id resource r)
    {includeIPv6 : Bool} {fr : RouteFirewallRule}
    (hfr : fr ∈ c.getPeerNetworkResourceFirewallRules ord peer.id [r] includeIPv6) :
    ∃ pr ∈ activeRules a.policies, a.targets pr.2 resource.id ∧
      ∃ peers, fr.Stems r pr.2 peers ∧ ∀ q ∈ peers, q.id ∈ a.sourcesOf pr.2 := by
  obtain ⟨hresource, henabled, -⟩ := h.resources resource hroute.1
  rw [getPeerNetworkResourceFirewallRules, h.getPeerInfo_target hpeer] at hfr
  obtain ⟨route, hmem, hemitted⟩ := mem_flatMap.mp hfr
  obtain ⟨hmem, hkey⟩ := mem_filter.mp hmem
  obtain rfl := mem_singleton.mp hmem
  have hroutes := routes_of_routeOf h hpeer hroute (of_decide_eq_true hkey)
  obtain ⟨hgenerated, hranges⟩ := mem_filter.mp hemitted
  obtain ⟨policy, rule, hrule, hstems⟩ := exists_stems_of_mem hgenerated
  obtain ⟨hexpanded, hactive, -⟩ := expanded_of_routeOf h hroute hrule
  -- a rule is emitted only with a source
  obtain ⟨range, hrange⟩ := exists_mem_of_ne_nil _ (of_decide_eq_true hranges)
  obtain ⟨q, hq, -⟩ := hstems.sources range hrange
  obtain ⟨pid, hinfo, -⟩ := mem_getRulePeers.mp hq
  obtain rfl := h.keyedById pid q hinfo
  exact ⟨(policy, rule), hactive, htarget resource hresource henabled hroutes _ hexpanded
    ⟨q.id, mem_otherSources_of_mem_getRulePeers h hq, collectable_of_getPeerInfo h hinfo⟩, _,
    hstems, fun q hq =>
      mem_sourcesOf_of_mem_otherSources (mem_otherSources_of_mem_getRulePeers h hq)⟩

end Components

open Components

/-- **Access to network resources is what the rules grant.** Routes lead only to resources that a
rule grants, if the policies that let the target in grant access by a rule for the resource; and
firewall rules stem from rules that target the resource, if those that are expanded do. -/
theorem resourceAccess_sound {a : Account} {env : Env} {ord : RangeOrder Bytes}
    {target : Bytes} {req : Request} {c : Components} {nm : NetworkMap}
    (h : a.getPeerNetworkMapComponents env ord target req a.getResourcePoliciesMap
      a.getResourceRoutersMap = .ok (some c)) (hcalculate : c.calculate env ord = .ok nm) :
    ∃ res, c.getNetworkResourcesRoutesToSync env ord target = .ok res ∧
      nm = c.assemble env ord res ∧
      (∀ r ∈ res.routes, ∃ resource ∈ a.networkResources, c.RouteOf env ord target resource r) ∧
      (a.PoliciesGrant ord req.validated target → ∀ resource r,
        c.RouteOf env ord target resource r → r.peerID ≠ target → a.Grants target resource.id) ∧
      (a.RulesTarget ord req.validated target → ∀ resource r, c.RouteOf env ord target resource r →
        ∀ includeIPv6, ∀ fr ∈ c.getPeerNetworkResourceFirewallRules ord target [r] includeIPv6,
          ∃ pr ∈ activeRules a.policies, a.targets pr.2 resource.id = true ∧
            ∃ peers, fr.Stems r pr.2 peers ∧ ∀ q ∈ peers, q.id ∈ a.sourcesOf pr.2) := by
  rcases getPeerNetworkMapComponents_cases h with ⟨hnone, -⟩ | ⟨peer, c', hc, hval, hpeer, hbuilt⟩
  · exact absurd hnone (Option.some_ne_none c)
  · cases hc
    obtain rfl := id_of_getPeer hpeer
    obtain ⟨res, hres, hnm⟩ := calculate_eq_ok.mp hcalculate
    rw [hbuilt.peerID] at hres
    refine ⟨res, hres, hnm, fun r hr => ?_, fun hgrant resource r hroute hother => ?_,
      fun htarget resource r hroute includeIPv6 fr hfr => ?_⟩
    · obtain ⟨resource, hroute⟩ := exists_routeOf hres hr
      exact ⟨resource, (hbuilt.resources resource hroute.1).1, hroute⟩
    · exact grants_of_routeOf hbuilt hgrant hroute hother
    · exact exists_rule_of_routeOf hbuilt htarget hpeer hroute hfr

/-- A client, a database user, and a router to the database, with the rules of one policy. -/
def databaseAccount (rules : List PolicyRule) : Account where
  peers := [(ascii "t", { id := ascii "t", key := ascii "kt", ip := some (.v4 0x64400001#32) }),
    (ascii "s", { id := ascii "s", key := ascii "ks", ip := some (.v4 0x64400002#32) }),
    (ascii "rt", { id := ascii "rt", key := ascii "kr", ip := some (.v4 0x64400003#32) })]
  groups := [(ascii "A", { id := ascii "A", name := ascii "users", peers := [ascii "s"] }),
    (ascii "B", { id := ascii "B", name := ascii "clients", peers := [ascii "t"] })]
  policies := [{ id := ascii "p", rules := rules }]
  networkRouters := [{ id := ascii "o", networkID := ascii "n", peer := ascii "rt" }]
  networkResources := [{
    id := ascii "R"
    networkID := ascii "n"
    name := ascii "db"
    netPrefix := some ⟨.v4 0x0A000001#32, 32⟩ }]

/-- The users may reach the database. -/
def databaseRule : PolicyRule where
  id := ascii "r1"
  policyID := ascii "p"
  sources := [ascii "A"]
  destinationResource := { id := ascii "R", type := some .host }

/-- The clients may reach the users. -/
def clientRule : PolicyRule where
  id := ascii "r2"
  policyID := ascii "p"
  sources := [ascii "B"]
  destinations := [ascii "A"]

open Env

/-- With the database rule alone in the policy, its user has the route and may have it. -/
theorem database_user_granted : ∃ c nm,
    (databaseAccount [databaseRule]).getPeerNetworkMapComponents plain .kept (ascii "s")
      (plain [ascii "t", ascii "s", ascii "rt"])
      (databaseAccount [databaseRule]).getResourcePoliciesMap
      (databaseAccount [databaseRule]).getResourceRoutersMap = .ok (some c) ∧
    c.calculate plain .kept = .ok nm ∧ (∃ r ∈ nm.routes, r.id = ascii "R:rt") ∧
    ∀ resource r, c.RouteOf plain .kept (ascii "s") resource r → r.peerID ≠ ascii "s" →
      (databaseAccount [databaseRule]).Grants (ascii "s") resource.id := by
  have hmap : ((databaseAccount [databaseRule]).getPeerNetworkMapFromComponents plain .kept
      (ascii "s") (plain [ascii "t", ascii "s", ascii "rt"])).map
      (fun nm => nm.routes.map Route.id) = .ok [ascii "R:rt"] := by
    decide +kernel
  obtain ⟨nm, hnm, hroutes⟩ := map_eq_ok.mp hmap
  obtain ⟨components, hcomponents, hcalculate⟩ := bind_eq_ok.mp hnm
  cases components with
  | none =>
    cases hcalculate
    simp at hroutes
  | some c =>
    refine ⟨c, nm, hcomponents, hcalculate, ?_, fun resource r hroute => ?_⟩
    · have hmem : ascii "R:rt" ∈ nm.routes.map Route.id := by rw [hroutes]; simp
      exact mem_map.mp hmem
    · obtain ⟨res, -, -, -, hsound, -⟩ := resourceAccess_sound hcomponents hcalculate
      exact hsound (by decide +kernel) resource r hroute

/-- With the client rule in the same policy, a client has a route to the database and the router
lets it through, though no rule grants it. -/
theorem client_reaches_database : ∃ nm nm',
    (databaseAccount [databaseRule, clientRule]).getPeerNetworkMapFromComponents plain .kept
      (ascii "t") (plain [ascii "t", ascii "s", ascii "rt"]) = .ok nm ∧
    (∃ r ∈ nm.routes, r.id = ascii "R:rt" ∧ r.peerID = ascii "rt") ∧
    (databaseAccount [databaseRule, clientRule]).getPeerNetworkMapFromComponents plain .kept
      (ascii "rt") (plain [ascii "t", ascii "s", ascii "rt"]) = .ok nm' ∧
    (∃ fr ∈ nm'.routesFirewallRules, fr.routeID = ascii "R:rt" ∧
      ascii "100.64.0.1/32" ∈ fr.sourceRanges) ∧
    ¬ (databaseAccount [databaseRule, clientRule]).Grants (ascii "t") (ascii "R") := by
  obtain ⟨nm, hnm, hroute⟩ := exists_of_decide
    (x := (databaseAccount [databaseRule, clientRule]).getPeerNetworkMapFromComponents plain
      .kept (ascii "t") (plain [ascii "t", ascii "s", ascii "rt"]))
    (P := fun nm => ∃ r ∈ nm.routes, r.id = ascii "R:rt" ∧ r.peerID = ascii "rt")
    (by decide +kernel)
  obtain ⟨nm', hnm', hrule⟩ := exists_of_decide
    (x := (databaseAccount [databaseRule, clientRule]).getPeerNetworkMapFromComponents plain
      .kept (ascii "rt") (plain [ascii "t", ascii "s", ascii "rt"]))
    (P := fun nm => ∃ fr ∈ nm.routesFirewallRules, fr.routeID = ascii "R:rt" ∧
      ascii "100.64.0.1/32" ∈ fr.sourceRanges)
    (by decide +kernel)
  exact ⟨nm, nm', hnm, hroute, hnm', hrule, by decide +kernel⟩

end Management
