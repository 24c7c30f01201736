/-
# Posture checks on the sources of routes

The firewall rules of a routing peer keep out the sources of a policy that fail its posture
checks by asking a table of failures.  The table is filled while the source groups of the
enabled rules are searched, so it knows nothing of a source that no search visits, such as
the peer resource of a rule.
-/
import AnonBird.ResourceAccess

open GoStrings NetIP

namespace Management

open Components

namespace Account

variable (a : Account) (ord : GoMap.RangeOrder Bytes) (validated : List Bytes) (target : Bytes)
  (policy : Policy)

/-- The rules of a policy are expanded for a route of the target that is handed to a peer: the
policy is relevant to the target, which routes the route, and one of the access control groups of
the route is a destination of the policy. -/
def ForRoute (pid : Bytes) : Prop :=
  a.policyRelevant validated target (a.accessGroups ord) policy = true ∧
  ∃ r ∈ a.routeList ord, r.enabled = true ∧
    (r.peer = target ∨ target ∈ peersOf a.getGroup r.peerGroups) ∧
    pid ∈ peersOf a.getGroup r.groups ∧
    ∃ gid ∈ r.accessControlGroups, ∃ rule ∈ policy.rules, gid ∈ rule.destinations

/-- The rules of a policy are expanded for a network resource that the target routes. -/
def ForResource : Prop :=
  ∃ resource ∈ a.networkResources, resource.enabled = true ∧ a.Routes target resource ∧
    policy ∈ a.expandedPolicies resource

/-- The checks of a policy are evaluated on a source of one of its rules.  The source is validated,
and it is in a source group of the rule that has no peer resource, not behind a group named All; or
the target routes a resource of the policy, which counts the peer among its sources. -/
def Examined (rule : PolicyRule) (pid : Bytes) : Prop :=
  pid ∈ validated ∧
    (rule.sourceResource.isPeer = false ∧
        pid ∈ visitedPeers a.getGroup (rule.sources.length = 1) rule.sources ∨
      pid ∈ a.policySources ord policy ∧ ∃ resource ∈ a.networkResources, resource.enabled = true ∧
        (get (a.routersOf resource.networkID) target).isSome = true ∧
        policy ∈ a.getPoliciesForNetworkResource resource.id)

/-- Of the rules that are expanded for the target, the sources that a map can have and that fail a
check of the policy are examined. -/
def FailuresExamined : Prop :=
  ∀ pr ∈ activeRules a.policies, ∀ pid ∈ a.otherSources target pr.2,
    a.Collectable ord validated target pid →
    a.ForRoute ord validated target pr.1 pid ∨ a.ForResource target pr.1 →
    a.validatePostureChecksOnPeer pr.1.sourcePostureChecks pid = false →
    a.Examined ord validated target pr.1 pr.2 pid

instance (pid : Bytes) : Decidable (a.ForRoute ord validated target policy pid) :=
  inferInstanceAs (Decidable (_ ∧ ∃ r ∈ a.routeList ord, _))

instance : Decidable (a.ForResource target policy) :=
  inferInstanceAs (Decidable (∃ resource ∈ a.networkResources, _))

instance (rule : PolicyRule) (pid : Bytes) :
    Decidable (a.Examined ord validated target policy rule pid) :=
  inferInstanceAs (Decidable (_ ∧ (_ ∧ _ ∨ _ ∧ ∃ resource ∈ a.networkResources, _)))

instance : Decidable (a.FailuresExamined ord validated target) :=
  inferInstanceAs (Decidable (∀ pr ∈ activeRules a.policies, ∀ pid ∈ a.otherSources target pr.2, _))

end Account

/-! ## Routes of a routing peer -/

/-- No route is added. -/
theorem Components.mem_of_mem_takeRoutes {routes : List Route} {r : Route}
    (h : r ∈ takeRoutes routes) : r ∈ routes := by
  refine List.foldlRecOn (motive := fun s : List Route × List Bytes => ∀ x ∈ s.1, x ∈ routes)
    routes _ (by simp) (fun ⟨taken, seen⟩ hs y hy => ?_) r h
  dsimp only
  split
  · exact hs
  · intro x hx
    rcases List.mem_append.mp hx with hx | hx
    · exact hs x hx
    · rw [List.mem_singleton.mp hx]
      exact hy

/-- An enabled route of a routing peer is one of the account that names it or a group of it. -/
theorem Components.exists_of_mem_getRoutingPeerRoutes {c : Components} {target : Bytes}
    {route : Route} (h : route ∈ (c.getRoutingPeerRoutes target).1) :
    ∃ r ∈ c.routes, r.enabled ∧
      (r.peer = target ∨ target ∈ peersOf c.getGroupInfo r.peerGroups) ∧
      route.groups = r.groups ∧ route.accessControlGroups = r.accessControlGroups := by
  rw [getRoutingPeerRoutes] at h
  split at h
  · simp at h
  · obtain ⟨hroute, hen⟩ := List.mem_filter.mp h
    obtain ⟨through, hthrough, rfl⟩ := List.mem_map.mp hroute
    obtain ⟨r, hr, hthrough⟩ := List.mem_flatMap.mp (mem_of_mem_takeRoutes hthrough)
    rcases List.mem_append.mp hthrough with hthrough | hthrough
    · obtain ⟨gid, hgid, rfl⟩ := List.mem_map.mp hthrough
      obtain ⟨hgid, hmember⟩ := List.mem_filter.mp hgid
      refine ⟨r, hr, hen, .inr ?_, rfl, rfl⟩
      split at hmember
      · cases hmember
      next group hgroup =>
        exact mem_peersOf.mpr ⟨gid, hgid, group, hgroup, List.contains_iff_mem.mp hmember⟩
    · obtain ⟨hpeer, hmem⟩ := List.mem_ite_nil_right.mp hthrough
      obtain rfl := List.mem_singleton.mp hmem
      exact ⟨_, hr, hen, .inl hpeer, rfl, rfl⟩

section Enforcement

variable {a : Account} {env : Env} {ord : GoMap.RangeOrder Bytes} {peer : Peer} {req : Request}
  {c : Components}
  (h : c.Built a ord peer req a.getResourcePoliciesMap a.getResourceRoutersMap)

include h

variable {res : ResourceRoutes} {policy : Policy} {rule : PolicyRule} {route : Route}
  {peers : List Peer}

/-- A rule that is expanded is an enabled rule of the account, and the checks of its policy are
referred to. -/
theorem active_of_expands (hres : c.getNetworkResourcesRoutesToSync env ord peer.id = .ok res)
    (hexpands : c.Expands ord peer.id res.routes policy rule route peers) :
    (policy, rule) ∈ activeRules a.policies ∧ (policy ∈ c.policies ∨
        ∃ id ps, get c.resourcePoliciesMap id = some ps ∧ policy ∈ ps) := by
  cases hexpands with
  | route _ _ hrule =>
    obtain ⟨hpolicy, hen, hmem, hren⟩ := mem_activeRules.mp hrule
    have hkept := (mem_of_mem_getAllRoutePoliciesFromGroups hpolicy).1
    refine ⟨mem_activeRules.mpr ⟨?_, hen, hmem, hren⟩, .inl hkept⟩
    rw [h.policies] at hkept
    exact (List.mem_filter.mp hkept).1
  | resource hroute _ _ hrule =>
    obtain ⟨resource, hroute⟩ := exists_routeOf hres hroute
    obtain ⟨-, hactive, hkept⟩ := expanded_of_routeOf h hroute hrule
    exact ⟨hactive, .inr hkept⟩

/-- A source that gets through has no failure recorded, and the rules of the policy are expanded for
a route that it may use. -/
theorem source_of_expands (hres : c.getNetworkResourcesRoutesToSync env ord peer.id = .ok res)
    (hpeer : a.getPeer peer.id = some peer) {q : Peer}
    (hexpands : c.Expands ord peer.id res.routes policy rule route peers) (hq : q ∈ peers) :
    q.id ∈ a.otherSources peer.id rule ∧ c.getPeerInfo q.id = some q ∧
      (a.ForRoute ord req.validated peer.id policy q.id ∨ a.ForResource peer.id policy) ∧
      ∀ chk ∈ policy.sourcePostureChecks, ¬ c.postureFailedPeers.Has chk q.id := by
  have hrulePeers : ∀ {distributionPeers : List Bytes},
      q ∈ c.getRulePeers ord rule policy.sourcePostureChecks peer.id distributionPeers →
      q.id ∈ a.otherSources peer.id rule ∧ c.getPeerInfo q.id = some q ∧ q.id ∈ distributionPeers ∧
        ∀ chk ∈ policy.sourcePostureChecks, ¬ c.postureFailedPeers.Has chk q.id := by
    intro distributionPeers hq
    obtain ⟨pid, hinfo, hrule, -⟩ := mem_getRulePeers.mp hq
    obtain rfl := h.keyedById pid q hinfo
    rw [isRulePeer, validatePostureChecksOnPeer] at hrule
    simp only [Bool.and_eq_true, List.all_eq_true, List.contains_iff_mem] at hrule
    refine ⟨mem_otherSources_of_mem_getRulePeers h hq, hinfo, hrule.1.1,
      fun chk hchk hfailed => ?_⟩
    have hnot := hrule.2.2 chk hchk
    simp only [Bool.not_eq_true', ← Bool.not_eq_true, List.contains_iff_mem] at hnot
    exact hnot hfailed
  cases hexpands with
  | route hroute hgroup hrule =>
    obtain ⟨hsource, hinfo, hdistribution, hclean⟩ := hrulePeers hq
    obtain ⟨r, hr, hen, hrouter, hgroups, haccess⟩ := exists_of_mem_getRoutingPeerRoutes hroute
    obtain ⟨hkept, other, hother, hdst⟩ :=
      mem_of_mem_getAllRoutePoliciesFromGroups (mem_activeRules.mp hrule).1
    rw [h.policies] at hkept
    rw [getDistributionGroupsPeers, hgroups] at hdistribution
    rw [haccess] at hgroup
    rw [h.routes] at hr
    refine ⟨hsource, hinfo, .inl ⟨(List.mem_filter.mp hkept).2, r, hr, hen, ?_, ?_, _, hgroup,
      other, hother, hdst⟩, hclean⟩
    · exact hrouter.imp_right (peersOf_of_getGroupInfo h)
    · exact peersOf_of_getGroupInfo h hdistribution
  | resource hroute htarget hserved hrule =>
    obtain ⟨hsource, hinfo, -, hclean⟩ := hrulePeers hq
    obtain ⟨resource, hroute⟩ := exists_routeOf hres hroute
    obtain ⟨hexpanded, -, -⟩ := expanded_of_routeOf h hroute hrule
    obtain ⟨hresource, henabled, -⟩ := h.resources resource hroute.1
    cases htarget.symm.trans (h.getPeerInfo_target hpeer)
    exact ⟨hsource, hinfo, .inr ⟨resource, hresource, henabled,
      routes_of_routeOf h hpeer hroute hserved, (mem_activeRules.mp hexpanded).1⟩, hclean⟩

/-- The failure of a source that is examined is recorded. -/
theorem has_of_examined {pid : Bytes} {q : Peer} (hactive : (policy, rule) ∈ activeRules a.policies)
    (hkept : policy ∈ c.policies ∨ ∃ id ps, get c.resourcePoliciesMap id = some ps ∧ policy ∈ ps)
    (hinfo : c.getPeerInfo pid = some q)
    (hfails : a.validatePostureChecksOnPeer policy.sourcePostureChecks pid = false)
    (hexamined : a.Examined ord req.validated peer.id policy rule pid) :
    ∃ chk ∈ policy.sourcePostureChecks, c.postureFailedPeers.Has chk pid := by
  obtain ⟨hhas, hget⟩ := h.getPeerInfo_eq_some.mp hinfo
  obtain ⟨chk, hfailed⟩ : ∃ chk, a.failedCheck policy.sourcePostureChecks q = some chk := by
    refine Option.ne_none_iff_exists'.mp fun hnone => ?_
    rw [Account.validatePostureChecksOnPeer, hget] at hfails
    have hpasses := List.all_eq_true.mpr (failedCheck_eq_none.mp hnone)
    exact Bool.noConfusion (hfails.symm.trans hpasses)
  have hchk := (not_passes_of_failedCheck hfailed).1
  refine ⟨chk, hchk, ?_⟩
  obtain ⟨hval, ⟨hres, hvisited⟩ | ⟨hsources, resource, hresource, hen, hrouter, hpolicy⟩⟩ :=
    hexamined
  · refine h.failed_complete (policy, rule) hactive hres pid hvisited chk ⟨hval, q, hget, hfailed⟩
      hhas ?_
    rcases hkept with hpolicy | ⟨id, ps, hps, hpolicy⟩
    · exact .inl ⟨policy, hpolicy, hchk⟩
    · exact .inr ⟨id, ps, hps, policy, hpolicy, hchk⟩
  · cases hpids : policyPeers ord a.getGroup policy with
    | error e =>
      rw [Account.policySources, hpids] at hsources
      cases hsources
    | ok pids =>
      rw [Account.policySources, hpids] at hsources
      obtain ⟨ps, hps⟩ : ∃ ps, get a.getResourcePoliciesMap resource.id = some ps :=
        GoMap.exists_get_build _ _ (List.mem_filter.mpr ⟨hresource, hen⟩)
      obtain ⟨rfl, -⟩ := Account.of_get_getResourcePoliciesMap hps
      refine h.failed_routed resource hresource hen hrouter _ hps policy hpolicy pids hpids pid
        hsources hval hhas chk hchk ?_
      simp [Account.getFailed_eq, hget, hfailed]

/-- The sources of a rule for a route pass the checks of its policy. -/
theorem passes_of_mem_expands (hpeer : a.getPeer peer.id = some peer)
    (hexamined : a.FailuresExamined ord req.validated peer.id)
    (hres : c.getNetworkResourcesRoutesToSync env ord peer.id = .ok res)
    (hexpands : c.Expands ord peer.id res.routes policy rule route peers) {q : Peer}
    (hq : q ∈ peers) : a.validatePostureChecksOnPeer policy.sourcePostureChecks q.id := by
  obtain ⟨hactive, hkept⟩ := active_of_expands h hres hexpands
  obtain ⟨hsource, hinfo, hfor, hclean⟩ := source_of_expands h hres hpeer hexpands hq
  by_contra hfails
  obtain ⟨chk, hchk, hhas⟩ := has_of_examined h hactive hkept hinfo (Bool.eq_false_iff.mpr hfails)
    (hexamined (policy, rule) hactive q.id hsource (collectable_of_getPeerInfo h hinfo) hfor
      (Bool.eq_false_iff.mpr hfails))
  exact hclean chk hchk hhas

end Enforcement

/-- **Posture checks are enforced on routes**, if every source that fails a check of its policy is
examined: whatever is expanded has only sources that pass the policy's checks. -/
theorem posture_enforced {a : Account} {env : Env} {ord : GoMap.RangeOrder Bytes} {target : Bytes}
    {req : Request} {c : Components} {nm : NetworkMap}
    (hexamined : a.FailuresExamined ord req.validated target)
    (h : a.getPeerNetworkMapComponents env ord target req a.getResourcePoliciesMap
      a.getResourceRoutersMap = .ok (some c)) (hcalculate : c.calculate env ord = .ok nm) :
    ∃ res, c.getNetworkResourcesRoutesToSync env ord target = .ok res ∧
      (∀ r ∈ nm.routesFirewallRules,
        (r.sourceRanges = [ascii "0.0.0.0/0"] ∨ r.sourceRanges = [ascii "::/0"]) ∨
        ∃ policy rule route peers, c.Expands ord target res.routes policy rule route peers ∧
          r.Stems route rule peers) ∧
      ∀ policy rule route peers, c.Expands ord target res.routes policy rule route peers →
        ∀ q ∈ peers, a.validatePostureChecksOnPeer policy.sourcePostureChecks q.id = true := by
  rcases getPeerNetworkMapComponents_cases h with ⟨hnone, -⟩ | ⟨peer, c', hc, -, hpeer, hbuilt⟩
  · exact absurd hnone (Option.some_ne_none c)
  · cases hc
    obtain rfl := Account.id_of_getPeer hpeer
    obtain ⟨res, hres, rfl⟩ := calculate_eq_ok.mp hcalculate
    rw [hbuilt.peerID] at hres
    refine ⟨res, hres, fun r hr => ?_, ?_⟩
    · rw [← hbuilt.peerID]
      exact (permit_or_expands_of_mem hr).imp_left fun ⟨_, _, _, h⟩ => ranges_getDefaultPermit h
    · intro policy rule route peers hexpands q hq
      exact passes_of_mem_expands hbuilt hpeer hexamined hres hexpands hq

/-! ## A route with an access policy -/

/-- A routing peer and a client that fails the checks of the policy for the route, whose sources are
a parameter. -/
def routedAccount (sources : List Bytes) (sourceResource : Resource) : Account where
  peers := twoPeers
  peers_id := twoPeers_id
  groups := [(ascii "g", { id := ascii "g", name := ascii "all", peers := [ascii "t", ascii "u"] }),
    (ascii "x", { id := ascii "x", name := ascii "routed", peers := [] })]
  policies := [
    { id := ascii "p1"
      rules := [{
        id := ascii "r1"
        policyID := ascii "p1"
        sources := [ascii "g"]
        destinations := [ascii "g"] }] },
    { id := ascii "p2"
      sourcePostureChecks := [ascii "chk"]
      rules := [{
        id := ascii "r2"
        policyID := ascii "p2"
        sources := sources
        sourceResource := sourceResource
        destinations := [ascii "x"] }] }]
  routes := [(ascii "n", {
    id := ascii "n"
    network := some ⟨.v4 0x0A000000#32, 8⟩
    networkType := .ipv4
    peer := ascii "t"
    peerID := ascii "t"
    groups := [ascii "g"]
    accessControlGroups := [ascii "x"] })]
  postureChecks := [{ id := ascii "chk", checks := [fun p => p.id ≠ ascii "u"] }]

/-- The client as a member of a source group is found to fail, and kept out. -/
theorem posture_enforced_group : ∃ c nm,
    (routedAccount [ascii "g"] {}).getPeerNetworkMapComponents Env.plain .kept (ascii "t")
      (Request.plain [ascii "t", ascii "u"]) (routedAccount [ascii "g"] {}).getResourcePoliciesMap
      (routedAccount [ascii "g"] {}).getResourceRoutersMap = .ok (some c) ∧
    c.calculate Env.plain .kept = .ok nm ∧
    ∃ res, c.getNetworkResourcesRoutesToSync Env.plain .kept (ascii "t") = .ok res ∧
      ∀ policy rule route peers, c.Expands .kept (ascii "t") res.routes policy rule route peers →
        ∀ q ∈ peers, (routedAccount [ascii "g"] {}).validatePostureChecksOnPeer
          policy.sourcePostureChecks q.id = true := by
  have hmap : ((routedAccount [ascii "g"] {}).getPeerNetworkMapFromComponents Env.plain .kept
      (ascii "t") (Request.plain [ascii "t", ascii "u"])).map
      (fun nm => nm.peers.map Peer.id) = .ok [ascii "u"] := by
    decide +kernel
  obtain ⟨nm, hnm, hpeers⟩ := Except.map_eq_ok.mp hmap
  obtain ⟨components, hcomponents, hcalculate⟩ := Except.bind_eq_ok.mp hnm
  cases components with
  | none =>
    cases hcalculate
    simp at hpeers
  | some c =>
    have hexamined : (routedAccount [ascii "g"] {}).FailuresExamined .kept
        (Request.plain [ascii "t", ascii "u"]).validated (ascii "t") := by
      decide +kernel
    obtain ⟨res, hres, -, hpasses⟩ := posture_enforced hexamined hcomponents hcalculate
    exact ⟨c, nm, hcomponents, hcalculate, res, hres, hpasses⟩

/-- The client as the source peer resource of the rule is let through, though it fails the
check of the policy. -/
theorem failing_resource_let_through : ∃ nm,
    (routedAccount [] { id := ascii "u", type := some .peer }).getPeerNetworkMapFromComponents
      Env.plain .kept (ascii "t") (Request.plain [ascii "t", ascii "u"]) = .ok nm ∧
    (∃ r ∈ nm.routesFirewallRules, r.policyID = ascii "p2" ∧
      r.sourceRanges = [ascii "100.64.0.2/32"]) ∧
    (routedAccount [] { id := ascii "u", type := some .peer }).validatePostureChecksOnPeer
      [ascii "chk"] (ascii "u") = false :=
  Except.exists_of_decide (by decide +kernel)

end Management
