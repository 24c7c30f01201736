/-
# Firewall rules for the routes of a routing peer

A route with access control groups gets the rules of the policies that name one of the groups: a
policy is selected once for each group and each of its rules with that destination, and all its
rules are expanded each time.  A route without groups gets a default permit.  The peer also serves
the IPv6 twin of an IPv4 default route and the routes of network resources, without a permit.
-/
import AnonBird.PostureRoutes

open GoStrings NetIP List

namespace Management

namespace Components

/-! ## Access control groups -/

variable (c : Components) (ord : GoMap.RangeOrder Bytes) (target : Bytes) (includeIPv6 : Bool)
  (r : Route)

/-- The rules of policies that are expanded for a route with access control groups, in turn. -/
def expanded : List (Policy × PolicyRule) :=
  r.accessControlGroups.flatMap fun g => activeRules (c.getAllRoutePoliciesFromGroups [g])

/-- What one rule of a policy is expanded to. -/
def expand (pr : Policy × PolicyRule) : List RouteFirewallRule :=
  generateRouteFirewallRules r pr.2 (c.getRulePeers ord pr.2 pr.1.sourcePostureChecks target
    (c.getDistributionGroupsPeers r)) includeIPv6

/-- The rules for a route with access control groups, each with the policy rule that it is generated
from and its place among what that is expanded to, where the code tells the rules apart by their
ids. -/
def generated : List ((Policy × PolicyRule) × RouteFirewallRule × ℕ) :=
  (c.expanded r).flatMap fun pr => (c.expand ord target includeIPv6 r pr).zipIdx.map (pr, ·)

/-- Every rule for the route stems from an enabled rule of an enabled policy for one of its access
control groups, and none is generated twice. -/
def RulesSound : Prop :=
  (∀ x ∈ c.generated ord target includeIPv6 r, x.1 ∈ activeRules c.policies ∧
    ∃ g ∈ r.accessControlGroups, g ∈ x.1.2.destinations) ∧
  (c.generated ord target includeIPv6 r).Nodup

instance : Decidable (c.RulesSound ord target includeIPv6 r) :=
  inferInstanceAs (Decidable ((∀ x ∈ c.generated ord target includeIPv6 r, _) ∧ _))

/-- The generated rules are those of the code. -/
theorem map_generated : (c.generated ord target includeIPv6 r).map (·.2.1) =
    r.accessControlGroups.flatMap fun accessGroup =>
      c.getRouteFirewallRules ord target (c.getAllRoutePoliciesFromGroups [accessGroup]) r
        (c.getDistributionGroupsPeers r) includeIPv6 := by
  have hexpand : (c.expanded r).flatMap (c.expand ord target includeIPv6 r) = _ := flatMap_assoc
  refine Eq.trans ?_ hexpand
  rw [generated, map_flatMap]
  congr 1
  funext pr
  rw [map_map]
  exact zipIdx_map_fst 0 _

end Components

namespace Route

variable (r : Route) (policy : Policy) (rule : PolicyRule) (includeIPv6 : Bool)

/-- How often a policy is for the route: once for each access control group of the route and each
of its rules, enabled or not, with that destination. -/
def selections : ℕ :=
  (r.accessControlGroups.map fun g => policy.rules.countP (·.destinations.contains g)).sum

/-- A policy rule says something about the route: the peer has its family, and the rule names no
ports, or a valid one. -/
def Speaks : Prop :=
  (isV6 r.network = true → includeIPv6 = true) ∧
    (rule.ports = [] ∨ ∃ port ∈ rule.ports, parseUint port 16 ≠ none)

instance : Decidable (r.Speaks rule includeIPv6) :=
  inferInstanceAs (Decidable ((_ → _) ∧ (_ ∨ ∃ port ∈ rule.ports, parseUint port 16 ≠ none)))

end Route

section Speaks

variable {base : RouteFirewallRule} {rule : PolicyRule} {r : Route} {includeIPv6 : Bool}

/-- A policy rule gives firewall rules for a family unless it names ports, and none that is
valid. -/
theorem generateRulesForFamily_ne_nil_iff : (generateRulesForFamily base rule []).1 ≠ [] ↔
    rule.ports = [] ∨ ∃ port ∈ rule.ports, parseUint port 16 ≠ none := by
  unfold generateRulesForFamily
  split
  next hports =>
    refine iff_of_true ?_ (.inl hports)
    unfold generateRulesWithPortRanges
    dsimp only
    split
    · simp
    next hranges =>
      obtain ⟨range, hrange⟩ := exists_mem_of_ne_nil _ hranges
      exact (dedup_ne_nil_iff
        (fun range : PortRange => generateRuleIDBase rule base ++ formatUint range.start.toNat ++
          ascii "-" ++ formatUint range.stop.toNat)
        (fun range => some { base with portRange := range }) (fun _ _ _ => rfl) _).mpr
        ⟨range, hrange, rfl⟩
  next hports =>
    rw [generateRulesWithPorts_eq,
      dedup_ne_nil_iff (fun port => generateRuleIDBase rule base ++ port)]
    · simp [hports, Option.isSome_iff_ne_none]
    · intro port port' hkey
      rw [append_cancel_left hkey]

/-- A policy rule is expanded to something exactly if it says something about the route. -/
theorem generateRouteFirewallRules_ne_nil_iff {peers : List Peer} :
    generateRouteFirewallRules r rule peers includeIPv6 ≠ [] ↔ r.Speaks rule includeIPv6 := by
  constructor
  · intro hne
    refine ⟨fun hv6 => ?_, ?_⟩
    · by_contra hno
      refine hne ?_
      unfold generateRouteFirewallRules
      simp [hv6, hno]
    · obtain ⟨fw, hfw⟩ := exists_mem_of_ne_nil _ hne
      obtain ⟨hports, -⟩ | ⟨hports, -⟩ | ⟨-, port, hport, n, hn, -⟩ := (stems_of_mem hfw).ports
      · exact .inl hports
      · exact .inl hports
      · exact .inr ⟨port, hport, by simp [hn]⟩
  · rintro ⟨hfamily, hports⟩
    have hv6 : (isV6 r.network && !includeIPv6) = false := by
      cases h : isV6 r.network
      · rfl
      · simp [hfamily h]
    unfold generateRouteFirewallRules
    simp only [hv6, Bool.false_eq_true, if_false]
    split
    · exact append_ne_nil_of_left_ne_nil (generateRulesForFamily_ne_nil_iff.mpr hports) _
    · exact generateRulesForFamily_ne_nil_iff.mpr hports

end Speaks

namespace Components

variable {c : Components} {ord : GoMap.RangeOrder Bytes} {target : Bytes} {includeIPv6 : Bool}
  {r : Route}

/-- A rule is expanded as often as its policy is for the route, for each time it is there. -/
theorem count_expanded (pr : Policy × PolicyRule) :
    (c.expanded r).count pr = r.selections pr.1 * (activeRules c.policies).count pr := by
  have hflatMap : ∀ {α : Type} (l : List α) (f : α → List Policy),
      activeRules (l.flatMap f) = l.flatMap fun x => activeRules (f x) := by
    intro α l f
    simp only [activeRules, filter_flatMap, flatMap_assoc]
  -- the rules of another policy are other rules
  have hpolicy : ∀ policy, pr.1 ≠ policy → (activeRules [policy]).count pr = 0 := by
    intro policy hne
    rw [count_eq_zero]
    intro hmem
    exact hne (mem_singleton.mp (mem_activeRules.mp hmem).1)
  have hone : ∀ (policy : Policy) (rules : List PolicyRule),
      (activeRules (rules.map fun _ => policy)).count pr =
        rules.length * (activeRules [policy]).count pr := by
    intro policy rules
    induction rules with
    | nil => simp [activeRules]
    | cons rule rules ih =>
      have hcons : activeRules (policy :: rules.map fun _ => policy) =
          activeRules [policy] ++ activeRules (rules.map fun _ => policy) := by
        rw [← singleton_append, activeRules, filter_append, flatMap_append]
        rfl
      rw [map_cons, hcons, count_append, ih, length_cons]
      ring
  have hgroup : ∀ g, (activeRules (c.getAllRoutePoliciesFromGroups [g])).count pr =
      pr.1.rules.countP (·.destinations.contains g) * (activeRules c.policies).count pr := by
    intro g
    have hall : activeRules c.policies = c.policies.flatMap fun policy => activeRules [policy] := by
      rw [← hflatMap]
      simp
    rw [getAllRoutePoliciesFromGroups, flatMap_singleton, hflatMap, hall, count_flatMap,
      count_flatMap, ← sum_map_mul_left]
    congr 1
    refine map_congr_left fun policy _ => ?_
    simp only [Function.comp_apply, hone]
    by_cases hsame : pr.1 = policy
    · rw [hsame, countP_eq_length_filter]
    · rw [hpolicy policy hsame, mul_zero, mul_zero]
  rw [expanded, count_flatMap, Route.selections, ← sum_map_mul_right]
  congr 1
  exact map_congr_left fun g _ => hgroup g

/-- A rule is expanded if it is enabled and its policy is for the route. -/
theorem mem_expanded {pr : Policy × PolicyRule} : pr ∈ c.expanded r ↔
    pr ∈ activeRules c.policies ∧ r.selections pr.1 ≠ 0 := by
  rw [← count_pos_iff, count_expanded, Nat.pos_iff_ne_zero, mul_ne_zero_iff, and_comm,
    ← Nat.pos_iff_ne_zero, count_pos_iff]

/-- A rule that is expanded speaks about the route. -/
theorem speaks_of_mem_zipIdx {pr : Policy × PolicyRule} {y : RouteFirewallRule × ℕ}
    (h : y ∈ (c.expand ord target includeIPv6 r pr).zipIdx) : r.Speaks pr.2 includeIPv6 := by
  have hne : c.expand ord target includeIPv6 r pr ≠ [] := by
    intro hnil
    rw [hnil] at h
    cases h
  exact generateRouteFirewallRules_ne_nil_iff.mp hne

/-- A rule that speaks about the route is expanded. -/
theorem exists_mem_zipIdx {pr : Policy × PolicyRule} (h : r.Speaks pr.2 includeIPv6) :
    ∃ y, y ∈ (c.expand ord target includeIPv6 r pr).zipIdx := by
  refine exists_mem_of_ne_nil _ ?_
  rw [ne_eq, zipIdx_eq_nil_iff]
  exact generateRouteFirewallRules_ne_nil_iff.mpr h

/-- What holds of the origin of every rule holds of every expanded rule that speaks. -/
theorem forall_generated_iff (P : Policy × PolicyRule → Prop) :
    (∀ x ∈ c.generated ord target includeIPv6 r, P x.1) ↔
      ∀ pr ∈ c.expanded r, r.Speaks pr.2 includeIPv6 → P pr := by
  constructor
  · intro h pr hpr hspeaks
    obtain ⟨y, hy⟩ := exists_mem_zipIdx hspeaks
    exact h (pr, y) (mem_flatMap.mpr ⟨pr, hpr, mem_map.mpr ⟨y, hy, rfl⟩⟩)
  · intro h x hx
    obtain ⟨pr, hpr, hx⟩ := mem_flatMap.mp hx
    obtain ⟨y, hy, rfl⟩ := mem_map.mp hx
    exact h pr hpr (speaks_of_mem_zipIdx hy)

/-- No rule is generated twice exactly if no rule that speaks is expanded twice. -/
theorem nodup_generated_iff : (c.generated ord target includeIPv6 r).Nodup ↔
    ∀ pr ∈ c.expanded r, r.Speaks pr.2 includeIPv6 → (c.expanded r).count pr = 1 := by
  have hplaces : ∀ pr ∈ c.expanded r,
      ((c.expand ord target includeIPv6 r pr).zipIdx.map (pr, ·)).Nodup := by
    intro pr _
    refine Nodup.of_map (fun x => x.2.2) ?_
    rw [map_map]
    show ((c.expand ord target includeIPv6 r pr).zipIdx.map Prod.snd).Nodup
    rw [zipIdx_map_snd]
    exact nodup_range'
  have hspeaking : ((c.expanded r).filter fun pr => r.Speaks pr.2 includeIPv6).Nodup ↔
      ∀ pr ∈ c.expanded r, r.Speaks pr.2 includeIPv6 → (c.expanded r).count pr = 1 := by
    rw [nodup_iff_count_eq_one]
    simp only [mem_filter, decide_eq_true_eq, and_imp]
    refine forall₃_congr fun pr _ hspeaks => ?_
    rw [count_filter (p := fun pr : Policy × PolicyRule => decide (r.Speaks pr.2 includeIPv6))
      (a := pr) (decide_eq_true hspeaks)]
  rw [generated, nodup_flatMap, and_iff_right hplaces, ← hspeaking]
  -- two expansions meet exactly if they are of one rule, which speaks
  refine (Pairwise.iff_of_mem fun {pr pr'} _ _ => ?_).trans pairwise_filter.symm
  simp only [decide_eq_true_eq]
  constructor
  · rintro h hspeaks - rfl
    obtain ⟨y, hy⟩ := exists_mem_zipIdx hspeaks
    exact h (mem_map.mpr ⟨y, hy, rfl⟩) (mem_map.mpr ⟨y, hy, rfl⟩)
  · intro h x hx hx'
    obtain ⟨y, hy, rfl⟩ := mem_map.mp hx
    obtain ⟨y', hy', hsame⟩ := mem_map.mp hx'
    cases hsame
    exact h (speaks_of_mem_zipIdx hy) (speaks_of_mem_zipIdx hy) rfl

end Components

/-- The routing peer of `routedAccount`, where the policy for the route has these rules, and the
route. -/
def guarded (rules : List PolicyRule) : Except Panic (List (Components × Route)) :=
  let a := { routedAccount [] {} with policies := [{ id := ascii "p", rules := rules }] }
  (a.getPeerNetworkMapComponents Env.plain .kept (ascii "t") (Request.plain [ascii "t", ascii "u"])
    a.getResourcePoliciesMap a.getResourceRoutersMap).map fun c =>
      c.toList.flatMap fun c => (c.getRoutingPeerRoutes (ascii "t")).1.map (c, ·)

/-- A rule with the group of the client as its source. -/
def guardRule (protocol : Protocol) (destination : String) : PolicyRule where
  id := ascii destination
  sources := [ascii "g"]
  destinations := [ascii destination]
  protocol := protocol

open Components

/-- An accept-all rule for a network. -/
abbrev RouteFirewallRule.PermitsAll (fw : RouteFirewallRule) (network : Option Prefix) : Prop :=
  fw.action = .accept ∧ fw.protocol = .all ∧ fw.port = 0 ∧ fw.portRange = {} ∧
    fw.destination = prefixString network ∧
    fw.sourceRanges = [if isV6 network then ascii "::/0" else ascii "0.0.0.0/0"]

/-- The routes without access control groups that the peer with this key serves are permitted. -/
abbrev NetworkMap.PermitsServed (nm : NetworkMap) (key : Bytes) : Prop :=
  ∀ r ∈ nm.routes, r.peer = key → r.accessControlGroups = [] →
    ∃ fw ∈ nm.routesFirewallRules, fw.PermitsAll r.network

/-- A route has this destination, and its family or domains. -/
abbrev Route.Covers (o : Route) (network : Option Prefix) : Prop :=
  prefixString o.network = prefixString network ∧
    (isV6 o.network = isV6 network ∨ isV6 network ∧ o.isDynamic)

/-- The networks that a route of the account stands for in a map: its own, unless the peer lacks the
family, and `::/0` besides `0.0.0.0/0`. -/
def Route.forwarded (r : Route) (includeIPv6 : Bool) : List (Option Prefix) :=
  if !includeIPv6 && isV6 r.network then []
  else if includeIPv6 && zeroBits r.network && isV4 r.network then
    [r.network, some ⟨.v6 0 [], 0⟩]
  else [r.network]

/-- The routes of the account that go into a map: those of the peer itself, and those of the peers
that it may connect to. -/
def Components.accountRoutes (c : Components) (env : Env) (ord : GoMap.RangeOrder Bytes) :
    List Route :=
  c.getRoutesToSync env c.peerID (c.filterPeersByLoginExpiration env
    (c.getPeerConnectionResources env ord c.peerID).acc.peers).1 (c.getPeerGroups c.peerID)

variable {o : Route} {network : Option Prefix} {includeIPv6 : Bool}

/-- The default rule permits everything to what the route covers. -/
theorem exists_permitsAll_iff (h : isV6 network → includeIPv6) :
    (∃ fw ∈ getDefaultPermit o includeIPv6, fw.PermitsAll network) ↔ o.Covers network := by
  unfold getDefaultPermit RouteFirewallRule.PermitsAll Route.Covers
  have hne : ascii "::/0" ≠ ascii "0.0.0.0/0" := by decide
  cases ho : isV6 o.network <;> cases hr : isV6 network <;> cases includeIPv6 <;>
    cases hd : o.isDynamic <;> simp_all [hne.symm]

/-- No source range of a peer is that of a default permit. -/
theorem RouteFirewallRule.Stems.not_permitsAll {fw : RouteFirewallRule}
    {rule : PolicyRule} {peers : List Peer} (h : fw.Stems o rule peers) :
    ¬ fw.PermitsAll network := by
  rintro ⟨-, -, -, -, -, hranges⟩
  obtain ⟨p, -, hrange⟩ := h.sources _ (by rw [hranges]; exact mem_singleton_self _)
  have hzero : (if isV6 network = true then ascii "::/0" else ascii "0.0.0.0/0").getLast? =
      some 48 := by
    split <;> decide
  rcases hrange with hrange | ⟨-, hrange⟩
  · rw [hrange, Peer.sourceV4, getLast?_append_of_ne_nil _ (by decide)] at hzero
    exact absurd hzero (by decide)
  · rw [hrange, Peer.sourceV6, getLast?_append_of_ne_nil _ (by decide)] at hzero
    exact absurd hzero (by decide)

/-- IPv6 is forwarded only to peers that use it. -/
theorem includeIPv6_of_mem_forwarded {r : Route} (h : network ∈ r.forwarded includeIPv6)
    (hv6 : isV6 network) : includeIPv6 := by
  cases includeIPv6 with
  | true => rfl
  | false => grind [Route.forwarded]

/-- What is asked of the networks of the served routes in a map is asked of what the routes stand
for. -/
theorem forall_filterAndExpandRoutes_iff (routes : List Route) (key : Bytes)
    (Q : Option Prefix → Prop) :
    (∀ r ∈ filterAndExpandRoutes routes includeIPv6, r.peer = key → r.accessControlGroups = [] →
      Q r.network) ↔
    ∀ r ∈ routes, r.peer = key → r.accessControlGroups = [] →
      ∀ network ∈ r.forwarded includeIPv6, Q network := by
  unfold filterAndExpandRoutes
  rw [forall_mem_flatMap]
  refine forall₂_congr fun r _ => ?_
  unfold Route.forwarded
  split
  · simp
  · split
    · simp only [forall_mem_cons, not_mem_nil, false_implies, implies_true, and_true]
      exact ⟨fun h hpeer hgroups => ⟨h.1 hpeer hgroups, h.2 hpeer hgroups⟩, fun h =>
        ⟨fun hpeer hgroups => (h hpeer hgroups).1, fun hpeer hgroups => (h hpeer hgroups).2⟩⟩
    · simp

/-- **The served routes without access control groups are permitted exactly if each network that
they stand for is the destination of an account route of the peer without groups.**  That is not so
for the IPv6 twin of a default route and for the routes of network resources. -/
theorem permitsServed_iff (c : Components) (env : Env) (ord : GoMap.RangeOrder Bytes)
    (res : ResourceRoutes) (key : Bytes) :
    (c.assemble env ord res).PermitsServed key ↔
      ∀ r ∈ res.routes ++ c.accountRoutes env ord, r.peer = key → r.accessControlGroups = [] →
        ∀ network ∈ r.forwarded c.includeIPv6, ∃ o ∈ (c.getRoutingPeerRoutes c.peerID).1,
          o.accessControlGroups = [] ∧ o.Covers network := by
  have hroutes : (c.assemble env ord res).routes =
      filterAndExpandRoutes (res.routes ++ c.accountRoutes env ord) c.includeIPv6 := by
    rw [filterAndExpandRoutes, flatMap_append]
    rfl
  rw [NetworkMap.PermitsServed, hroutes, forall_filterAndExpandRoutes_iff _ _ fun network =>
    ∃ fw ∈ (c.assemble env ord res).routesFirewallRules, fw.PermitsAll network]
  refine forall₄_congr fun r _ _ _ => forall₂_congr fun network hnetwork => ?_
  have hpermit : ∀ o : Route, (∃ fw ∈ getDefaultPermit o c.includeIPv6,
      fw.PermitsAll network) ↔ o.Covers network :=
    fun o => exists_permitsAll_iff (includeIPv6_of_mem_forwarded hnetwork)
  constructor
  · rintro ⟨fw, hfw, hall⟩
    rcases permit_or_expands_of_mem hfw with
      ⟨o, ho, hgroups, hfw⟩ | ⟨_, _, _, _, -, hstems⟩
    · exact ⟨o, ho, hgroups, (hpermit o).mp ⟨fw, hfw, hall⟩⟩
    · exact absurd hall hstems.not_permitsAll
  · rintro ⟨o, ho, hgroups, hcovers⟩
    obtain ⟨fw, hfw, hall⟩ := (hpermit o).mpr hcovers
    refine ⟨fw, mem_append_right _ ?_, hall⟩
    exact mem_flatMap.mpr ⟨o, ho, by rwa [if_pos hgroups]⟩

/-- A peer that speaks IPv6 routes all traffic. -/
def exitAccount : Account where
  peers := [(ascii "t", {
    id := ascii "t"
    key := ascii "kt"
    ip := some (.v4 0x64400001#32)
    ipv6 := some (.v6 1 [])
    capabilities := [Peer.peerCapabilityIPv6Overlay] })]
  groups := []
  routes := [(ascii "n", {
    id := ascii "n"
    network := some ⟨.v4 0, 0⟩
    networkType := .ipv4
    peer := ascii "t" })]

/-- An exit node forwards `::/0`, too, and no rule permits it. -/
theorem twin_not_permitted : ∃ nm, exitAccount.getPeerNetworkMapFromComponents
      Env.plain .kept (ascii "t") (Request.plain [ascii "t"]) = .ok nm ∧
    ∃ r ∈ nm.routes, r.peer = ascii "kt" ∧ r.accessControlGroups = [] ∧
      prefixString r.network = ascii "::/0" ∧
        ∀ fw ∈ nm.routesFirewallRules, ¬ fw.PermitsAll r.network :=
  Except.exists_of_decide (by decide +kernel)

end Management
