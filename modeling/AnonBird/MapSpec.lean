/-
# What the parts of a network map come from

The generators of firewall rules and the walk over the policies, said through membership:
which peers the walk lists, from whose addresses its rules are made, and how a rule for a
routed network stems from a policy rule.  At the end stand the cases of map generation and
what the calculation reads off the components.
-/
import AnonBird.ComponentsSpec

open GoStrings NetIP List Except

namespace Management

open Account

/-! ## Rules between peers -/

/-- A text is an address of a peer. -/
def Peer.HasAddress (p : Peer) (text : Bytes) : Prop :=
  text = addrString p.ip ∨ (p.ipv6.isSome = true ∧ text = addrString p.ipv6)

/-- A firewall rule without its ports. -/
def FirewallRule.core (r : FirewallRule) : FirewallRule := { r with port := [], portRange := {} }

variable {base r : FirewallRule}

/-- The rule for SSH differs in its port only. -/
theorem core_addNativeSSHRule {expanded : List FirewallRule}
    (hexp : ∀ e ∈ expanded, e.core = base.core) :
    ∀ r ∈ addNativeSSHRule base expanded, r.core = base.core := by
  rw [addNativeSSHRule]
  split_ifs
  · exact hexp
  · exact forall_mem_append.mpr ⟨hexp, forall_mem_singleton.mpr rfl⟩
  · exact hexp

variable {rule : PolicyRule} {env : Env} {target : Peer}

/-- The rules for an address differ from their base in the ports only. -/
theorem core_rulesForAddress (h : r ∈ rulesForAddress env base rule target) : r.core = base.core :=
    by
  rw [rulesForAddress] at h
  split at h
  · rw [mem_singleton.mp h]
  · rw [expandPortsAndRanges] at h
    have hexp : ∀ e ∈ (rule.ports.map fun port => { base with port := port }) ++
        (if rule.ports ≠ [] then [] else rule.portRanges.filterMap
          (expandPortRange (peerSupportedFirewallFeatures env target.wtVersion) base)),
        e.core = base.core := by
      refine forall_mem_append.mpr ⟨forall_mem_map.mpr fun _ _ => rfl, fun e he => ?_⟩
      obtain ⟨range, -, hrange⟩ := mem_filterMap.mp (mem_ite_nil_left.mp he).2
      rw [expandPortRange] at hrange
      split_ifs at hrange
      all_goals
        rw [← Option.some.inj hrange]
        rfl
    split at h
    · exact core_addNativeSSHRule hexp r h
    · exact hexp r h

variable {P : Accumulated → Prop} {sources destinations : List Peer} {src dst : Bool}
  {acc : Accumulated}

/-- What the calls of the generator for a rule keep holds after all of them. -/
theorem generateRule_induction
    (h : P acc) (hdst : src → ∀ acc direction, direction = .OUT ∨ rule.bidirectional → P acc →
      P (acc.generateResources env target rule destinations direction))
    (hsrc : dst → ∀ acc direction, direction = .IN ∨ rule.bidirectional → P acc →
      P (acc.generateResources env target rule sources direction)) :
    P (generateRule env target rule sources destinations src dst acc) := by
  have hcond : ∀ {b : Bool} {acc : Accumulated} {peers : List Peer} {direction : Direction}, P acc →
      (b → P acc → P (acc.generateResources env target rule peers direction)) →
      P (if b then acc.generateResources env target rule peers direction else acc) := by
    intro b acc peers direction hacc hgenerate
    split
    next hb =>
      exact hgenerate hb hacc
    · exact hacc
  refine hcond (hcond (hcond (hcond h ?_) ?_) ?_) ?_
  · intro hb
    rw [Bool.and_eq_true] at hb
    exact hdst hb.2 _ _ (.inr hb.1)
  · intro hb
    rw [Bool.and_eq_true] at hb
    exact hsrc hb.2 _ _ (.inr hb.1)
  · exact fun hb => hdst hb _ _ (.inl rfl)
  · exact fun hb => hsrc hb _ _ (.inl rfl)

/-- What the peer and the rules for its addresses keep, the generator keeps. -/
theorem generate_induction {p : Peer} {direction : Direction} (h : P acc)
    (hpeer : P acc → P (acc.addPeer p)) (hrule : ∀ acc ip, p.HasAddress ip → P acc →
      P (acc.addRule env target rule direction ip)) :
    P (acc.generate env target rule direction p) := by
  rw [Accumulated.generate]
  split
  · exact hpeer h
  · have hv4 := hrule _ (addrString p.ip) (.inl rfl) (hpeer h)
    rw [Accumulated.appendIPv6FirewallRule]
    split
    · exact hv4
    next hv6 =>
      rw [not_or] at hv6
      exact hrule _ _ (.inr ⟨Option.isSome_iff_ne_none.mpr hv6.1, rfl⟩) hv4

/-- Everything accumulated comes from peers with a property. -/
structure Accumulated.From (P : Peer → Prop) (acc : Accumulated) : Prop where
  peers : ∀ p ∈ acc.peers, P p
  rules : ∀ r ∈ acc.rules, ∃ p, P p ∧ p.HasAddress r.peerIP

variable {p : Peer} {peers : List Peer}

namespace Accumulated

variable {P : Peer → Prop} {acc : Accumulated} {env : Env} {target : Peer} {rule : PolicyRule}
  {direction : Direction}

variable (h : acc.From P)

include h

/-- A peer is added. -/
theorem From.addPeer (hp : P p) : (acc.addPeer p).From P := by
  rw [Accumulated.addPeer]
  split
  · exact h
  · exact ⟨forall_mem_append.mpr ⟨h.peers, forall_mem_singleton.mpr hp⟩, h.rules⟩

/-- A rule for an address of a peer is added. -/
theorem From.addRule (hp : P p) {ip : Bytes} (hip : p.HasAddress ip) :
    (acc.addRule env target rule direction ip).From P := by
  rw [Accumulated.addRule]
  split
  · exact h
  · refine ⟨h.peers, forall_mem_append.mpr ⟨h.rules, fun r hr => ⟨p, hp, ?_⟩⟩⟩
    have hcore : r.peerIP = ip := congrArg FirewallRule.peerIP (core_rulesForAddress hr)
    rw [hcore]
    exact hip

/-- A peer and its rules are added. -/
theorem From.generate (hp : P p) :
    (acc.generate env target rule direction p).From P :=
  generate_induction h (fun h => h.addPeer hp) fun _ _ hip h => h.addRule hp hip

/-- Peers and their rules are added. -/
theorem From.generateResources (hps : ∀ p ∈ peers, P p) :
    (acc.generateResources env target rule peers direction).From P :=
  foldlRecOn peers _ h fun _ hacc p hp => hacc.generate (hps p hp)

/-- Both sides of a rule are added. -/
theorem From.generateRule (hsrc : ∀ p ∈ sources, P p) (hdst : ∀ p ∈ destinations, P p) :
    (generateRule env target rule sources destinations src dst acc).From P :=
  generateRule_induction h (fun _ _ _ _ hacc => hacc.generateResources hdst)
    fun _ _ _ _ hacc => hacc.generateResources hsrc

end Accumulated

/-! ## The peers of the walk -/

namespace Accumulated

/-- The list of peers and the set of their ids agree. -/
def Listed (acc : Accumulated) : Prop := ∀ id, id ∈ acc.peersExists ↔ ∃ p ∈ acc.peers, p.id = id

variable {acc : Accumulated} {env : Env} {target : Peer} {rule : PolicyRule}
  {direction : Direction}

/-- A rule adds no peer. -/
theorem peersExists_addRule (ip : Bytes) :
    (acc.addRule env target rule direction ip).peersExists = acc.peersExists ∧
      (acc.addRule env target rule direction ip).peers = acc.peers := by
  rw [addRule]
  split <;> exact ⟨rfl, rfl⟩

/-- The peers after one is generated. -/
theorem peers_generate (p : Peer) :
    (acc.generate env target rule direction p).peersExists = (acc.addPeer p).peersExists ∧
      (acc.generate env target rule direction p).peers = (acc.addPeer p).peers := by
  rw [generate]
  split
  · exact ⟨rfl, rfl⟩
  · rw [appendIPv6FirewallRule]
    split <;> simp only [peersExists_addRule, and_self]

/-- The ids stay those of the peers. -/
theorem Listed.generate (h : acc.Listed) (p : Peer) :
    (acc.generate env target rule direction p).Listed := by
  intro id
  rw [(peers_generate p).1, (peers_generate p).2, addPeer]
  split
  · exact h id
  · simp only [mem_cons, mem_append, not_mem_nil, or_false, or_and_right, exists_or,
      exists_eq_left, h id]
    rw [or_comm, eq_comm]

/-- The id of the peer is added. -/
theorem mem_peersExists_generate (p : Peer) (id : Bytes) :
    id ∈ (acc.generate env target rule direction p).peersExists ↔
      id ∈ acc.peersExists ∨ p.id = id := by
  rw [(peers_generate p).1, addPeer]
  split
  next hmem =>
    exact (or_iff_left_of_imp fun hid => hid ▸ hmem).symm
  · rw [mem_cons, or_comm, eq_comm]

theorem Listed.generateResources (h : acc.Listed) (peers : List Peer) :
    (acc.generateResources env target rule peers direction).Listed :=
  foldlRecOn peers _ h fun _ hacc p _ => hacc.generate p

/-- The ids of the peers are added. -/
theorem mem_peersExists_generateResources (peers : List Peer) (id : Bytes) :
    id ∈ (acc.generateResources env target rule peers direction).peersExists ↔
      id ∈ acc.peersExists ∨ ∃ p ∈ peers, p.id = id := by
  rw [generateResources]
  induction peers generalizing acc with
  | nil => simp
  | cons p peers ih =>
    rw [foldl_cons, ih, mem_peersExists_generate]
    simp [or_assoc]

end Accumulated

section Walk

variable {env : Env} {ord : GoMap.RangeOrder Bytes} {look : Lookup} {target : Peer}
  {policies : List Policy}

/-- A peer stands opposite to the target in a rule, as the walk sees it. -/
def Lookup.Faces (look : Lookup) (policy : Policy) (rule : PolicyRule) (p : Peer) : Prop :=
  ((look.sources policy rule).2 = true ∧ p ∈ (look.destinations rule).1) ∨
    ((look.destinations rule).2 = true ∧ p ∈ (look.sources policy rule).1)

/-- The ids that a rule adds, by the side that the target is on. -/
theorem mem_peersExists_generateRule {id : Bytes} :
    id ∈ (generateRule env target rule sources destinations src dst acc).peersExists ↔
      id ∈ acc.peersExists ∨ (src ∧ ∃ p ∈ destinations, p.id = id) ∨
        (dst ∧ ∃ p ∈ sources, p.id = id) := by
  have hcond : ∀ {b : Bool} {acc : Accumulated} {peers : List Peer} {direction : Direction},
      id ∈ (if b then acc.generateResources env target rule peers direction else acc).peersExists ↔
        id ∈ acc.peersExists ∨ (b ∧ ∃ p ∈ peers, p.id = id) := by
    intro b acc peers direction
    cases b
    · simp
    · simp [Accumulated.mem_peersExists_generateResources]
  rw [generateRule]
  rw [hcond, hcond, hcond, hcond, Bool.and_eq_true, Bool.and_eq_true]
  generalize (∃ p ∈ destinations, p.id = id) = inDestinations
  tauto

theorem Accumulated.Listed.generateRule (h : acc.Listed) :
    (generateRule env target rule sources destinations src dst acc).Listed :=
  generateRule_induction h (fun _ _ _ _ hacc => hacc.generateResources destinations)
    fun _ _ _ _ hacc => hacc.generateResources sources

/-- The users of SSH add no peers or rules. -/
theorem acc_authorizeSSH {res : ConnectionResources} {dst : Bool} :
    (authorizeSSH ord look target rule dst res).acc = res.acc := by
  rw [authorizeSSH]
  repeat' split
  all_goals rfl

/-- The walk as one loop over the enabled rules. -/
theorem connectionResources_eq : connectionResources env ord look target policies =
      (activeRules policies).foldl
        (fun res pr => ruleResources env ord look target pr.1 res pr.2) {} :=
  foldl_policies (ruleResources env ord look target) policies {}

/-- What every rule of the walk keeps holds at its end. -/
theorem acc_connectionResources_induction (hstart : P {})
    (hstep : ∀ pr ∈ activeRules policies, ∀ acc, P acc →
      P (generateRule env target pr.2 (look.sources pr.1 pr.2).1 (look.destinations pr.2).1
        (look.sources pr.1 pr.2).2 (look.destinations pr.2).2 acc)) :
    P (connectionResources env ord look target policies).acc := by
  rw [connectionResources_eq]
  refine foldlRecOn (motive := fun res : ConnectionResources => P res.acc)
    (activeRules policies) _ hstart ?_
  intro res hres pr hpr
  rw [ruleResources, acc_authorizeSSH]
  exact hstep pr hpr res.acc hres

/-- Everything that the walk makes comes from the peers that its lookups give. -/
theorem from_connectionResources {P : Peer → Prop}
    (h : ∀ pr ∈ activeRules policies, (∀ p ∈ (look.sources pr.1 pr.2).1, P p) ∧
      ∀ p ∈ (look.destinations pr.2).1, P p) :
    (connectionResources env ord look target policies).acc.From P := by
  apply acc_connectionResources_induction
  · exact ⟨by simp, by simp⟩
  · intro pr hpr acc hacc
    exact hacc.generateRule (h pr hpr).1 (h pr hpr).2

/-- The walk lists exactly the peers opposite to the target in an enabled rule. -/
theorem exists_mem_peers_connectionResources {id : Bytes} :
    (∃ p ∈ (connectionResources env ord look target policies).acc.peers, p.id = id) ↔
      ∃ pr ∈ activeRules policies, ∃ p, look.Faces pr.1 pr.2 p ∧ p.id = id := by
  have hlisted : (connectionResources env ord look target policies).acc.Listed := by
    apply acc_connectionResources_induction
    · intro id
      simp
    · intro pr _ acc hacc
      exact hacc.generateRule
  rw [← hlisted, connectionResources_eq]
  induction activeRules policies using reverseRecOn with
  | nil => simp
  | append_singleton rules pr ih =>
    rw [foldl_concat, ruleResources, acc_authorizeSSH]
    simp only [mem_peersExists_generateRule, ih, mem_append, mem_singleton,
      or_and_right, exists_or, exists_eq_left, Lookup.Faces, and_assoc, exists_and_left]

end Walk

/-! ## Rules for routed networks -/

/-- The port or the port range of a rule is one that the policy rule names, or neither is set
and the policy rule names none. -/
def RouteFirewallRule.PortsOf (r : RouteFirewallRule) (rule : PolicyRule) : Prop :=
  (rule.ports = [] ∧ rule.portRanges = [] ∧ r.port = 0 ∧ r.portRange = {}) ∨
  (rule.ports = [] ∧ r.port = 0 ∧ r.portRange ∈ rule.portRanges) ∨
  (r.portRange = {} ∧ ∃ port ∈ rule.ports, ∃ n, parseUint port 16 = some n ∧
    r.port = UInt16.ofNat n)

/-- A rule made from a base rule, which names no ports yet. -/
structure RouteFirewallRule.Refines (base r : RouteFirewallRule) (rule : PolicyRule) : Prop where
  ports : r.PortsOf rule
  rest : { r with port := base.port, portRange := base.portRange } = base

/-- A loop that skips the elements whose key it has seen, and makes at most one result of
each of the others. -/
theorem forall_mem_of_dedup {α β : Type} (key : α → Bytes) (make : α → Option β) {P : β → Prop}
    (xs : List α) (h : ∀ x ∈ xs, ∀ y, make x = some y → P y) (acc : List β × List Bytes)
    (hacc : ∀ y ∈ acc.1, P y) : ∀ y ∈ (xs.foldl (fun (s : List β × List Bytes) x =>
      if key x ∈ s.2 then s else (s.1 ++ (make x).toList, key x :: s.2)) acc).1, P y := by
  refine foldlRecOn (motive := fun s : List β × List Bytes => ∀ y ∈ s.1, P y) xs _ hacc ?_
  intro s hs x hx
  split
  · exact hs
  · exact forall_mem_append.mpr ⟨hs, fun y hy => h x hx y (Option.mem_toList.mp hy)⟩

/-- The loop makes something if and only if it does of one of the elements, where elements with one
key do alike. -/
theorem dedup_ne_nil_iff {α β : Type} (key : α → Bytes) (make : α → Option β)
    (hkey : ∀ x y, key x = key y → (make x).isSome = (make y).isSome) (xs : List α) :
    (xs.foldl (fun (s : List β × List Bytes) x =>
      if key x ∈ s.2 then s else (s.1 ++ (make x).toList, key x :: s.2)) ([], [])).1 ≠ [] ↔
      ∃ x ∈ xs, (make x).isSome := by
  -- besides, every key that was seen is one of an element
  suffices h : let s := xs.foldl (fun (s : List β × List Bytes) x =>
        if key x ∈ s.2 then s else (s.1 ++ (make x).toList, key x :: s.2)) ([], [])
      (s.1 ≠ [] ↔ ∃ x ∈ xs, (make x).isSome) ∧ ∀ k ∈ s.2, ∃ x ∈ xs, key x = k from h.1
  induction xs using reverseRecOn with
  | nil => simp
  | append_singleton xs x ih =>
    obtain ⟨hmade, hseen⟩ := ih
    simp only [foldl_concat]
    split
    next hx =>
      obtain ⟨y, hy, hyx⟩ := hseen _ hx
      have hsome := hkey y x hyx
      grind
    next hx =>
      have hlist : ∀ o : Option β, o.toList = [] ↔ o.isSome = false := by
        intro o
        cases o <;> simp
      refine ⟨?_, by grind⟩
      simp only [ne_eq, append_eq_nil_iff, hlist]
      grind

variable {base r : RouteFirewallRule} {seen : List Bytes}

/-- A rule for one of the port ranges. -/
theorem refines_generateRulesWithPortRanges (hport : base.port = 0) (hrange : base.portRange = {})
    (hports : rule.ports = []) (h : r ∈ (generateRulesWithPortRanges base rule seen).1) :
    base.Refines r rule := by
  rw [generateRulesWithPortRanges] at h
  split at h
  next hranges =>
    split at h
    · simp at h
    · obtain rfl := mem_singleton.mp h
      exact ⟨.inl ⟨hports, hranges, hport, hrange⟩, rfl⟩
  · refine forall_mem_of_dedup
      (fun range : PortRange => generateRuleIDBase rule base ++ formatUint range.start.toNat ++
        ascii "-" ++ formatUint range.stop.toNat)
      (fun range => some { base with portRange := range })
      (P := fun r => base.Refines r rule) rule.portRanges ?_ ([], seen) (by simp) r ?_
    · intro range hmem y hy
      cases hy
      exact ⟨.inr (.inl ⟨hports, hport, hmem⟩), rfl⟩
    · exact h

/-- The loop over the ports is such a loop. -/
theorem generateRulesWithPorts_eq (base : RouteFirewallRule) (rule : PolicyRule)
    (seen : List Bytes) : generateRulesWithPorts base rule seen =
      rule.ports.foldl (fun s port =>
        if generateRuleIDBase rule base ++ port ∈ s.2 then s
        else (s.1 ++ ((parseUint port 16).map fun n =>
          { base with port := UInt16.ofNat n }).toList,
            (generateRuleIDBase rule base ++ port) :: s.2)) ([], seen) := by
  unfold generateRulesWithPorts
  dsimp only
  congr 1
  funext s port
  split
  · rfl
  · cases parseUint port 16 <;> simp

/-- A rule for one of the ports. -/
theorem refines_generateRulesWithPorts (hrange : base.portRange = {})
    (h : r ∈ (generateRulesWithPorts base rule seen).1) : base.Refines r rule := by
  rw [generateRulesWithPorts_eq] at h
  refine forall_mem_of_dedup (fun port => generateRuleIDBase rule base ++ port)
    (fun port => (parseUint port 16).map fun n => { base with port := UInt16.ofNat n })
    (P := fun r => base.Refines r rule) rule.ports ?_ ([], seen) (by simp) r h
  intro port hmem y hy
  obtain ⟨n, hn, rfl⟩ := Option.map_eq_some_iff.mp hy
  exact ⟨.inr (.inr ⟨hrange, port, hmem, n, hn, rfl⟩), rfl⟩

/-- A text is a source range made from an address of a peer. -/
def Peer.HasRange (p : Peer) (range : Bytes) : Prop :=
  range = p.sourceV4 ∨ (p.ipv6.isSome = true ∧ range = p.sourceV6)

/-- What a rule for a routed network keeps of the route, the policy rule and the peers that it
is made from. -/
structure RouteFirewallRule.Stems (route : Route) (rule : PolicyRule) (peers : List Peer)
    (r : RouteFirewallRule) : Prop where
  policyID : r.policyID = rule.policyID
  routeID : r.routeID = route.id ∨ r.routeID = route.id ++ ascii "-v6-default"
  sources : ∀ src ∈ r.sourceRanges, ∃ p ∈ peers, p.HasRange src
  action : r.action = rule.action
  protocol : r.protocol = rule.protocol
  ports : r.PortsOf rule

variable {route : Route}

/-- A refined rule comes from the same policy rule. -/
theorem RouteFirewallRule.Stems.of_refines
    (h : base.Refines r rule) (hpolicy : base.policyID = rule.policyID)
    (hroute : base.routeID = route.id ∨ base.routeID = route.id ++ ascii "-v6-default")
    (hsources : ∀ src ∈ base.sourceRanges, ∃ p ∈ peers, p.HasRange src)
    (haction : base.action = rule.action) (hprotocol : base.protocol = rule.protocol) :
    r.Stems route rule peers := by
  have hrest := h.rest
  rw [← hrest] at hpolicy hroute hsources haction hprotocol
  exact ⟨hpolicy, hroute, hsources, haction, hprotocol, h.ports⟩

variable {includeIPv6 : Bool}

/-- **Every rule for a routed network stems from the policy rule it is generated for.** -/
theorem stems_of_mem
    {r : RouteFirewallRule} (h : r ∈ generateRouteFirewallRules route rule peers includeIPv6) :
    r.Stems route rule peers := by
  have hv4 : ∀ src ∈ peers.map Peer.sourceV4, ∃ p ∈ peers, p.HasRange src :=
    forall_mem_map.mpr fun p hp => ⟨p, hp, .inl rfl⟩
  have hv6 : ∀ src ∈ (peers.filter fun p => p.ipv6.isSome).map Peer.sourceV6,
      ∃ p ∈ peers, p.HasRange src := by
    refine forall_mem_map.mpr fun p hp => ?_
    rw [mem_filter] at hp
    exact ⟨p, hp.1, .inr ⟨hp.2, rfl⟩⟩
  have hfamily : ∀ {base r : RouteFirewallRule} {seen : List Bytes}, base.port = 0 →
      base.portRange = {} → r ∈ (generateRulesForFamily base rule seen).1 →
      base.Refines r rule := by
    intro base r seen hport hrange hr
    rw [generateRulesForFamily] at hr
    split at hr
    next hports =>
      exact refines_generateRulesWithPortRanges hport hrange hports hr
    · exact refines_generateRulesWithPorts hrange hr
  have hbase : ∀ src ∈ (if isV6 route.network then
      (peers.filter fun p => p.ipv6.isSome).map Peer.sourceV6 else peers.map Peer.sourceV4),
      ∃ p ∈ peers, p.HasRange src := by
    split
    · exact hv6
    · exact hv4
  rw [generateRouteFirewallRules, splitPeerSourcesByFamily] at h
  dsimp only at h
  split at h
  · simp at h
  · split at h
    · rcases mem_append.mp h with h | h
      · exact .of_refines (hfamily rfl rfl h) rfl (.inl rfl) hbase rfl rfl
      · split at h
        · exact .of_refines (hfamily rfl rfl h) rfl (.inr rfl) hv6 rfl rfl
        · exact .of_refines (hfamily rfl rfl h) rfl (.inl rfl) hv6 rfl rfl
    · exact .of_refines (hfamily rfl rfl h) rfl (.inl rfl) hbase rfl rfl

/-! ## The calculation -/

variable {nm : NetworkMap} {pid : Bytes} {groups : List Bytes}

namespace Components

variable {c : Components} {env : Env} {ord : GoMap.RangeOrder Bytes}

/-- The map that the calculation returns, once the routes of the network resources are
known. -/
def assemble (c : Components) (env : Env) (ord : GoMap.RangeOrder Bytes) (res : ResourceRoutes) :
    NetworkMap :=
  let conn := c.getPeerConnectionResources env ord c.peerID
  let (peersToConnect, expiredPeers) := c.filterPeersByLoginExpiration env conn.acc.peers
  let peerGroups := c.getPeerGroups c.peerID
  { peers := c.addNetworksRoutingPeers ord res.routes c.peerID peersToConnect expiredPeers
      res.isRoutingPeer res.sourcePeers
    network := c.network
    routes := filterAndExpandRoutes res.routes c.includeIPv6 ++
      filterAndExpandRoutes (c.getRoutesToSync env c.peerID peersToConnect peerGroups) c.includeIPv6
    dnsConfig := c.dnsConfig c.peerID peerGroups
    offlinePeers := expiredPeers
    firewallRules := conn.acc.rules
    routesFirewallRules := (if res.isRoutingPeer then
        c.getPeerNetworkResourceFirewallRules ord c.peerID res.routes c.includeIPv6 else []) ++
      c.getPeerRoutesFirewallRules ord c.peerID c.includeIPv6
    authorizedUsers := conn.authorizedUsers
    enableSSH := conn.sshEnabled }

/-- The map is assembled once the routes of the resources are known. -/
theorem calculate_eq_ok : c.calculate env ord = .ok nm ↔
    ∃ res, c.getNetworkResourcesRoutesToSync env ord c.peerID = .ok res ∧
      nm = c.assemble env ord res :=
  bind_eq_ok.trans (exists_congr fun _ =>
    and_congr_right' ((iff_of_eq (ok.injEq _ _)).trans eq_comm))

/-- A route of a network resource, through a routing peer that the components know. -/
structure ServedBy (c : Components) (env : Env) (resource : NetworkResource) (p : Peer)
    (r : Route) : Prop where
  peer : c.getPeerInfo p.id = some p
  route : ∃ router, get ((get c.routersMap resource.networkID).getD []) p.id =
    some router ∧ r = networkResourceToRoute env resource p router
  applied : (get c.resourcePoliciesMap resource.id).getD [] ≠ []

/-- What the loop over the network resources gives for one of them. -/
structure PartOf (c : Components) (env : Env) (ord : GoMap.RangeOrder Bytes) (target : Bytes)
    (resource : NetworkResource) (part : ResourceRoutes) : Prop where
  routes : ∀ r ∈ part.routes, ∃ p, c.ServedBy env resource p r ∧
    (p.id = target ∨
      get ((get c.routersMap resource.networkID).getD []) target = none)
  sourcePeers : ∀ q ∈ part.sourcePeers, c.hasPeer q = true
  routing : part.isRoutingPeer = true →
    (get ((get c.routersMap resource.networkID).getD []) target).isSome = true

/-- The peers of a component carry their own ids. -/
def KeyedById (c : Components) : Prop := ∀ pid p, c.getPeerInfo pid = some p → p.id = pid

variable {resource : NetworkResource}

/-- The route to a resource is served by the peer of its router. -/
theorem servedBy_of_mem {router : NetworkRouter} {r : Route} (hkeyed : c.KeyedById)
    (hrouter : get ((get c.routersMap resource.networkID).getD []) pid = some router)
    (h : r ∈ c.getNetworkResourcesRoutes env resource pid router) :
    ∃ p, p.id = pid ∧ c.ServedBy env resource p r := by
  rw [getNetworkResourcesRoutes] at h
  split at h
  · simp at h
  next happlied =>
    obtain ⟨p, hp, rfl⟩ := Option.map_eq_some_iff.mp (Option.mem_toList.mp h)
    obtain rfl := hkeyed pid p hp
    exact ⟨p, rfl, hp, ⟨router, hrouter, rfl⟩, happlied⟩

variable {policies : List Policy}

/-- The sources of a resource are peers of the components. -/
theorem hasPeer_of_mem_resourceSourcePeers {peers : List Bytes} {q : Bytes}
    (h : c.resourceSourcePeers ord policies = .ok peers) (hq : q ∈ peers) : c.hasPeer q := by
  induction policies generalizing peers with
  | nil =>
    cases h
    simp at hq
  | cons policy policies ih =>
    obtain ⟨input, -, hrest⟩ := bind_eq_ok.mp h
    obtain ⟨others, hothers, hrest'⟩ := bind_eq_ok.mp hrest
    cases hrest'
    rcases mem_append.mp hq with hq | hq
    · have hvalid := (mem_filter.mp hq).2
      rw [validatePostureChecksOnPeer, Bool.and_eq_true] at hvalid
      exact hvalid.1
    · exact ih hothers hq

variable {target : Bytes}

/-- What one resource adds to the map. -/
theorem partOf_resourceRoutes {part : ResourceRoutes}
    (hkeyed : c.KeyedById) (h : c.resourceRoutes env ord target resource = .ok part) :
    c.PartOf env ord target resource part := by
  rw [resourceRoutes] at h
  split at h
  next router hrouter =>
    obtain ⟨sourcePeers, hsource, hrest⟩ := bind_eq_ok.mp h
    cases hrest
    refine ⟨fun r hr => ?_, fun q hq => ?_, fun _ => ?_⟩
    · obtain ⟨p, hid, hp⟩ := servedBy_of_mem hkeyed hrouter hr
      exact ⟨p, hp, .inl hid⟩
    · exact hasPeer_of_mem_resourceSourcePeers hsource hq
    · rw [hrouter]
      rfl
  next hrouter =>
    obtain ⟨reaches, -, hrest⟩ := bind_eq_ok.mp h
    cases reaches with
    | false =>
      cases hrest
      exact ⟨by simp, by simp, by simp⟩
    | true =>
      cases hrest
      refine ⟨fun r hr => ?_, by simp, by simp⟩
      obtain ⟨⟨pid, router⟩, hmem, hroute⟩ := mem_flatMap.mp hr
      obtain ⟨p, -, hp⟩ := servedBy_of_mem hkeyed (GoMap.mem_range.mp hmem) hroute
      exact ⟨p, hp, .inr hrouter⟩

variable {res : ResourceRoutes}

/-- Each route, source peer and flag of the loop over the network resources comes from one of
them. -/
theorem parts_of_resourceRoutes (hkeyed : c.KeyedById)
    (h : c.getNetworkResourcesRoutesToSync env ord target = .ok res) :
    ∃ parts : List ResourceRoutes,
      (∀ part ∈ parts, ∃ resource ∈ c.networkResources, resource.enabled ∧
        c.PartOf env ord target resource part) ∧
      res = ⟨parts.any ResourceRoutes.isRoutingPeer, parts.flatMap ResourceRoutes.routes,
        parts.flatMap ResourceRoutes.sourcePeers⟩ := by
  obtain ⟨parts, hparts, hrest⟩ := bind_eq_ok.mp h
  refine ⟨parts, fun part hpart => ?_, (ok.inj hrest).symm⟩
  obtain ⟨resource, hmem, hres⟩ := (mem_of_mapM hparts).mp hpart
  obtain ⟨hmem, henabled⟩ := mem_filter.mp hmem
  exact ⟨resource, hmem, henabled, partOf_resourceRoutes hkeyed hres⟩

/-- A peer to connect to was there, or is a source or a router. -/
theorem mem_addNetworksRoutingPeers {routes : List Route}
    {peersToConnect expiredPeers : List Peer} {isRouter : Bool} {sourcePeers : List Bytes}
    (h : p ∈ c.addNetworksRoutingPeers ord routes target peersToConnect expiredPeers
      isRouter sourcePeers) :
    p ∈ peersToConnect ∨ ∃ q, (q ∈ sourcePeers ∨ ∃ r ∈ routes, r.peerID = q) ∧
      (c.getPeerInfo q).or (c.getRouterPeerInfo q) = some p := by
  rcases mem_append.mp h with h | h
  · exact .inl h
  · obtain ⟨q, hq, hp⟩ := mem_filterMap.mp h
    refine .inr ⟨q, ?_, hp⟩
    simp only [GoMap.RangeOrder.mem_order, mem_insertAll, not_mem_nil, false_or] at hq
    rcases mem_append.mp (mem_filter.mp hq).1 with hq | hq
    · exact .inl (mem_ite_nil_right.mp hq).2
    · exact .inr (mem_map.mp hq)

/-- The route to a resource goes through the peer. -/
theorem peerID_networkResourceToRoute (resource : NetworkResource) (p : Peer)
    (router : NetworkRouter) : (networkResourceToRoute env resource p router).peerID = p.id := by
  rw [networkResourceToRoute]
  repeat' split
  all_goals rfl

/-! ### Where the rules for routed networks come from -/

/-- The sources of a rule that pass its checks. -/
theorem mem_getRulePeers {checkIDs distributionPeers : List Bytes} :
    p ∈ c.getRulePeers ord rule checkIDs target distributionPeers ↔
      ∃ pid, c.getPeerInfo pid = some p ∧ c.isRulePeer checkIDs distributionPeers pid ∧
        ((pid ≠ target ∧ pid ∈ peersOf c.getGroupInfo rule.sources) ∨
          (rule.sourceResource.isPeer ∧ rule.sourceResource.id = pid)) := by
  have hresource : ∀ pid, pid ∈ (if rule.sourceResource.isPeer = true ∧
      c.isRulePeer checkIDs distributionPeers rule.sourceResource.id
      then [rule.sourceResource.id] else []) ↔
      c.isRulePeer checkIDs distributionPeers pid ∧ rule.sourceResource.isPeer ∧
        rule.sourceResource.id = pid := by
    intro pid
    rw [mem_ite_nil_right, mem_singleton]
    constructor
    · rintro ⟨⟨hres, hpeer⟩, rfl⟩
      exact ⟨hpeer, hres, rfl⟩
    · rintro ⟨hpeer, hres, rfl⟩
      exact ⟨⟨hres, hpeer⟩, rfl⟩
  rw [getRulePeers]
  simp only [mem_filterMap, GoMap.RangeOrder.mem_order, mem_insertAll, not_mem_nil,
    false_or, mem_append, mem_filter, Bool.and_eq_true, decide_eq_true_eq, hresource]
  refine exists_congr fun pid => ?_
  tauto

/-- The calculation expands a rule of a policy for a route, with these peers as its sources. -/
inductive Expands (c : Components) (ord : GoMap.RangeOrder Bytes) (target : Bytes)
    (resourceRoutes : List Route) : Policy → PolicyRule → Route → List Peer → Prop where
  | route {policy : Policy} {rule : PolicyRule} {route : Route}
      (hroute : route ∈ (c.getRoutingPeerRoutes target).1)
      {groupID : Bytes} (hgroup : groupID ∈ route.accessControlGroups)
      (hrule : (policy, rule) ∈ activeRules (c.getAllRoutePoliciesFromGroups [groupID])) :
      Expands c ord target resourceRoutes policy rule route
        (c.getRulePeers ord rule policy.sourcePostureChecks target
          (c.getDistributionGroupsPeers route))
  | resource {policy : Policy} {rule : PolicyRule} {route : Route}
      (hroute : route ∈ resourceRoutes)
      {p : Peer} (htarget : c.getPeerInfo target = some p) (hserved : route.peer = p.key)
      (hrule : (policy, rule) ∈
        activeRules ((get c.resourcePoliciesMap (getResourceID route)).getD [])) :
      Expands c ord target resourceRoutes policy rule route
        (c.getRulePeers ord rule policy.sourcePostureChecks target (c.getPoliciesSourcePeers
          ((get c.resourcePoliciesMap (getResourceID route)).getD [])))

variable {r : RouteFirewallRule}

/-- The default rule is for every source. -/
theorem ranges_getDefaultPermit (h : r ∈ getDefaultPermit route includeIPv6) :
    r.sourceRanges = [ascii "0.0.0.0/0"] ∨ r.sourceRanges = [ascii "::/0"] := by
  rw [getDefaultPermit] at h
  split at h
  · simp at h
  · split at h
    · dsimp only at h
      split at h
      · rcases mem_pair.mp h with rfl | rfl <;> exact .inr rfl
      · exact .inr (by rw [mem_singleton.mp h])
    · dsimp only at h
      split at h
      · rcases mem_pair.mp h with rfl | rfl
        · exact .inl rfl
        · exact .inr rfl
      · exact .inl (by rw [mem_singleton.mp h])

/-- A rule for a route comes from an active policy rule. -/
theorem exists_stems_of_mem {distributionPeers : List Bytes}
    (h : r ∈ c.getRouteFirewallRules ord target policies route distributionPeers includeIPv6) :
    ∃ policy rule, (policy, rule) ∈ activeRules policies ∧ r.Stems route rule
      (c.getRulePeers ord rule policy.sourcePostureChecks target distributionPeers) := by
  obtain ⟨⟨policy, rule⟩, hmem, hr⟩ := mem_flatMap.mp h
  exact ⟨policy, rule, hmem, stems_of_mem hr⟩

/-- A policy with the group among its destinations. -/
theorem mem_of_mem_getAllRoutePoliciesFromGroups {policy : Policy} {groupID : Bytes}
    (h : policy ∈ c.getAllRoutePoliciesFromGroups [groupID]) :
    policy ∈ c.policies ∧ ∃ rule ∈ policy.rules, groupID ∈ rule.destinations := by
  rw [getAllRoutePoliciesFromGroups, flatMap_singleton] at h
  obtain ⟨policy', hmem, h⟩ := mem_flatMap.mp h
  obtain ⟨rule, hrule, rfl⟩ := mem_map.mp h
  obtain ⟨hrule, hdst⟩ := mem_filter.mp hrule
  exact ⟨hmem, rule, hrule, contains_iff_mem.mp hdst⟩

/-- **Every rule for a routed network in a map** is a default permit, or stems from a policy
rule that the calculation expands. -/
theorem permit_or_expands_of_mem (h : r ∈ (c.assemble env ord res).routesFirewallRules) :
    (∃ o ∈ (c.getRoutingPeerRoutes c.peerID).1, o.accessControlGroups = [] ∧
        r ∈ getDefaultPermit o c.includeIPv6) ∨
      ∃ policy rule route peers, c.Expands ord c.peerID res.routes policy rule route peers ∧
        r.Stems route rule peers := by
  rcases mem_append.mp h with h | h
  · right
    split at h
    · rw [getPeerNetworkResourceFirewallRules] at h
      split at h
      · simp at h
      next htarget =>
        obtain ⟨route, hroute, hr⟩ := mem_flatMap.mp h
        obtain ⟨hroute, hserved⟩ := mem_filter.mp hroute
        obtain ⟨policy, rule, hrule, hstems⟩ := exists_stems_of_mem (mem_filter.mp hr).1
        exact ⟨policy, rule, route, _,
          .resource hroute htarget (of_decide_eq_true hserved) hrule, hstems⟩
    · simp at h
  · obtain ⟨route, hroute, hr⟩ := mem_flatMap.mp h
    split at hr
    next hgroups =>
      exact .inl ⟨route, hroute, hgroups, hr⟩
    · right
      obtain ⟨accessGroup, hgroup, hr⟩ := mem_flatMap.mp hr
      obtain ⟨policy, rule, hrule, hstems⟩ := exists_stems_of_mem hr
      exact ⟨policy, rule, route, _, .route hroute hgroup hrule, hstems⟩

end Components

/-! ## Components that were built -/

section Built

variable {a : Account} {env : Env} {ord : GoMap.RangeOrder Bytes} {peer : Peer} {req : Request}
  {resourcePolicies : List (Bytes × List Policy)}
  {routers : List (Bytes × List (Bytes × NetworkRouter))} {c : Components}

section

variable (h : c.Built a ord peer req resourcePolicies routers)

include h

/-- The peers of the components are peers of the account. -/
theorem Components.Built.getPeerInfo_eq_some :
    c.getPeerInfo pid = some p ↔ c.hasPeer pid ∧ a.getPeer pid = some p := by
  rw [getPeerInfo, hasPeer]
  cases hv : get c.peers pid with
  | none => simp
  | some v =>
    have hval := h.peers_val pid v hv
    simp [hval]

/-- Peers are kept under their ids. -/
theorem Components.Built.keyedById : c.KeyedById :=
  fun _ _ hp => id_of_getPeer (h.getPeerInfo_eq_some.mp hp).2

/-- The target is among the peers. -/
theorem Components.Built.getPeerInfo_target (hpeer : a.getPeer peer.id = some peer) :
    c.getPeerInfo peer.id = some peer :=
  h.getPeerInfo_eq_some.mpr ⟨h.peers_relevant peer.id (.inl rfl), hpeer⟩

/-! ### The target on a side of a rule -/

/-- A peer that passes the checks has no failure recorded. -/
theorem Components.Built.validatePostureChecksOnPeer {checkIDs : List Bytes}
    (hpid : c.hasPeer pid) (hadm : a.admits req.validated checkIDs pid) :
    c.validatePostureChecksOnPeer pid checkIDs := by
  obtain ⟨-, p, hp, hpasses⟩ := admits_iff.mp hadm
  rw [Components.validatePostureChecksOnPeer, hpid, Bool.true_and, all_eq_true]
  intro chk hchk
  by_contra hrecorded
  have hhas : c.postureFailedPeers.Has chk pid := by simpa [PostureFailed.Has] using hrecorded
  rcases h.failed_sound chk pid hhas with ⟨p', hp', hfails⟩ | ⟨hnone, -⟩
  · rw [hp] at hp'
    cases hp'
    rw [hpasses chk hchk] at hfails
    exact Bool.noConfusion hfails
  · rw [hp] at hnone
    exact Option.some_ne_none p hnone

/-- The groups of the target are kept, with it as a member. -/
theorem Components.Built.mem_membersOf_target
    (hmem : peer.id ∈ membersOf a.getGroup groups) : peer.id ∈ membersOf c.getGroupInfo groups := by
  refine mem_membersOf_of_kept (fun id _ g hg hp => ?_) (fun id g' hg' => ?_) hmem
  · have hkept : peer.id ∈ (g.restrict c.hasPeer).peers :=
      mem_filter.mpr ⟨hp, h.peers_relevant peer.id (.inl rfl)⟩
    have hgroup : id ∈ a.getPeerGroups peer.id := mem_getPeerGroups.mpr ⟨g, hg, hp⟩
    exact ⟨g.restrict c.hasPeer, h.groups_relevant id g (.inl (.inl hgroup)) hg
      (ne_nil_of_mem hkept), hkept⟩
  · obtain ⟨g, hg, rfl, -⟩ := h.groups_val id g' hg'
    exact ⟨g, hg, rfl⟩

variable {groups checkIDs : List Bytes}

/-- The target is found in its groups. -/
theorem Components.Built.inGroups_target (hpeer : a.getPeer peer.id = some peer)
    (hmem : peer.id ∈ membersOf a.getGroup groups)
    (hadm : a.admits req.validated checkIDs peer.id) :
    (c.getAllPeersFromGroups ord peer.id groups checkIDs).2 := by
  have hvalid := h.validatePostureChecksOnPeer (h.peers_relevant peer.id (.inl rfl)) hadm
  have hids : peer.id ∈ c.getUniquePeerIDsFromGroupsIDs ord groups :=
    mem_uniquePeerIDs.mpr (h.mem_membersOf_target hmem)
  rw [Components.getAllPeersFromGroups, contains_iff_mem, mem_filter]
  exact ⟨hids, by rw [hvalid, h.getPeerInfo_target hpeer]; rfl⟩

/-- The walk sees the target on the sides where it is. -/
theorem Components.Built.side_target (hpeer : a.getPeer peer.id = some peer) {resource : Resource}
    (hside : a.onSide req.validated resource groups checkIDs peer.id) :
    (if resource.isPeer then (c.lookup ord peer.id).peerFromResource resource
      else (c.lookup ord peer.id).peersFromGroups groups checkIDs).2 := by
  rw [onSide] at hside
  split_ifs at hside ⊢
  · simp [Components.lookup, Components.getPeerFromResource, of_decide_eq_true hside]
  · rw [Bool.and_eq_true, contains_iff_mem] at hside
    exact h.inGroups_target hpeer hside.1 hside.2

/-- The enabled rules with the target on a side are among the components' rules. -/
theorem Components.Built.mem_activeRules
    {pr : Policy × PolicyRule} (hpr : pr ∈ activeRules a.policies)
    (hside : a.onSource req.validated pr.1 pr.2 peer.id ∨
      a.onDestination req.validated pr.2 peer.id) : pr ∈ activeRules c.policies := by
  obtain ⟨policy, rule⟩ := pr
  obtain ⟨hpolicy, hen, hrule, hren⟩ := Management.mem_activeRules.mp hpr
  refine Management.mem_activeRules.mpr ⟨?_, hen, hrule, hren⟩
  rw [h.policies, mem_filter]
  refine ⟨hpolicy, ?_⟩
  rw [policyRelevant, hen, Bool.true_and, any_eq_true]
  refine ⟨rule, mem_filter.mpr ⟨hrule, hren⟩, ?_⟩
  rw [ruleRelevant]
  rcases hside with hsrc | hdst
  · rw [hsrc, Bool.or_true, Bool.true_or]
  · rw [hdst, Bool.or_true]

end

/-- There are components if and only if the target is a validated peer. -/
theorem getPeerNetworkMapComponents_cases {target : Bytes} {components : Option Components}
    (h : a.getPeerNetworkMapComponents env ord target req resourcePolicies routers =
      .ok components) :
    (components = none ∧ ¬ (target ∈ req.validated ∧ (a.getPeer target).isSome)) ∨
    ∃ (peer : Peer) (c : Components), components = some c ∧ target ∈ req.validated ∧
      a.getPeer target = some peer ∧ c.Built a ord peer req resourcePolicies routers := by
  rw [getPeerNetworkMapComponents] at h
  cases hpeer : a.getPeer target with
  | none =>
    rw [hpeer] at h
    cases h
    exact .inl ⟨rfl, by simp⟩
  | some peer =>
    rw [hpeer] at h
    dsimp only at h
    split at h
    next hval =>
      cases h
      exact .inl ⟨rfl, by simp [hval]⟩
    next hval =>
      obtain ⟨c, hbuild, rfl⟩ := map_eq_ok.mp h
      exact .inr ⟨peer, c, rfl, not_not.mp hval, rfl, Components.built hbuild⟩

/-- **The cases of map generation**: a peer without components gets an empty map. -/
theorem getPeerNetworkMapFromComponents_cases {target : Bytes}
    (h : a.getPeerNetworkMapFromComponents env ord target req = .ok nm) :
    (nm = { network := a.network } ∧ ¬ (target ∈ req.validated ∧ (a.getPeer target).isSome)) ∨
    ∃ (peer : Peer) (c : Components) (res : Components.ResourceRoutes),
      target ∈ req.validated ∧ a.getPeer target = some peer ∧
      c.Built a ord peer req a.getResourcePoliciesMap a.getResourceRoutersMap ∧
      c.getNetworkResourcesRoutesToSync env ord c.peerID = .ok res ∧
      nm = c.assemble env ord res := by
  obtain ⟨components, hcomponents, hrest⟩ := bind_eq_ok.mp h
  rcases getPeerNetworkMapComponents_cases hcomponents with
    ⟨rfl, hnone⟩ | ⟨peer, c, rfl, hval, hpeer, hbuilt⟩
  · exact .inl ⟨(ok.inj hrest).symm, hnone⟩
  · obtain ⟨res, hres, hnm⟩ := Components.calculate_eq_ok.mp hrest
    exact .inr ⟨peer, c, res, hval, hpeer, hbuilt, hres, hnm⟩

end Built

/-! ## Plain inputs -/

/-- An environment in which every version is recent enough and names stay as they are. -/
def Env.plain : Env where
  now := 0
  meetsMinVersion _ _ := true
  fqdn := id
  toPunycode := some
  toUnicode := some

/-- The peers of small accounts. -/
def twoPeers : List (Bytes × Peer) :=
  [(ascii "t", { id := ascii "t", key := ascii "kt", ip := some (.v4 0x64400001#32) }),
    (ascii "u", { id := ascii "u", key := ascii "ku", ip := some (.v4 0x64400002#32) })]

theorem twoPeers_id : ∀ e ∈ twoPeers, e.2.id = e.1 := by decide

/-- A request without zones and groups of users. -/
def Request.plain (validated : List Bytes) : Request where
  peersCustomZone := { domain := [], records := [] }
  accountZones := []
  validated := validated
  groupIDToUserIDs := []

end Management
