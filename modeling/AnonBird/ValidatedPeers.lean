/-
# Peers that a network map exposes

A network map is meant to show validated peers only.  The components take this from their
map of peers: groups, routers and the sources of network resources put in validated peers
only, but a peer resource of a rule puts in its peer as it is.  So a map exposes exactly the
unvalidated peers that stand as a peer resource opposite to the target.
-/
import AnonBird.MapSpec

open GoStrings NetIP

namespace Management

open Components

/-! ## What a map exposes -/

/-- Every peer in the map, by itself or by its address, is a validated one. The default permit of a
route shows none. -/
structure NetworkMap.OnlyValidated (a : Account) (validated : List Bytes) (nm : NetworkMap) :
    Prop where
  peers : ∀ p ∈ nm.peers, p.id ∈ validated
  offlinePeers : ∀ p ∈ nm.offlinePeers, p.id ∈ validated
  peerIPs : ∀ r ∈ nm.firewallRules, ∃ p, a.getPeer p.id = some p ∧ p.id ∈ validated ∧
    p.HasAddress r.peerIP
  sourceRanges : ∀ r ∈ nm.routesFirewallRules, ∀ range ∈ r.sourceRanges,
    range = ascii "0.0.0.0/0" ∨ range = ascii "::/0" ∨
      ∃ p, a.getPeer p.id = some p ∧ p.id ∈ validated ∧ p.HasRange range

namespace Account

variable (a : Account) (validated : List Bytes)

/-- A peer resource that refers to an existing peer refers to a validated one. -/
def ValidatedResource (resource : Resource) : Prop :=
  resource.isPeer = true → (a.getPeer resource.id).isSome = true → resource.id ∈ validated

instance (resource : Resource) : Decidable (a.ValidatedResource validated resource) :=
  inferInstanceAs (Decidable (_ → _ → _))

/-- Wherever the target is on a side of an enabled rule, a peer resource on the other side is
validated. -/
def FacesValidatedResources (target : Bytes) : Prop :=
  ∀ pr ∈ activeRules a.policies,
    (a.onSource validated pr.1 pr.2 target = true →
      a.ValidatedResource validated pr.2.destinationResource) ∧
    (a.onDestination validated pr.2 target = true →
      a.ValidatedResource validated pr.2.sourceResource)

instance (target : Bytes) : Decidable (a.FacesValidatedResources validated target) :=
  inferInstanceAs (Decidable (∀ pr ∈ activeRules a.policies, _))

end Account

section Exposure

variable {a : Account} {env : Env} {ord : GoMap.RangeOrder Bytes} {peer : Peer} {req : Request}
  {c : Components}

/-! ## The components hold validated peers -/

variable {resource : Resource} {pid : Bytes}

theorem validated_of_onSide {validated checkIDs groups : List Bytes}
    (hres : a.ValidatedResource validated resource) (hexists : (a.getPeer pid).isSome)
    (hside : a.onSide validated resource groups checkIDs pid) : pid ∈ validated := by
  rw [Account.onSide] at hside
  split at hside
  next hpeer =>
    obtain rfl := of_decide_eq_true hside
    exact hres hpeer hexists
  · rw [Bool.and_eq_true] at hside
    exact (admits_iff.mp hside.2).1

variable (h : c.Built a ord peer req a.getResourcePoliciesMap a.getResourceRoutersMap)

include h

variable {p : Peer}

theorem validated_of_getPeerInfo (hval : peer.id ∈ req.validated)
    (hfaces : a.FacesValidatedResources req.validated peer.id)
    (hp : c.getPeerInfo pid = some p) : a.getPeer p.id = some p ∧ p.id ∈ req.validated := by
  obtain rfl := h.keyedById pid p hp
  obtain ⟨hhas, hget⟩ := h.getPeerInfo_eq_some.mp hp
  refine ⟨hget, ?_⟩
  have hexists : (a.getPeer p.id).isSome := by rw [hget]; rfl
  rcases h.peers_new p.id hhas with (htarget | ⟨pr, hpr, hopp⟩) | ⟨hnew, -⟩
  · rw [htarget]
    exact hval
  · rcases hopp with ⟨hsrc, hdst⟩ | ⟨hdst, hsrc⟩
    · exact validated_of_onSide ((hfaces pr hpr).1 hsrc) hexists hdst
    · exact validated_of_onSide ((hfaces pr hpr).2 hdst) hexists hsrc
  · exact hnew

omit h

theorem exists_getPeerInfo_of_lookup {target : Bytes} {groups checkIDs : List Bytes}
    (hp : p ∈ (if resource.isPeer then (c.lookup ord target).peerFromResource resource
      else (c.lookup ord target).peersFromGroups groups checkIDs).1) :
    ∃ pid, c.getPeerInfo pid = some p := by
  split at hp
  · simp only [lookup, getPeerFromResource] at hp
    split at hp
    · simp at hp
    · exact ⟨resource.id, Option.mem_toList.mp hp⟩
  · obtain ⟨pid, -, hpid⟩ := List.mem_filterMap.mp hp
    exact ⟨pid, hpid⟩

theorem from_getPeerConnectionResources {P : Peer → Prop}
    (hP : ∀ pid p, c.getPeerInfo pid = some p → P p) (target : Bytes) :
    (c.getPeerConnectionResources env ord target).acc.From P := by
  rw [getPeerConnectionResources]
  split
  · exact ⟨by simp, by simp⟩
  · apply from_connectionResources
    intro pr _
    constructor
    all_goals
      intro p hp
      obtain ⟨pid, hpid⟩ := exists_getPeerInfo_of_lookup hp
      exact hP pid p hpid

/-! ## The map shows validated peers -/

include h

variable {res : Components.ResourceRoutes}

theorem getPeerInfo_of_missing {target q : Bytes}
    (hres : c.getNetworkResourcesRoutesToSync env ord target = .ok res)
    (hq : q ∈ res.sourcePeers ∨ ∃ r ∈ res.routes, r.peerID = q)
    (hp : (c.getPeerInfo q).or (c.getRouterPeerInfo q) = some p) : c.getPeerInfo q = some p := by
  obtain ⟨parts, hparts, rfl⟩ := parts_of_resourceRoutes h.keyedById hres
  have hhas : c.hasPeer q := by
    rcases hq with hq | ⟨r, hr, rfl⟩
    · obtain ⟨part, hpart, hq⟩ := List.mem_flatMap.mp hq
      obtain ⟨resource, -, -, hof⟩ := hparts part hpart
      exact hof.sourcePeers q hq
    · obtain ⟨part, hpart, hr⟩ := List.mem_flatMap.mp hr
      obtain ⟨resource, -, -, hof⟩ := hparts part hpart
      obtain ⟨p', hserved, -⟩ := hof.routes r hr
      obtain ⟨router, -, rfl⟩ := hserved.route
      rw [peerID_networkResourceToRoute]
      exact (h.getPeerInfo_eq_some.mp hserved.peer).1
  rcases Option.or_eq_some_iff.mp hp with hp | ⟨-, hp⟩
  · exact hp
  · exact h.getPeerInfo_eq_some.mpr ⟨hhas, h.routerPeers q p hp⟩

theorem onlyValidated_of_faces (hval : peer.id ∈ req.validated)
    (hfaces : a.FacesValidatedResources req.validated peer.id)
    (hres : c.getNetworkResourcesRoutesToSync env ord c.peerID = .ok res) :
    (c.assemble env ord res).OnlyValidated a req.validated := by
  have hinfo : ∀ pid p, c.getPeerInfo pid = some p →
      a.getPeer p.id = some p ∧ p.id ∈ req.validated := fun pid p hp =>
    validated_of_getPeerInfo h hval hfaces hp
  have hfrom : (c.getPeerConnectionResources env ord c.peerID).acc.From fun p =>
      a.getPeer p.id = some p ∧ p.id ∈ req.validated :=
    from_getPeerConnectionResources hinfo c.peerID
  have hrulePeers : ∀ {rule checkIDs distributionPeers} {p : Peer},
      p ∈ c.getRulePeers ord rule checkIDs c.peerID distributionPeers →
      a.getPeer p.id = some p ∧ p.id ∈ req.validated := by
    intro rule checkIDs distributionPeers p hp
    obtain ⟨pid, hpid, -⟩ := mem_getRulePeers.mp hp
    exact hinfo pid p hpid
  refine ⟨fun p hp => ?_, fun p hp => ?_, fun r hr => ?_, fun r hr range hrange => ?_⟩
  · rcases mem_addNetworksRoutingPeers hp with hp | ⟨q, hq, hp⟩
    · exact (hfrom.peers p (List.mem_filter.mp hp).1).2
    · exact (hinfo q p (getPeerInfo_of_missing h hres hq hp)).2
  · exact (hfrom.peers p (List.mem_filter.mp hp).1).2
  · obtain ⟨p, ⟨hget, hpval⟩, haddr⟩ := hfrom.rules r hr
    exact ⟨p, hget, hpval, haddr⟩
  · rcases permit_or_expands_of_mem hr with
      ⟨_, -, -, hpermit⟩ | ⟨policy, rule, route, peers, hexpands, hstems⟩
    · rcases ranges_getDefaultPermit hpermit with hranges | hranges
      · rw [hranges] at hrange
        exact .inl (List.mem_singleton.mp hrange)
      · rw [hranges] at hrange
        exact .inr (.inl (List.mem_singleton.mp hrange))
    · obtain ⟨p, hp, hrange⟩ := hstems.sources range hrange
      obtain ⟨hget, hpval⟩ : a.getPeer p.id = some p ∧ p.id ∈ req.validated := by
        cases hexpands with
        | route | resource => exact hrulePeers hp
      exact .inr (.inr ⟨p, hget, hpval, hrange⟩)

/-! ## The map shows the peer resources -/

/-- A peer resource opposite to the target is in the map, connected or expired. -/
theorem exists_mem_of_faces (env : Env) (hpeer : a.getPeer peer.id = some peer)
    (res : Components.ResourceRoutes) {pr : Policy × PolicyRule} (hpr : pr ∈ activeRules c.policies)
    (hfaces : (c.lookup ord peer.id).Faces pr.1 pr.2 p) :
    ∃ q, (q ∈ (c.assemble env ord res).peers ∨ q ∈ (c.assemble env ord res).offlinePeers) ∧
      q.id = p.id := by
  have hconn : c.getPeerConnectionResources env ord c.peerID =
      connectionResources env ord (c.lookup ord peer.id) peer c.policies := by
    rw [getPeerConnectionResources, h.peerID, h.getPeerInfo_target hpeer]
  obtain ⟨q, hq, hid⟩ : ∃ q ∈ (c.getPeerConnectionResources env ord c.peerID).acc.peers,
      q.id = p.id := by
    rw [hconn]
    exact exists_mem_peers_connectionResources.mpr ⟨pr, hpr, p, hfaces, rfl⟩
  refine ⟨q, ?_, hid⟩
  rcases hexpired : (c.settings.peerLoginExpirationEnabled &&
    q.loginExpired env.now c.settings.peerLoginExpiration) with _ | _
  · left
    exact List.mem_append_left _ (List.mem_filter.mpr ⟨hq, by simp [hexpired]⟩)
  · right
    exact List.mem_filter.mpr ⟨hq, hexpired⟩

theorem faces_of_onlyValidated (hpeer : a.getPeer peer.id = some peer)
    (hval : peer.id ∈ req.validated)
    (honly : (c.assemble env ord res).OnlyValidated a req.validated) :
    a.FacesValidatedResources req.validated peer.id := by
  have hshown : ∀ pr ∈ activeRules a.policies, ∀ resource : Resource, resource.isPeer →
      (a.onSource req.validated pr.1 pr.2 peer.id ∧ pr.2.destinationResource = resource) ∨
        (a.onDestination req.validated pr.2 peer.id ∧ pr.2.sourceResource = resource) →
      (a.getPeer resource.id).isSome → resource.id ∈ req.validated := by
    intro pr hpr resource hisPeer hside hexists
    obtain ⟨p, hp⟩ := Option.isSome_iff_exists.mp hexists
    by_cases htarget : resource.id = peer.id
    · rw [htarget]
      exact hval
    · have hopp : a.Opposite req.validated peer.id pr.1 pr.2 resource.id := by
        rcases hside with ⟨hsrc, rfl⟩ | ⟨hdst, rfl⟩
        · exact .inl ⟨hsrc, by simp [Account.onDestination, Account.onSide, hisPeer]⟩
        · exact .inr ⟨hdst, by simp [Account.onSource, Account.onSide, hisPeer]⟩
      have hinfo : c.getPeerInfo resource.id = some p :=
        h.getPeerInfo_eq_some.mpr ⟨h.peers_relevant resource.id (.inr ⟨pr, hpr, hopp⟩), hp⟩
      have hlookup : p ∈ (c.getPeerFromResource peer.id resource).1 := by
        rw [getPeerFromResource, if_neg htarget, hinfo]
        simp
      have hfaces : (c.lookup ord peer.id).Faces pr.1 pr.2 p := by
        rcases hside with ⟨hsrc, rfl⟩ | ⟨hdst, rfl⟩
        · refine .inl ⟨h.side_target hpeer hsrc, ?_⟩
          rw [Lookup.destinations, if_pos hisPeer]
          exact hlookup
        · refine .inr ⟨h.side_target hpeer hdst, ?_⟩
          rw [Lookup.sources, if_pos hisPeer]
          exact hlookup
      have hactive : pr ∈ activeRules c.policies :=
        h.mem_activeRules hpr (hside.imp And.left And.left)
      obtain ⟨q, hq, hid⟩ := exists_mem_of_faces h env hpeer res hactive hfaces
      rw [← Account.id_of_getPeer hp, ← hid]
      rcases hq with hq | hq
      · exact honly.peers q hq
      · exact honly.offlinePeers q hq
  intro pr hpr
  exact ⟨fun hsrc hisPeer => hshown pr hpr _ hisPeer (.inl ⟨hsrc, rfl⟩),
    fun hdst hisPeer => hshown pr hpr _ hisPeer (.inr ⟨hdst, rfl⟩)⟩

end Exposure

/-- **A map shows validated peers only, exactly if every peer resource that the target faces
is validated.** -/
theorem onlyValidated_iff {a : Account} {env : Env} {ord : GoMap.RangeOrder Bytes} {target : Bytes}
    {req : Request} {nm : NetworkMap}
    (h : a.getPeerNetworkMapFromComponents env ord target req = .ok nm) :
    nm.OnlyValidated a req.validated ↔ (target ∈ req.validated → (a.getPeer target).isSome = true →
        a.FacesValidatedResources req.validated target) := by
  rcases getPeerNetworkMapFromComponents_cases h with
    ⟨rfl, hnone⟩ | ⟨peer, c, res, hval, hpeer, hbuilt, hres, rfl⟩
  · constructor
    · intro _ hval hexists
      exact absurd ⟨hval, hexists⟩ hnone
    · intro _
      exact ⟨by simp, by simp, by simp, by simp⟩
  · obtain rfl := Account.id_of_getPeer hpeer
    constructor
    · intro honly _ _
      exact faces_of_onlyValidated hbuilt hpeer hval honly
    · intro hfaces
      exact onlyValidated_of_faces hbuilt hval (hfaces hval (by rw [hpeer]; rfl)) hres

/-- Two peers, where a rule connects the group of the first with the second as a peer
resource. -/
def resourcePeerAccount : Account where
  peers := twoPeers
  peers_id := twoPeers_id
  groups := [(ascii "g", { id := ascii "g", name := ascii "clients", peers := [ascii "t"] })]
  policies := [{
    id := ascii "p"
    rules := [{
      id := ascii "r"
      sources := [ascii "g"]
      destinationResource := { id := ascii "u", type := some .peer } }] }]

/-- With both peers validated the map of the first shows validated peers only. -/
theorem onlyValidated_resourcePeer : ∃ nm,
    resourcePeerAccount.getPeerNetworkMapFromComponents Env.plain .kept (ascii "t")
      (Request.plain [ascii "t", ascii "u"]) = .ok nm ∧
    nm.OnlyValidated resourcePeerAccount [ascii "t", ascii "u"] := by
  obtain ⟨nm, hnm, -⟩ := Except.exists_of_decide (P := fun _ => True)
    (x := resourcePeerAccount.getPeerNetworkMapFromComponents Env.plain .kept (ascii "t")
      (Request.plain [ascii "t", ascii "u"])) (by decide +kernel)
  exact ⟨nm, hnm, (onlyValidated_iff hnm).mpr fun _ _ => by decide +kernel⟩

/-- With only the first peer validated, its map still has the second among its peers. -/
theorem unvalidated_peer_in_map : ∃ nm,
    resourcePeerAccount.getPeerNetworkMapFromComponents Env.plain .kept (ascii "t")
      (Request.plain [ascii "t"]) = .ok nm ∧
    (∃ p ∈ nm.peers, p.id = ascii "u") ∧ ¬ nm.OnlyValidated resourcePeerAccount [ascii "t"] := by
  obtain ⟨nm, hnm, p, hp, hid⟩ := Except.exists_of_decide
    (x := resourcePeerAccount.getPeerNetworkMapFromComponents Env.plain .kept (ascii "t")
      (Request.plain [ascii "t"]))
    (P := fun nm => ∃ p ∈ nm.peers, p.id = ascii "u") (by decide +kernel)
  refine ⟨nm, hnm, ⟨p, hp, hid⟩, fun honly => ?_⟩
  have hval := honly.peers p hp
  rw [hid] at hval
  revert hval
  decide

end Management
