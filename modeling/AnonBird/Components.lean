/-
# The components of a network map

Model of `account_components.go`: from the account, `GetPeerNetworkMapComponents` takes what
the map of one peer needs, and prunes the groups and the failures to the collected peers.

A lookup of a missing group or peer gives a nil pointer, and the working maps keep it: their
values are `Option`s.  A nil group is dereferenced when the groups are pruned, which is a
panic, and so is the first rule of a policy without rules.
-/
import AnonBird.PeerConnection

open GoStrings NetIP
open GoMap hiding get set

namespace Management

/-- The runtime panics of the computation. -/
inductive Panic where
  | nilDereference
  | indexOutOfRange
  deriving DecidableEq, Repr

/-- `map[string]map[string]struct{}` from the id of posture checks to the peers that failed
them. -/
abbrev PostureFailed := List (Bytes × List Bytes)

/-- The recording of a failure, as it stands at four places of the source. -/
def PostureFailed.record (failed : PostureFailed) (checkID peerID : Bytes) : PostureFailed :=
  set failed checkID (((get failed checkID).getD []).insert peerID)

/-! ## The peers of groups that pass the checks -/

/-- What `getPeersFromGroups` accumulates: the ids it returns, whether the target is among
the peers, and the failures. -/
structure GroupPeers where
  ids : List Bytes := []
  peerInGroups : Bool := false
  failed : PostureFailed

variable (a : Account) (validated : List Bytes) (target : Bytes)

/-- The body of the two loops over the peers of a group in `getPeersFromGroups`. -/
def visitPeer (checkIDs : List Bytes) (s : GroupPeers) (pid : Bytes) : GroupPeers :=
  match a.getPeer pid with
  | none => s
  | some peer =>
    if peer.id ∉ validated then s
    else
      let (isValid, pname) := a.validatePostureChecksOnPeerGetFailed checkIDs peer.id
      if isValid = false ∧ pname ≠ [] then { s with failed := s.failed.record pname peer.id }
      else if peer.id = target then { s with peerInGroups := true }
      else { s with ids := s.ids ++ [peer.id] }

/-- One turn of the second loop, which visits no peer twice. -/
def visitUnseen (checkIDs : List Bytes) (s : GroupPeers × List Bytes) (pid : Bytes) :
    GroupPeers × List Bytes :=
  if pid ∈ s.2 then s
  else (visitPeer a validated target checkIDs s.1 pid, pid :: s.2)

/-- The loop of `getPeersFromGroups`. -/
def peersFromGroupsLoop (a : Account) (validated : List Bytes) (target : Bytes)
    (checkIDs : List Bytes) (single : Bool) :
    List Bytes → GroupPeers × List Bytes → GroupPeers
  | [], s => s.1
  | gid :: groups, s =>
    match a.getGroup gid with
    | none => peersFromGroupsLoop a validated target checkIDs single groups s
    | some group =>
      if group.isGroupAll || single then
        group.peers.foldl (visitPeer a validated target checkIDs)
          { s.1 with ids := [], peerInGroups := false }
      else
        peersFromGroupsLoop a validated target checkIDs single groups
          (group.peers.foldl (visitUnseen a validated target checkIDs) s)

/-- The valid peers of some groups other than the target, and whether it is one. -/
def Account.getPeersFromGroups (groups checkIDs : List Bytes) (failed : PostureFailed) :
    GroupPeers :=
  peersFromGroupsLoop a validated target checkIDs (groups.length = 1) groups
    ({ failed := failed }, [])

/-- A side of a rule: a peer resource stands for its peer, whether or not that peer is
validated or passes the checks. -/
def Account.ruleSide (resource : Resource) (groups checkIDs : List Bytes) (failed : PostureFailed) :
    GroupPeers :=
  if resource.isPeer then
    { ids := [resource.id], peerInGroups := resource.id = target, failed := failed }
  else a.getPeersFromGroups validated target groups checkIDs failed

/-! ## Relevant peers, groups, policies and routes -/

/-- What `getPeersGroupsPoliciesRoutes` collects. -/
structure Relevant where
  peers : List (Bytes × Option Peer)
  groups : List (Bytes × Option Group)
  policies : List Policy := []
  routes : List Route := []
  neededGroupIDs : List Bytes := []
  needAllowedUserIDs : Bool := false
  failed : PostureFailed := []

namespace Relevant

/-- `relevantPeerIDs[pid] = a.GetPeer(pid)` for a list of ids. -/
def addPeers (a : Account) (s : Relevant) (ids : List Bytes) : Relevant :=
  { s with peers := setAll a.getPeer s.peers ids }

/-- `relevantGroupIDs[gid] = a.GetGroup(gid)` for a list of ids. -/
def addGroups (a : Account) (s : Relevant) (ids : List Bytes) : Relevant :=
  { s with groups := setAll a.getGroup s.groups ids }

/-- What a rule with the target as a destination needs for SSH. -/
def needSSH (s : Relevant) (sshEnabled : Bool) (rule : PolicyRule) : Relevant :=
  if rule.protocol = .netbirdSSH then
    if rule.authorizedGroups ≠ [] then
      { s with neededGroupIDs := insertAll s.neededGroupIDs (keys rule.authorizedGroups) }
    else if rule.authorizedUser ≠ [] then s
    else { s with needAllowedUserIDs := true }
  else if policyRuleImpliesLegacySSH rule && sshEnabled then { s with needAllowedUserIDs := true }
  else s

end Relevant

/-- The loop over the routes: the groups that a route refers to, those of its access control
only if it is enabled. -/
def relevantRoute (s : Relevant) (r : Route) : Relevant :=
  let s := (s.addGroups a r.groups).addGroups a r.peerGroups
  let s := if r.enabled then s.addGroups a r.accessControlGroups else s
  { s with routes := s.routes ++ [r] }

/-- The access control groups of the enabled routes. -/
def routeAccessControlGroups (routes : List Route) : List Bytes :=
  (routes.filter Route.enabled).flatMap Route.accessControlGroups

/-- The body of the loop over the enabled rules of a policy; the Boolean is
`policyRelevant`. -/
def relevantRule (validated : List Bytes) (target : Bytes) (sshEnabled : Bool)
    (accessGroups : List Bytes) (policy : Policy) (s : Relevant × Bool) (rule : PolicyRule) :
    Relevant × Bool :=
  let (s, policyRelevant) := s
  let forRoute := rule.destinations.any fun gid => accessGroups.contains gid
  let s := if forRoute then (s.addGroups a rule.sources).addGroups a rule.destinations else s
  let src := a.ruleSide validated target rule.sourceResource rule.sources
    policy.sourcePostureChecks s.failed
  let dst := a.ruleSide validated target rule.destinationResource rule.destinations [] src.failed
  let s := { s with failed := dst.failed }
  let s := if src.peerInGroups then (s.addPeers a dst.ids).addGroups a rule.destinations else s
  let s :=
    if dst.peerInGroups then
      ((s.addPeers a src.ids).addGroups a rule.sources).needSSH sshEnabled rule
    else s
  (s, policyRelevant || forRoute || src.peerInGroups || dst.peerInGroups)

/-- The body of the loop over the policies. -/
def relevantPolicy (validated : List Bytes) (target : Bytes) (sshEnabled : Bool)
    (accessGroups : List Bytes) (s : Relevant) (policy : Policy) : Relevant :=
  if policy.enabled = false then s
  else
    let (s, policyRelevant) := policy.rules.foldl (fun s rule =>
      if rule.enabled = false then s
      else relevantRule a validated target sshEnabled accessGroups policy s rule) (s, false)
    if policyRelevant then { s with policies := s.policies ++ [policy] } else s

variable (ord : RangeOrder Bytes)

/-- What the routes and the policies of the account need. -/
def Account.getPeersGroupsPoliciesRoutes
    (target : Bytes) (sshEnabled : Bool) (validated : List Bytes) : Relevant :=
  let routes := (range ord a.routes).map Prod.snd
  let start : Relevant :=
    { peers := set [] target (a.getPeer target)
      groups := setAll a.getGroup [] (a.getPeerGroups target) }
  a.policies.foldl
    (relevantPolicy a validated target sshEnabled (routeAccessControlGroups routes))
    (routes.foldl (relevantRoute a) start)

/-! ## Network resources -/

/-- The groups that a resource is in. -/
def Account.getNetworkResourceGroups (resourceID : Bytes) : List Group :=
  ((entries a.groups).map Prod.snd).filter fun group =>
    group.resources.any fun resource => resource.id = resourceID

/-- The loop of `GetPoliciesForNetworkResource` over the rules. One that names the resource ends it;
each that reaches it through a group adds the policy once more. -/
def policyForResource (groups : List Group) (resourceID : Bytes) (policy : Policy) :
    List PolicyRule → List Policy
  | [] => []
  | rule :: rules =>
    if rule.enabled = false then policyForResource groups resourceID policy rules
    else if rule.destinationResource.id = resourceID then [policy]
    else if groups.any fun group => rule.destinations.contains group.id then
      policy :: policyForResource groups resourceID policy rules
    else policyForResource groups resourceID policy rules

/-- The enabled policies with a rule for a resource. -/
def Account.getPoliciesForNetworkResource (resourceID : Bytes) : List Policy :=
  (a.policies.filter Policy.enabled).flatMap fun policy =>
    policyForResource (a.getNetworkResourceGroups resourceID) resourceID policy policy.rules

/-- The policies of every enabled resource. -/
def Account.getResourcePoliciesMap : List (Bytes × List Policy) :=
  build NetworkResource.id (fun r => a.getPoliciesForNetworkResource r.id)
    (a.networkResources.filter NetworkResource.enabled)

/-- The peers of a router: the one it names, or those of its groups. -/
def NetworkRouter.peerIDs (router : NetworkRouter) : List Bytes :=
  if router.peer ≠ [] then [router.peer] else peersOf a.getGroup router.peerGroups

/-- `GetResourceRoutersMap`: of two routers for one peer the later one stays. -/
def Account.getResourceRoutersMap : List (Bytes × List (Bytes × NetworkRouter)) :=
  (a.networkRouters.filter NetworkRouter.enabled).foldl (fun routers router =>
    set routers router.networkID
      (setAll (fun _ => router) ((get routers router.networkID).getD [])
        (router.peerIDs a))) []

/-- `Rules[0]`. -/
def Policy.firstRule (p : Policy) : Except Panic PolicyRule :=
  match p.rules with
  | [] => .error .indexOutOfRange
  | rule :: _ => .ok rule

/-- The body of the loop in `getPostureValidPeersSaveFailed`.  The failure of a peer that does
not exist is recorded under the empty id. -/
def Account.saveFailed (checkIDs validated : List Bytes)
    (s : List Bytes × PostureFailed) (peerID : Bytes) : List Bytes × PostureFailed :=
  if peerID ∉ validated then s
  else
    let (valid, pname) := a.validatePostureChecksOnPeerGetFailed checkIDs peerID
    if valid then (s.1 ++ [peerID], s.2) else (s.1, s.2.record pname peerID)

/-- `getPostureValidPeersSaveFailed`: the peers that are validated and pass the checks, and
the failures of the others. -/
def Account.getPostureValidPeersSaveFailed
    (inputPeers checkIDs validated : List Bytes) (failed : PostureFailed) :
    List Bytes × PostureFailed :=
  inputPeers.foldl (a.saveFailed checkIDs validated) ([], failed)

/-- What the loop over the network resources works on. -/
structure Draft where
  peers : List (Bytes × Option Peer)
  groups : List (Bytes × Option Group)
  failed : PostureFailed
  resourcePoliciesMap : List (Bytes × List Policy) := []
  routersMap : List (Bytes × List (Bytes × NetworkRouter)) := []
  networkResources : List NetworkResource := []
  routerPeers : List (Bytes × Peer) := []

/-- `if _, exists := m[k]; !exists { m[k] = v }`. -/
def setNew {ν : Type*} (m : List (Bytes × ν)) (k : Bytes) (v : ν) : List (Bytes × ν) :=
  if (get m k).isSome then m else set m k v

/-- The groups of a policy's rules that exist are added. -/
def Draft.addRuleGroups (d : Draft) (policy : Policy) : Draft :=
  let ids := policy.rules.flatMap fun rule => rule.sources ++ rule.destinations
  { d with
    groups := ids.foldl (fun groups id =>
      match a.getGroup id with
      | none => groups
      | some group => setNew groups id (some group)) d.groups }

/-- The source peers of a policy, from its first rule's peer resource or from the source
groups of all its rules. -/
def policyPeers (lookup : Bytes → Option Group) (policy : Policy) : Except Panic (List Bytes) := do
  let first ← policy.firstRule
  if first.sourceResource.isPeer then return [first.sourceResource.id]
  else return uniquePeerIDs ord lookup (policy.sourceGroups ord)

/-- Whether the target is a source of a policy: membership in any source group counts. -/
def policyHasSource (policy : Policy) (target : Bytes) : Except Panic Bool := do
  let first ← policy.firstRule
  if first.sourceResource.isPeer then return first.sourceResource.id = target
  else return target ∈ peersOf a.getGroup (policy.sourceGroups ord)

/-- The part of the loop over the policies of a resource that adds the policy's groups and
keeps the policies of the resource. -/
def Draft.keepPolicies (d : Draft) (resourceID : Bytes) (policies : List Policy)
    (policy : Policy) : Draft :=
  let d := d.addRuleGroups a policy
  { d with resourcePoliciesMap := set d.resourcePoliciesMap resourceID policies }

/-- The body of the loop over the policies of a resource; the Boolean is `addSourcePeers`,
which the first policy with the target as a source sets. -/
def addPolicy (validated : List Bytes)
    (target : Bytes) (resourceID : Bytes) (policies : List Policy) (s : Draft × Bool)
    (policy : Policy) : Except Panic (Draft × Bool) := do
  let (d, addSourcePeers) := s
  if addSourcePeers then
    let peers ← policyPeers ord a.getGroup policy
    let (valid, failed) :=
      a.getPostureValidPeersSaveFailed peers policy.sourcePostureChecks validated d.failed
    let d :=
      { d with
        failed := failed
        peers := valid.foldl (fun peers pid => setNew peers pid (a.getPeer pid)) d.peers }
    return (d.keepPolicies a resourceID policies policy, true)
  else
    if !(← policyHasSource a ord policy target) then return (d, false)
    else
      let (isValid, pname) :=
        a.validatePostureChecksOnPeerGetFailed policy.sourcePostureChecks target
      if isValid = false ∧ pname ≠ [] then
        return ({ d with failed := d.failed.record pname target }, false)
      else return (d.keepPolicies a resourceID policies policy, true)

/-- The routing peers of a resource's network are added, to the peers only if validated. -/
def Draft.addRouters (validated : List Bytes)
    (d : Draft) (routers : List (Bytes × NetworkRouter)) : Draft :=
  (range ord routers).foldl (fun d entry =>
    match a.getPeer entry.1 with
    | none => d
    | some p =>
      { d with
        routerPeers := setNew d.routerPeers entry.1 p
        peers := if entry.1 ∈ validated then setNew d.peers entry.1 (some p) else d.peers }) d

/-- The body of the loop over the network resources. -/
def addResource (validated : List Bytes)
    (target : Bytes) (resourcePolicies : List (Bytes × List Policy))
    (routers : List (Bytes × List (Bytes × NetworkRouter))) (d : Draft)
    (resource : NetworkResource) : Except Panic Draft :=
  if resource.enabled = false then .ok d
  else
    match get resourcePolicies resource.id with
    | none => .ok d
    | some policies => do
      let networkRoutingPeers := (get routers resource.networkID).getD []
      let isRouter := (get networkRoutingPeers target).isSome
      let (d, addSourcePeers) ←
        policies.foldlM (addPolicy a ord validated target resource.id policies) (d, isRouter)
      let d := { d with
        routersMap := set d.routersMap resource.networkID networkRoutingPeers }
      let d := d.addRouters a ord validated networkRoutingPeers
      return if addSourcePeers then
        { d with networkResources := d.networkResources ++ [resource] } else d

/-! ## Pruning -/

/-- `filterGroupPeers`: the groups keep the collected peers only, and empty ones go.  The loop
dereferences every entry. -/
def filterGroupPeers (groups : List (Bytes × Option Group)) (peers : List (Bytes × Option Peer)) :
    Except Panic (List (Bytes × Group)) :=
  if (entries groups).any fun e => e.2.isNone then .error .nilDereference
  else
    .ok <| mapEntries (fun _ group => group.bind fun group =>
      let filtered := group.peers.filter fun pid => (get peers pid).isSome
      if filtered = [] then none else some { group with peers := filtered }) groups

/-- `filterPostureFailedPeers`: what stays are failures of collected peers in checks that a
policy refers to. -/
def filterPostureFailedPeers (failed : PostureFailed) (policies : List Policy)
    (resourcePoliciesMap : List (Bytes × List Policy)) (peers : List (Bytes × Option Peer)) :
    PostureFailed :=
  let referenced := policies.flatMap Policy.sourcePostureChecks ++
    (entries resourcePoliciesMap).flatMap fun e => e.2.flatMap Policy.sourcePostureChecks
  mapEntries (fun checkID failedPeers =>
    if checkID ∉ referenced then none
    else
      let filtered := failedPeers.filter fun pid => (get peers pid).isSome
      if filtered = [] then none else some filtered) failed

/-- The users of the groups that are needed. -/
def filterGroupIDToUserIDs (fullMap : List (Bytes × List Bytes)) (neededGroupIDs : List Bytes) :
    List (Bytes × List Bytes) :=
  neededGroupIDs.filterMap fun id => (get fullMap id).map fun users => (id, users)

/-! ## Names -/

/-- The address records of some peers. -/
def filterDNSRecordsByPeers (records : List SimpleRecord) (peers : List (Bytes × Option Peer))
    (includeIPv6 : Bool) : List SimpleRecord :=
  let peerIPs := (entries peers).flatMap fun e =>
    match e.2 with
    | none => []
    | some peer =>
      addrString peer.ip :: if includeIPv6 && peer.ipv6.isSome then [addrString peer.ipv6] else []
  records.filter fun record => peerIPs.contains record.rdata

/-- The type of IPv4 addresses. -/
def typeA : ℕ := 1
/-- The type of aliases. -/
def typeCNAME : ℕ := 5
/-- The type of IPv6 addresses. -/
def typeAAAA : ℕ := 28
/-- The class of every record. -/
def defaultClass : Bytes := ascii "IN"
/-- How long the address of a private service is kept. -/
def privateServiceDNSRecordTTL : ℤ := 5

/-- A record of a zone as it is sent to a peer; one of an unknown type is dropped. -/
def Record.simple (env : Env) (record : Record) : Option SimpleRecord :=
  let simple (type : ℕ) (rdata : Bytes) : SimpleRecord :=
    ⟨env.fqdn record.name, type, defaultClass, record.ttl, rdata⟩
  match record.type with
  | .a => some (simple typeA record.content)
  | .aaaa => some (simple typeAAAA record.content)
  | .cname => some (simple typeCNAME (env.fqdn record.content))
  | .other => none

/-- The zones with records that are handed to a group of the peer. -/
def filterPeerAppliedZones (env : Env) (accountZones : List Zone) (peerGroups : List Bytes) :
    List CustomZone :=
  let applied := accountZones.filter fun zone =>
    zone.enabled && zone.records ≠ [] && zone.distributionGroups.any peerGroups.contains
  applied.map fun zone =>
    { domain := env.fqdn zone.domain
      records := zone.records.filterMap (Record.simple env)
      searchDomainDisabled := !zone.enableSearchDomain
      nonAuthoritative := true }

/-- `GetProxyPeers`: the embedded peers by cluster. -/
def Account.getProxyPeers : List (Bytes × List Peer) :=
  (range ord a.peers).foldl (fun proxyPeers e =>
    if e.2.embedded then
      set proxyPeers e.2.cluster ((get proxyPeers e.2.cluster).getD [] ++ [e.2])
    else proxyPeers) []

/-- The records of a private service, one for each connected proxy peer. -/
def Service.records (env : Env) (svc : Service) (proxyPeers : List Peer) : List SimpleRecord :=
  (proxyPeers.filter fun p => p.ip.isSome && p.connected).map fun p =>
    ⟨env.fqdn svc.domain, typeA, defaultClass, privateServiceDNSRecordTTL, addrString p.ip⟩

/-- The loop of `SynthesizePrivateServiceZones` over the services. -/
def privateServiceZone (env : Env) (proxyPeersByCluster : List (Bytes × List Peer))
    (peerGroups : List Bytes) (zones : List (Bytes × CustomZone)) (svc : Service) :
    List (Bytes × CustomZone) :=
  let proxyPeers := (get proxyPeersByCluster svc.proxyCluster).getD []
  if svc.enabled && svc.isPrivate && svc.accessGroups.any peerGroups.contains &&
      proxyPeers ≠ [] then
    let zone := (get zones svc.proxyCluster).getD
      { domain := env.fqdn svc.proxyCluster, records := [], nonAuthoritative := true }
    set zones svc.proxyCluster
      { zone with records := zone.records ++ svc.records env proxyPeers }
  else zones

/-- The zones of the private services that the peer may use. -/
def Account.synthesizePrivateServiceZones (env : Env) (ord : RangeOrder Bytes)
    (peerID : Bytes) : List CustomZone :=
  let zones := a.services.foldl
    (privateServiceZone env (a.getProxyPeers ord) (a.getPeerGroups peerID)) []
  ((range ord zones).map Prod.snd).filter fun zone => zone.records ≠ []

/-! ## The components -/

/-- `NetworkMapComponents`. -/
structure Components where
  peerID : Bytes
  network : Network
  settings : Settings
  disabledManagementGroups : List Bytes
  customZoneDomain : Bytes
  peers : List (Bytes × Option Peer)
  groups : List (Bytes × Group)
  policies : List Policy
  routes : List Route
  nameServerGroups : List NameServerGroup
  allDNSRecords : List SimpleRecord
  accountZones : List CustomZone
  resourcePoliciesMap : List (Bytes × List Policy)
  routersMap : List (Bytes × List (Bytes × NetworkRouter))
  networkResources : List NetworkResource
  groupIDToUserIDs : List (Bytes × List Bytes)
  allowedUserIDs : Option (List Bytes)
  postureFailedPeers : PostureFailed
  routerPeers : List (Bytes × Peer)

/-- What a caller passes to map generation beside the account and the peer. -/
structure Request where
  peersCustomZone : CustomZone
  accountZones : List Zone
  validated : List Bytes
  groupIDToUserIDs : List (Bytes × List Bytes)

/-- The components of an existing, validated peer. -/
def Account.buildComponents (env : Env) (ord : RangeOrder Bytes) (peer : Peer)
    (req : Request) (resourcePolicies : List (Bytes × List Policy))
    (routers : List (Bytes × List (Bytes × NetworkRouter))) : Except Panic Components := do
  let rel := a.getPeersGroupsPoliciesRoutes ord peer.id peer.sshEnabled req.validated
  let draft ← a.networkResources.foldlM
    (addResource a ord req.validated peer.id resourcePolicies routers)
    { peers := rel.peers, groups := rel.groups, failed := rel.failed }
  let groups ← filterGroupPeers draft.groups draft.peers
  return {
    peerID := peer.id
    network := a.network
    settings := a.settings
    disabledManagementGroups := a.disabledManagementGroups
    customZoneDomain := req.peersCustomZone.domain
    peers := draft.peers
    groups := groups
    policies := rel.policies
    routes := rel.routes
    nameServerGroups := ((range ord a.nameServerGroups).map Prod.snd).filter fun nsGroup =>
      nsGroup.enabled && nsGroup.groups.any fun gid => (get rel.groups gid).isSome
    allDNSRecords := filterDNSRecordsByPeers req.peersCustomZone.records rel.peers
      (peer.supportsIPv6 && peer.ipv6.isSome)
    accountZones := filterPeerAppliedZones env req.accountZones (a.getPeerGroups peer.id) ++
      a.synthesizePrivateServiceZones env ord peer.id
    resourcePoliciesMap := draft.resourcePoliciesMap
    routersMap := draft.routersMap
    networkResources := draft.networkResources
    groupIDToUserIDs := filterGroupIDToUserIDs req.groupIDToUserIDs rel.neededGroupIDs
    allowedUserIDs := if rel.needAllowedUserIDs then some a.getAllowedUserIDs else none
    postureFailedPeers := filterPostureFailedPeers draft.failed rel.policies
      draft.resourcePoliciesMap draft.peers
    routerPeers := draft.routerPeers }

/-- `GetPeerNetworkMapComponents`; a peer that does not exist or is not validated has no
components. -/
def Account.getPeerNetworkMapComponents (env : Env) (ord : RangeOrder Bytes)
    (peerID : Bytes) (req : Request) (resourcePolicies : List (Bytes × List Policy))
    (routers : List (Bytes × List (Bytes × NetworkRouter))) : Except Panic (Option Components) :=
  match a.getPeer peerID with
  | none => .ok none
  | some peer =>
    if peerID ∉ req.validated then .ok none
    else some <$> a.buildComponents env ord peer req resourcePolicies routers

end Management
