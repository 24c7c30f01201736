/-
# The network map of a peer

Model of `networkmap_components.go`: `Calculate` turns the components of a peer into its
network map.
-/
import AnonBird.Components

open GoStrings NetIP

namespace Management

/-- `nbdns.Config`. -/
structure DNSConfig where
  serviceEnable : Bool := false
  nameServerGroups : List NameServerGroup := []
  customZones : List CustomZone := []
  deriving DecidableEq, Repr

/-- What a peer is sent. -/
structure NetworkMap where
  peers : List Peer := []
  network : Network
  routes : List Route := []
  dnsConfig : DNSConfig := {}
  offlinePeers : List Peer := []
  firewallRules : List FirewallRule := []
  routesFirewallRules : List RouteFirewallRule := []
  authorizedUsers : List (Bytes × List Bytes) := []
  enableSSH : Bool := false
  deriving DecidableEq, Repr

namespace Components

variable (c : Components) (env : Env) (ord : GoMap.RangeOrder Bytes)

/-! ## Lookups -/

variable (peerID : Bytes)

/-- `GetPeerInfo`: a missing peer and a nil entry look the same. -/
def getPeerInfo : Option Peer := (get c.peers peerID).join

/-- The key is in `Peers`, whatever its value. -/
def hasPeer : Bool := (get c.peers peerID).isSome

/-- A routing peer, also if it is not among the peers. -/
def getRouterPeerInfo : Option Peer := get c.routerPeers peerID

/-- The group with an id, with the collected peers only. -/
def getGroupInfo (groupID : Bytes) : Option Group := get c.groups groupID

/-- The groups that a peer is in. -/
def getPeerGroups : List Bytes :=
  ((GoMap.entries c.groups).filter fun e => peerID ∈ e.2.peers).map Prod.fst

/-- `ValidatePostureChecksOnPeer`: a peer fails the checks if a failure is recorded. -/
def validatePostureChecksOnPeer (checkIDs : List Bytes) : Bool :=
  c.hasPeer peerID && checkIDs.all fun id =>
    !((get c.postureFailedPeers id).getD []).contains peerID

/-- The peers of some groups, each once. -/
def getUniquePeerIDsFromGroupsIDs (groups : List Bytes) : List Bytes :=
  uniquePeerIDs ord c.getGroupInfo groups

/-! ## Connection resources -/

/-- The peers of some groups other than the target, and whether it is in them. -/
def getAllPeersFromGroups (groups checkIDs : List Bytes) : List Peer × Bool :=
  let valid := (c.getUniquePeerIDsFromGroupsIDs ord groups).filter fun p =>
    (c.getPeerInfo p).isSome && c.validatePostureChecksOnPeer p checkIDs
  ((valid.filter fun p => p ≠ peerID).filterMap c.getPeerInfo, valid.contains peerID)

/-- The peer that a resource names, and whether it is the target. -/
def getPeerFromResource (resource : Resource) : List Peer × Bool :=
  if resource.id = peerID then ([], true)
  else ((c.getPeerInfo resource.id).toList, false)

/-- The lookups of the components. -/
def lookup : Lookup where
  peersFromGroups := c.getAllPeersFromGroups ord peerID
  peerFromResource := c.getPeerFromResource peerID
  groupUsers := get c.groupIDToUserIDs
  allowedUserIDs := c.allowedUserIDs.getD []

/-- The peers and rules that the policies give the target. -/
def getPeerConnectionResources (targetPeerID : Bytes) : ConnectionResources :=
  match c.getPeerInfo targetPeerID with
  | none => {}
  | some target => connectionResources env ord (c.lookup ord targetPeerID) target c.policies

/-- `filterPeersByLoginExpiration`: the peers to connect to, and the expired ones. -/
def filterPeersByLoginExpiration (aclPeers : List Peer) : List Peer × List Peer :=
  let expired (p : Peer) : Bool :=
    c.settings.peerLoginExpirationEnabled && p.loginExpired env.now c.settings.peerLoginExpiration
  (aclPeers.filter fun p => !expired p, aclPeers.filter expired)

/-! ## Routes -/

/-- `filterAndExpandRoutes`: peers without IPv6 get no IPv6 routes, others an IPv6 twin of the
default route. -/
def filterAndExpandRoutes (routes : List Route) (includeIPv6 : Bool) : List Route :=
  routes.flatMap fun r =>
    if !includeIPv6 && isV6 r.network then []
    else if includeIPv6 && zeroBits r.network && isV4 r.network then
      [r, { r with
        id := r.id ++ ascii "-v6-default"
        netID := r.netID ++ ascii "-v6"
        network := some ⟨.v6 0 [], 0⟩
        networkType := .ipv6 }]
    else [r]

/-- The routes for which a peer is a routing peer: a copy for its first occurrence in each peer
group, and the route that names it. -/
def routesThrough (r : Route) : List Route :=
  let viaGroups := r.peerGroups.filter fun gid =>
    match c.getGroupInfo gid with
    | none => false
    | some group => group.peers.contains peerID
  (viaGroups.map fun _ =>
    { r with peer := peerID, peerGroups := [], id := r.id ++ ascii ":" ++ peerID }) ++
      if r.peer = peerID then [r] else []

/-- The part of `takeRoute` that drops a second route of the same id. -/
def takeRoutes (routes : List Route) : List Route :=
  (routes.foldl (fun (taken, seen) r =>
    if r.id ∈ seen then (taken, seen) else (taken ++ [r], r.id :: seen))
    (([], []) : List Route × List Bytes)).1

/-- `getRoutingPeerRoutes`: the enabled and the disabled routes of a routing peer. -/
def getRoutingPeerRoutes : List Route × List Route :=
  match (c.getPeerInfo peerID).or (c.getRouterPeerInfo peerID) with
  | none => ([], [])
  | some peerInfo =>
    let taken := (takeRoutes (c.routes.flatMap (c.routesThrough peerID))).map fun r =>
      { r with peer := peerInfo.key }
    (taken.filter Route.enabled, taken.filter fun r => !r.enabled)

/-- Domains in their Unicode form, separated by commas. -/
def safeString (domains : List Bytes) : Bytes :=
  [44, 32].intercalate ((domains.mapM env.toUnicode).getD domains)

/-- The destination of a route as text. -/
def netString (r : Route) : Bytes :=
  match r.isDynamic, r.domains with
  | true, some domains => safeString env domains
  | _, _ => prefixString r.network

/-- Routes with the same id of this kind stand in for each other. -/
def getHAUniqueID (r : Route) : Bytes := r.netID ++ ascii "|" ++ netString env r

/-- The routes that are handed to one of the groups. -/
def filterRoutesByGroups (routes : List Route) (groupListMap : List Bytes) : List Route :=
  routes.filter fun r => r.groups.any groupListMap.contains

/-- The routes that the target does not serve itself. -/
def filterRoutesFromPeersOfSameHAGroup (routes : List Route) (memberships : List Bytes) :
    List Route :=
  routes.filter fun r => !memberships.contains (getHAUniqueID env r)

/-- The routes of the target, and those of its peers that it gets. -/
def getRoutesToSync (aclPeers : List Peer) (peerGroups : List Bytes) : List Route :=
  let (routes, disabled) := c.getRoutingPeerRoutes peerID
  let memberships := (routes ++ disabled).map (getHAUniqueID env)
  routes ++ aclPeers.flatMap fun peer =>
    filterRoutesFromPeersOfSameHAGroup env
      (filterRoutesByGroups (c.getRoutingPeerRoutes peer.id).1 peerGroups) memberships

/-! ## Firewall rules for routes -/

/-- The rule for a route without access control groups. -/
def getDefaultPermit (r : Route) (includeIPv6 : Bool) : List RouteFirewallRule :=
  if isV6 r.network && !includeIPv6 then []
  else
    let rule : RouteFirewallRule :=
      { routeID := r.id
        sourceRanges := [if isV6 r.network then ascii "::/0" else ascii "0.0.0.0/0"]
        action := .accept
        destination := prefixString r.network
        protocol := .all
        domains := r.domains
        isDynamic := r.isDynamic }
    if includeIPv6 && r.isDynamic then [rule, { rule with sourceRanges := [ascii "::/0"] }]
    else [rule]

/-- The peers that a route is handed to. -/
def getDistributionGroupsPeers (r : Route) : List Bytes := peersOf c.getGroupInfo r.groups

/-- `getAllRoutePoliciesFromGroups`: a policy once for each of its rules with the group as a
destination. -/
def getAllRoutePoliciesFromGroups (accessControlGroups : List Bytes) : List Policy :=
  accessControlGroups.flatMap fun groupID => c.policies.flatMap fun policy =>
    (policy.rules.filter fun rule => rule.destinations.contains groupID).map fun _ => policy

/-- The condition of `getRulePeers` on a source of a rule. -/
def isRulePeer (checkIDs distributionPeers : List Bytes) (peerID : Bytes) : Bool :=
  distributionPeers.contains peerID && c.hasPeer peerID &&
    c.validatePostureChecksOnPeer peerID checkIDs

/-- `getRulePeers`: the sources of a rule among the distribution peers, from all its source
groups and from its source peer resource. -/
def getRulePeers (rule : PolicyRule) (checkIDs : List Bytes) (peerID : Bytes)
    (distributionPeers : List Bytes) : List Peer :=
  let fromGroups := (peersOf c.getGroupInfo rule.sources).filter fun pID =>
    pID ≠ peerID && c.isRulePeer checkIDs distributionPeers pID
  let fromResource :=
    if rule.sourceResource.isPeer && c.isRulePeer checkIDs distributionPeers rule.sourceResource.id
    then [rule.sourceResource.id] else []
  (ord.order (insertAll [] (fromGroups ++ fromResource))).filterMap c.getPeerInfo

/-- Every enabled rule of the policies, expanded for a route. -/
def getRouteFirewallRules (policies : List Policy) (route : Route)
    (distributionPeers : List Bytes) (includeIPv6 : Bool) : List RouteFirewallRule :=
  (activeRules policies).flatMap fun (policy, rule) =>
    generateRouteFirewallRules route rule
      (c.getRulePeers ord rule policy.sourcePostureChecks peerID distributionPeers) includeIPv6

/-- The rules for the routes that the target serves. -/
def getPeerRoutesFirewallRules (includeIPv6 : Bool) : List RouteFirewallRule :=
  (c.getRoutingPeerRoutes peerID).1.flatMap fun r =>
    if r.accessControlGroups = [] then getDefaultPermit r includeIPv6
    else
      r.accessControlGroups.flatMap fun accessGroup =>
        c.getRouteFirewallRules ord peerID (c.getAllRoutePoliciesFromGroups [accessGroup]) r
          (c.getDistributionGroupsPeers r) includeIPv6

/-! ## Network resources -/

/-- The route to a network resource through one of its routers. -/
def networkResourceToRoute (resource : NetworkResource) (peer : Peer) (router : NetworkRouter) :
    Route :=
  let r : Route :=
    { id := resource.id ++ ascii ":" ++ peer.id
      accountID := resource.accountID
      peer := peer.key
      peerID := peer.id
      metric := router.metric
      masquerade := router.masquerade
      enabled := resource.enabled
      keepRoute := true
      netID := resource.name
      description := resource.description }
  match resource.type with
  | .host | .subnet =>
    { r with
      network := resource.netPrefix
      networkType := if isV6 resource.netPrefix then .ipv6 else .ipv4 }
  | .domain =>
    match env.toPunycode resource.domain with
    | none => r
    | some domain =>
      { r with
        domains := some [domain]
        networkType := .domain
        network := some ⟨.v4 0xC0000200#32, 32⟩ }

/-- The route to a resource with policies, through a known peer. -/
def getNetworkResourcesRoutes (resource : NetworkResource) (peerID : Bytes)
    (router : NetworkRouter) : List Route :=
  if (get c.resourcePoliciesMap resource.id).getD [] = [] then []
  else ((c.getPeerInfo peerID).map fun peer =>
    networkResourceToRoute env resource peer router).toList

/-- The peers without a recorded failure. -/
def getPostureValidPeers (inputPeers checkIDs : List Bytes) : List Bytes :=
  inputPeers.filter fun peerID => c.validatePostureChecksOnPeer peerID checkIDs

/-- The loop of `processResourcePolicies`, for a target that is no routing peer of the
resource: the first policy that lets the target in ends it. -/
def reachesResource (peerID : Bytes) : List Policy → Except Panic Bool
  | [] => .ok false
  | policy :: policies => do
    let peers ← policyPeers ord c.getGroupInfo policy
    if peers.contains peerID && c.validatePostureChecksOnPeer peerID policy.sourcePostureChecks then
      return true
    else reachesResource peerID policies

/-- The loop of `processResourcePolicies`, for a routing peer: the sources of all policies. -/
def resourceSourcePeers : List Policy → Except Panic (List Bytes)
  | [] => .ok []
  | policy :: policies => do
    let peers ← policyPeers ord c.getGroupInfo policy
    return c.getPostureValidPeers peers policy.sourcePostureChecks ++
      (← resourceSourcePeers policies)

/-- The routes and source peers that one resource gives the target, and whether the target
is a routing peer of it. -/
structure ResourceRoutes where
  isRoutingPeer : Bool := false
  routes : List Route := []
  sourcePeers : List Bytes := []

/-- The body of the loop of `getNetworkResourcesRoutesToSync`. -/
def resourceRoutes (resource : NetworkResource) : Except Panic ResourceRoutes :=
  let policies := (get c.resourcePoliciesMap resource.id).getD []
  let networkRoutingPeers := (get c.routersMap resource.networkID).getD []
  match get networkRoutingPeers peerID with
  | some router => do
    let sourcePeers ← c.resourceSourcePeers ord policies
    return ⟨true, c.getNetworkResourcesRoutes env resource peerID router, sourcePeers⟩
  | none => do
    if ← c.reachesResource ord peerID policies then
      let routes := (GoMap.range ord networkRoutingPeers).flatMap fun e =>
        c.getNetworkResourcesRoutes env resource e.1 e.2
      return ⟨false, routes, []⟩
    else return {}

/-- What all network resources give the target. -/
def getNetworkResourcesRoutesToSync : Except Panic ResourceRoutes := do
  let parts ← (c.networkResources.filter NetworkResource.enabled).mapM
    (c.resourceRoutes env ord peerID)
  return ⟨parts.any ResourceRoutes.isRoutingPeer, parts.flatMap ResourceRoutes.routes,
    parts.flatMap ResourceRoutes.sourcePeers⟩

/-- `GetResourceID`: the part of a route's id before the first colon. -/
def getResourceID (r : Route) : Bytes := r.id.takeWhile (· ≠ 58)

/-- The sources of all rules of some policies. -/
def getPoliciesSourcePeers (policies : List Policy) : List Bytes :=
  policies.flatMap fun policy => policy.rules.flatMap fun rule =>
    peersOf c.getGroupInfo rule.sources ++
      if rule.sourceResource.isPeer then [rule.sourceResource.id] else []

/-- The rules for the resources that the target routes, with sources only. -/
def getPeerNetworkResourceFirewallRules (routes : List Route)
    (includeIPv6 : Bool) : List RouteFirewallRule :=
  match c.getPeerInfo peerID with
  | none => []
  | some peerInfo =>
    (routes.filter fun r => r.peer = peerInfo.key).flatMap fun r =>
      let policies := (get c.resourcePoliciesMap (getResourceID r)).getD []
      (c.getRouteFirewallRules ord peerID policies r (c.getPoliciesSourcePeers policies)
        includeIPv6).filter fun rule => rule.sourceRanges ≠ []

/-- The peers to connect to, with the routers and the sources of resources. -/
def addNetworksRoutingPeers (networkResourcesRoutes : List Route) (peerID : Bytes)
    (peersToConnect expiredPeers : List Peer) (isRouter : Bool) (sourcePeers : List Bytes) :
    List Peer :=
  let known (p : Bytes) : Bool :=
    p = peerID || (peersToConnect ++ expiredPeers).any fun peer => peer.id = p
  let networkRoutesPeers := networkResourcesRoutes.map Route.peerID
  let missingPeers := (if isRouter then sourcePeers else []) ++ networkRoutesPeers
  peersToConnect ++ (ord.order (insertAll [] (missingPeers.filter fun p => !known p))).filterMap
    fun p => (c.getPeerInfo p).or (c.getRouterPeerInfo p)

/-! ## Name resolution -/

/-- No group of the peer disables DNS management. -/
def getPeerDNSManagementStatusFromGroups (peerGroups : List Bytes) : Bool :=
  !c.disabledManagementGroups.any peerGroups.contains

/-- The peer is one of the name servers. -/
def peerIsNameserver (peerIP : Bytes) (nsGroup : NameServerGroup) : Bool :=
  nsGroup.nameServers.any fun ns => peerIP = addrString ns.ip

/-- The name server groups of the peer, without those it serves itself. -/
def getPeerNSGroupsFromGroups (groupList : List Bytes) : List NameServerGroup :=
  match c.getPeerInfo peerID with
  | none => []
  | some target =>
    c.nameServerGroups.filter fun nsGroup =>
      nsGroup.enabled && nsGroup.groups.any groupList.contains &&
        !peerIsNameserver (addrString target.ip) nsGroup

/-- The part of `Calculate` that configures name resolution. -/
def dnsConfig (peerGroups : List Bytes) : DNSConfig :=
  if c.getPeerDNSManagementStatusFromGroups peerGroups then
    { serviceEnable := true
      nameServerGroups := c.getPeerNSGroupsFromGroups peerID peerGroups
      customZones :=
        (if c.customZoneDomain ≠ [] ∧ c.allDNSRecords ≠ [] then
          [{ domain := c.customZoneDomain, records := c.allDNSRecords }] else []) ++
        c.accountZones }
  else { serviceEnable := false }

/-! ## The map -/

/-- `includeIPv6` of `Calculate`. -/
def includeIPv6 : Bool :=
  match c.getPeerInfo c.peerID with
  | none => false
  | some p => p.supportsIPv6 && p.ipv6.isSome

/-- `Calculate`: the network map of the peer. -/
def calculate : Except Panic NetworkMap := do
  let target := c.peerID
  let peerGroups := c.getPeerGroups target
  let conn := c.getPeerConnectionResources env ord target
  let (peersToConnect, expiredPeers) := c.filterPeersByLoginExpiration env conn.acc.peers
  let includeIPv6 := c.includeIPv6
  let routesUpdate :=
    filterAndExpandRoutes (c.getRoutesToSync env target peersToConnect peerGroups) includeIPv6
  let routesFirewallRules := c.getPeerRoutesFirewallRules ord target includeIPv6
  let res ← c.getNetworkResourcesRoutesToSync env ord target
  let networkResourcesFirewallRules :=
    if res.isRoutingPeer then
      c.getPeerNetworkResourceFirewallRules ord target res.routes includeIPv6
    else []
  return {
    peers := c.addNetworksRoutingPeers ord res.routes target peersToConnect expiredPeers
      res.isRoutingPeer res.sourcePeers
    network := c.network
    routes := filterAndExpandRoutes res.routes includeIPv6 ++ routesUpdate
    dnsConfig := c.dnsConfig target peerGroups
    offlinePeers := expiredPeers
    firewallRules := conn.acc.rules
    routesFirewallRules := networkResourcesFirewallRules ++ routesFirewallRules
    authorizedUsers := conn.authorizedUsers
    enableSSH := conn.sshEnabled }

end Components

/-- `GetPeerNetworkMapFromComponents`, with the resource policies and the routers of the
account itself, as its callers pass them. -/
def Account.getPeerNetworkMapFromComponents (a : Account) (env : Env)
    (ord : GoMap.RangeOrder Bytes) (peerID : Bytes) (req : Request) : Except Panic NetworkMap := do
  let components ← a.getPeerNetworkMapComponents env ord peerID req a.getResourcePoliciesMap
    a.getResourceRoutersMap
  match components with
  | none => return { network := a.network }
  | some c => c.calculate env ord

end Management
