/-
# The DNS server and its updates

Model of `client/internal/dns/server.go` as far as it decides which handlers stand in the handler
chain.  An update removes the handlers of the update before it through `dnsMuxMap`, which keeps one
wrapper for each handler id.
-/
import AnonBird.HandlerChain
import AnonBird.IPText
import AnonBird.LocalResolver
import AnonBird.NetworkMap

open GoStrings NetIP DNSNames
open Management (DNSConfig NameServerGroup NameServer CustomZone SimpleRecord)
open GoMap hiding get set

namespace DNS

/-! ## Handlers -/

/-- `netip.AddrPort`; the zero address is `none`. -/
structure AddrPort where
  addr : Option Addr
  port : ℕ
  deriving DecidableEq

/-- An address and a port as `AddrPort.String` writes them. -/
def AddrPort.string (s : AddrPort) : Bytes :=
  match s.addr with
  | none => ascii "invalid AddrPort"
  | some (.v4 _) => addrString s.addr ++ 58 :: formatUint s.port
  | some (.v6 _ _) => 91 :: addrString s.addr ++ ascii "]:" ++ formatUint s.port

/-- `upstreamResolverBase`.  Resolvers are told apart by when they were made, `ref`. -/
structure Upstream where
  ref : ℕ
  domain : Bytes
  upstreamServers : List (List AddrPort) := []
  deriving DecidableEq

/-- The handlers that the server stops when it drops them. -/
inductive HandlerWithStop where
  | localResolver
  | upstream (u : Upstream)
  deriving DecidableEq

/-- The handlers of the chain; a DNS route has a number. -/
inductive Handler where
  | withStop (h : HandlerWithStop)
  | mgmtCache
  | route (id : ℕ)
  deriving DecidableEq

instance : SubdomainMatcher Handler where
  matchSubdomains
    | .withStop _ => true
    | .mgmtCache => false
    | .route _ => false

/-- What the server takes from other packages: the hash of `ID` and `dns.NewRR`. -/
structure Platform where
  sha256 : Bytes → Bytes
  newRR : SimpleRecord → Option RR

variable (p : Platform)

/-- `upstreamResolverBase.ID`, which reads the domain and the servers only. -/
def upstreamID (domain : Bytes) (upstreamServers : List (List AddrPort)) : Bytes :=
  let races := upstreamServers.flatMap fun race =>
    ascii "[" ++ (race.flatMap fun s => s.string ++ ascii "|") ++ ascii "]"
  ascii "upstream-" ++ hexEncode ((p.sha256 (domain ++ ascii ":" ++ races)).take 8)

/-- What two updates compare handlers by. -/
def HandlerWithStop.id : HandlerWithStop → Bytes
  | .localResolver => ascii "local-resolver"
  | .upstream u => upstreamID p u.domain u.upstreamServers

/-- A handler with the domain and the priority it is registered at. -/
structure HandlerWrapper where
  domain : Bytes
  handler : HandlerWithStop
  priority : ℤ
  deriving DecidableEq

/-- The entry that a wrapper gets in the chain. -/
def HandlerWrapper.entry (w : HandlerWrapper) : HandlerEntry Handler :=
  newEntry w.domain (.withStop w.handler) w.priority

/-! ## What a configuration asks for -/

/-- The nameservers that peers can use are of type `UDPNameServerType`. -/
def udpNameServerType : ℕ := 1

/-- `NameServer.AddrPort`. -/
def nameServerAddrPort (ns : NameServer) : AddrPort := ⟨ns.ip, (ns.port % 65536).toNat⟩

/-- The UDP servers that are not the server itself. -/
def filterNameServers (runtimeIP : Option Addr) (nameServers : List NameServer) :
    List AddrPort :=
  (nameServers.filter fun ns => ns.nsType = udpNameServerType && ns.ip ≠ runtimeIP).map
    nameServerAddrPort

/-- The domain of the primary handlers. -/
def rootZone : Bytes := ascii "."

/-- The errors of `buildUpstreamHandlerUpdate`. -/
inductive UpdateError where
  | nonPrimaryWithoutDomains
  | emptyDomain
  deriving DecidableEq

/-- The error that `applyConfiguration` returns. -/
def UpdateError.text : UpdateError → Bytes
  | .nonPrimaryWithoutDomains => ascii "upstream handler updater: " ++
      ascii "received a non primary nameserver group with an empty domain list"
  | .emptyDomain => ascii "upstream handler updater: " ++
      ascii "received a nameserver group with an empty domain element"

/-- The checks of `buildUpstreamHandlerUpdate`; groups without nameservers are passed over. -/
def checkNameServerGroups (groups : List NameServerGroup) : Option UpdateError :=
  groups.findSome? fun nsGroup =>
    if nsGroup.nameServers = [] then none
    else if !nsGroup.primary && nsGroup.domains = [] then some .nonPrimaryWithoutDomains
    else if [] ∈ nsGroup.domains then some .emptyDomain
    else none

/-- `domainMap[domain] = append(domainMap[domain], group)`. -/
def appendGroup (m : List (Bytes × List NameServerGroup)) (domain : Bytes)
    (group : NameServerGroup) : List (Bytes × List NameServerGroup) :=
  set m domain ((get m domain).getD [] ++ [group])

/-- The turn of the loop of `groupNSGroupsByDomain` for a group. -/
def addGroup (m : List (Bytes × List NameServerGroup)) (group : NameServerGroup) :
    List (Bytes × List NameServerGroup) :=
  if group.primary then appendGroup m rootZone group
  else group.domains.foldl (fun m domain =>
    if domain = [] then m else appendGroup m domain group) m

/-- The groups under each domain, in some order. -/
def groupNSGroupsByDomain (ord : RangeOrder Bytes) (groups : List NameServerGroup) :
    List (Bytes × List NameServerGroup) :=
  range ord (groups.foldl addGroup [])

/-- The races of a merged handler. -/
def races (runtimeIP : Option Addr) (groups : List NameServerGroup) : List (List AddrPort) :=
  (groups.map fun nsGroup => filterNameServers runtimeIP nsGroup.nameServers).filter (· ≠ [])

/-- The priority of the handler for a domain. -/
def domainPriority (domain : Bytes) : ℤ :=
  if domain = rootZone then priorityDefault else priorityUpstream

/-- The handlers and the zones of an update, for zones with records. -/
def buildLocalHandlerUpdate (customZones : List CustomZone) :
    List HandlerWrapper × List CustomZone :=
  let zones := customZones.filter fun zone => zone.records ≠ []
  (zones.map fun zone => ⟨zone.domain, .localResolver, priorityLocal⟩,
    zones.map fun zone =>
      { zone with records := zone.records.filter fun record => record.class' = ascii "IN" })

/-- A zone as the local resolver registers it. -/
def registeredZone (zone : CustomZone) : Zone :=
  { domain := zone.domain, records := zone.records.filterMap p.newRR
    nonAuthoritative := zone.nonAuthoritative }

/-! ## The server -/

/-- The part of `DefaultServer` that is about handlers; `stopped` are the resolvers whose context is
cancelled. -/
structure Server where
  handlerChain : HandlerChain Handler := newHandlerChain
  dnsMuxMap : List (Bytes × HandlerWrapper) := []
  localResolver : Resolver := newResolver
  fallbackHandler : Option Upstream := none
  noopHostManager : Bool := true
  permanent : Bool := false
  created : ℕ := 0
  stopped : List Upstream := []

/-- What the host answers during an update: the address of the DNS service, whether there is a host
manager, the orders of the map loops, and its original nameservers. -/
structure UpdateEnv where
  runtimeIP : Option Addr := none
  initialized : Bool := true
  groupOrder : RangeOrder Bytes := RangeOrder.kept
  muxOrder : RangeOrder Bytes := RangeOrder.kept
  applied : Option (List Addr) := none

namespace Server

variable (s : Server)

/-- A handler is stopped. -/
def stop (h : HandlerWithStop) : Server :=
  match h with
  | .localResolver => { s with localResolver := s.localResolver.stop }
  | .upstream u => { s with stopped := u :: s.stopped }

/-- A handler is added to the chain under each domain. -/
def registerHandler (domains : List Bytes) (handler : Handler) (priority : ℤ) : Server :=
  { s with
    handlerChain := domains.foldl (fun c domain =>
      if domain = [] then c else c.addHandler domain handler priority) s.handlerChain }

/-- The handlers of a priority leave the chain. -/
def deregisterHandler (domains : List Bytes) (priority : ℤ) : Server :=
  { s with
    handlerChain := domains.foldl (fun c domain =>
      if domain = [] then c else c.removeHandler domain priority) s.handlerChain }

/-- The fallback handler is taken out and stopped. -/
def clearFallback : Server :=
  let s := s.deregisterHandler [rootZone] priorityFallback
  match s.fallbackHandler with
  | none => s
  | some handler => { s.stop (.upstream handler) with fallbackHandler := none }

/-- `registerFallback`; the host manager that does nothing has no nameservers. -/
def registerFallback (nameservers : List Addr) : Server :=
  let originalNameservers := if s.noopHostManager then [] else nameservers
  if originalNameservers = [] then s.clearFallback
  else
    let handler : Upstream :=
      ⟨s.created, rootZone, [originalNameservers.map fun ns => ⟨some ns, 53⟩]⟩
    let prev := s.fallbackHandler
    let s := { s with created := s.created + 1, fallbackHandler := some handler }
    let s := s.registerHandler [rootZone] (.withStop (.upstream handler)) priorityFallback
    match prev with
    | none => s
    | some prev => s.stop (.upstream prev)

/-- `applyHostConfig`, which goes on to `registerFallback` if it applies the configuration. -/
def applyHostConfig (applied : Option (List Addr)) : Server :=
  match applied with
  | none => s
  | some nameservers => s.registerFallback nameservers

/-- The host manager is made again. -/
def enableDNS (initialized : Bool) : Server :=
  if initialized then { s with noopHostManager := false } else s

/-- The host manager becomes the one that does nothing. -/
def disableDNS : Server :=
  if s.noopHostManager then s
  else
    let s := if s.fallbackHandler.isSome then s.clearFallback else s
    { s with noopHostManager := true }

/-- The first step of `applyConfiguration`. -/
def switchDNS (initialized serviceEnable : Bool) : Server :=
  if serviceEnable then s.enableDNS initialized
  else if !s.permanent then s.disableDNS
  else s

/-- `buildMergedDomainHandler`; `none` stands for `errNoUsableNameservers`. -/
def buildMergedDomainHandler (runtimeIP : Option Addr)
    (domainGroup : Bytes × List NameServerGroup) : Option HandlerWrapper × Server :=
  let handler : Upstream := ⟨s.created, domainGroup.1, races runtimeIP domainGroup.2⟩
  let s := { s with created := s.created + 1 }
  if handler.upstreamServers = [] then (none, s.stop (.upstream handler))
  else (some ⟨domainGroup.1, .upstream handler, domainPriority domainGroup.1⟩, s)

/-- The loop of `buildUpstreamHandlerUpdate`. -/
def buildHandlers (runtimeIP : Option Addr) :
    List (Bytes × List NameServerGroup) → Server → List HandlerWrapper × Server
  | [], s => ([], s)
  | domainGroup :: rest, s =>
    let (update, s) := s.buildMergedDomainHandler runtimeIP domainGroup
    let (updates, s) := buildHandlers runtimeIP rest s
    (update.toList ++ updates, s)

/-- The turn of the first loop of `updateMux` for a wrapper. -/
def closeHandler (existing : HandlerWrapper) : Server :=
  (s.deregisterHandler [existing.domain] existing.priority).stop existing.handler

/-- The first loop of `updateMux`: the handlers that the map knows are removed and stopped. -/
def closeMux (ord : RangeOrder Bytes) : Server :=
  (range ord s.dnsMuxMap).foldl (fun s existing => s.closeHandler existing.2) s

/-- The turn of the second loop of `updateMux` for a wrapper. -/
def openHandler (update : HandlerWrapper) : Server :=
  s.registerHandler [update.domain] (.withStop update.handler) update.priority

/-- The second loop of `updateMux`. -/
def openMux (muxUpdates : List HandlerWrapper) : Server :=
  let s := muxUpdates.foldl openHandler s
  { s with dnsMuxMap := build (fun w => w.handler.id p) id muxUpdates }

/-- The handlers of the last update give way to those of this one. -/
def updateMux (ord : RangeOrder Bytes) (muxUpdates : List HandlerWrapper) : Server :=
  (s.closeMux ord).openMux p muxUpdates

/-- The wrappers of a configuration, with the server after they are built. -/
def buildUpdates (env : UpdateEnv) (update : DNSConfig) : List HandlerWrapper × Server :=
  let built := buildHandlers env.runtimeIP
    (groupNSGroupsByDomain env.groupOrder update.nameServerGroups) s
  ((buildLocalHandlerUpdate update.customZones).1 ++ built.1, built.2)

/-- An update of the configuration, up to the error that ends it. -/
def applyConfiguration (env : UpdateEnv) (update : DNSConfig) : Server × Option UpdateError :=
  let s := s.switchDNS env.initialized update.serviceEnable
  match checkNameServerGroups update.nameServerGroups with
  | some err => (s, some err)
  | none =>
    let (muxUpdates, s) := s.buildUpdates env update
    let s := s.updateMux p env.muxOrder muxUpdates
    let localZones := (buildLocalHandlerUpdate update.customZones).2
    let s := { s with localResolver := s.localResolver.update (localZones.map (registeredZone p)) }
    (s.applyHostConfig env.applied, none)

end Server

/-- The calls of the server, each under its lock.  Those of routes come with `PriorityDNSRoute`. -/
inductive Event where
  | applyConfiguration (env : UpdateEnv) (update : DNSConfig)
  | registerHandler (domains : List Bytes) (route : ℕ) (applied : Option (List Addr))
  | deregisterHandler (domains : List Bytes) (applied : Option (List Addr))
  | updateServerConfig (removedDomains newDomains : List Bytes)
  | onUpdatedHostDNSServer (nameservers : List Addr)
  | initializeServer (initialized : Bool) (nameservers : List Addr)

namespace Server

/-- `Initialize`. -/
def initializeServer (s : Server) (initialized : Bool) (nameservers : List Addr) : Server :=
  if !s.noopHostManager || !initialized then s
  else
    let s := { s with noopHostManager := false }
    if s.permanent then s.registerFallback nameservers else s

/-- One call. -/
def step (s : Server) : Event → Server
  | .applyConfiguration env update => (s.applyConfiguration p env update).1
  | .registerHandler domains route applied =>
    (s.registerHandler domains (.route route) priorityDNSRoute).applyHostConfig applied
  | .deregisterHandler domains applied =>
    (s.deregisterHandler domains priorityDNSRoute).applyHostConfig applied
  | .updateServerConfig removedDomains newDomains =>
    (s.deregisterHandler removedDomains priorityMgmtCache).registerHandler newDomains
      .mgmtCache priorityMgmtCache
  | .onUpdatedHostDNSServer nameservers => s.registerFallback nameservers
  | .initializeServer initialized nameservers => s.initializeServer initialized nameservers

/-- A sequence of calls. -/
def run (s : Server) (es : List Event) : Server := es.foldl (step p) s

end Server

end DNS
