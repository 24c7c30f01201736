/-
# The account of the management server

The data that a network map is computed from (`management/server/types`), with the lookups that
the two computations of a peer's connections share.

Go maps are association lists, read with `GoMap.get` and iterated in an order that Go leaves
open (`GoMap.RangeOrder`); a map with empty values is the list of its keys.
-/
import AnonBird.GoMap
import AnonBird.GoText
import AnonBird.IPText

open GoStrings NetIP List
open GoMap hiding get set

namespace Management

export GoMap (get set)

/-! ## Peers and groups -/

/-- `nbpeer.Peer`, the fields that map generation reads.  `ip` and `ipv6` are `none` where
the Go address is the zero `netip.Addr`. -/
structure Peer where
  id : Bytes
  key : Bytes
  ip : Option Addr
  ipv6 : Option Addr := none
  sshEnabled : Bool := false
  userID : Bytes := []
  loginExpirationEnabled : Bool := false
  lastLogin : Option ℤ := none
  /-- `Status` is set and says that the peer is connected. -/
  connected : Bool := false
  /-- `Meta.WtVersion`. -/
  wtVersion : Bytes := []
  /-- `Meta.Flags.ServerSSHAllowed`. -/
  serverSSHAllowed : Bool := false
  /-- `Meta.Flags.DisableIPv6`. -/
  disableIPv6 : Bool := false
  /-- `Meta.Capabilities`. -/
  capabilities : List ℕ := []
  /-- `ProxyMeta.Embedded`. -/
  embedded : Bool := false
  /-- `ProxyMeta.Cluster`. -/
  cluster : Bytes := []
  deriving DecidableEq, Repr

namespace Peer

/-- The capability of a peer to use IPv6 in the overlay. -/
def peerCapabilityIPv6Overlay : ℕ := 2

/-- A peer that can use IPv6 and has not disabled it. -/
def supportsIPv6 (p : Peer) : Bool :=
  !p.disableIPv6 && p.capabilities.contains peerCapabilityIPv6Overlay

/-- The zero `time.Time`, in nanoseconds from the Unix epoch. -/
def zeroTime : ℤ := -62135596800000000000

/-- `LoginExpired`, its first result, at the time `now`. -/
def loginExpired (p : Peer) (now expiresIn : ℤ) : Bool :=
  if p.userID = [] ∨ p.loginExpirationEnabled = false then false
  else p.lastLogin.getD zeroTime + expiresIn ≤ now

end Peer

/-- `ResourceType`; the empty type is no type. -/
inductive ResourceType where
  | peer
  | domain
  | host
  | subnet
  deriving DecidableEq, Repr

/-- `Resource`: what a rule or a group refers to by id. -/
structure Resource where
  id : Bytes := []
  type : Option ResourceType := none
  deriving DecidableEq, Repr

/-- The test for a peer resource that the source repeats at every use. -/
def Resource.isPeer (r : Resource) : Bool := r.type = some .peer && r.id ≠ []

/-- A group of peers and network resources. -/
structure Group where
  id : Bytes
  name : Bytes
  peers : List Bytes
  resources : List Resource := []
  deriving DecidableEq, Repr

/-- The group of all peers is known by its name. -/
def Group.isGroupAll (g : Group) : Bool := g.name = ascii "All"

/-! ## Policies -/

/-- `PolicyRuleProtocolType`. -/
inductive Protocol where
  | all
  | tcp
  | udp
  | icmp
  | netbirdSSH
  deriving DecidableEq, Repr

/-- The protocol as rules spell it. -/
def Protocol.text : Protocol → Bytes
  | all => ascii "all"
  | tcp => ascii "tcp"
  | udp => ascii "udp"
  | icmp => ascii "icmp"
  | netbirdSSH => ascii "netbird-ssh"

/-- `PolicyTrafficActionType`. -/
inductive Action where
  | accept
  | drop
  deriving DecidableEq, Repr

/-- The action as rules spell it. -/
def Action.text : Action → Bytes
  | accept => ascii "accept"
  | drop => ascii "drop"

/-- `RulePortRange`. -/
structure PortRange where
  start : UInt16 := 0
  stop : UInt16 := 0
  deriving DecidableEq, Repr

/-- A rule of a policy, with its sources, its destinations and what it lets through. -/
structure PolicyRule where
  id : Bytes
  policyID : Bytes := []
  enabled : Bool := true
  action : Action := .accept
  destinations : List Bytes := []
  destinationResource : Resource := {}
  sources : List Bytes := []
  sourceResource : Resource := {}
  bidirectional : Bool := false
  protocol : Protocol := .all
  ports : List Bytes := []
  portRanges : List PortRange := []
  authorizedGroups : List (Bytes × List Bytes) := []
  authorizedUser : Bytes := []
  deriving DecidableEq, Repr

/-- A policy: its rules, and the checks that their sources have to pass. -/
structure Policy where
  id : Bytes
  enabled : Bool := true
  rules : List PolicyRule
  sourcePostureChecks : List Bytes := []
  deriving DecidableEq, Repr

/-- Adding to a map with empty values, one key after the other. -/
def insertAll (s ks : List Bytes) : List Bytes := ks.foldl (fun s k => s.insert k) s

@[simp] theorem mem_insertAll {s ks : List Bytes} {k : Bytes} :
    k ∈ insertAll s ks ↔ k ∈ s ∨ k ∈ ks := by
  induction ks generalizing s with
  | nil => simp [insertAll]
  | cons x ks ih =>
    have htail := @ih (s.insert x)
    rw [insertAll] at htail
    rw [insertAll, foldl_cons, htail, mem_insert_iff, mem_cons]
    tauto

/-- `SourceGroups`: the sources of a single rule as they are, those of several rules without
repetitions and in no particular order. -/
def Policy.sourceGroups (ord : RangeOrder Bytes) (p : Policy) : List Bytes :=
  match p.rules with
  | [rule] => rule.sources
  | rules => ord.order (rules.foldl (fun groups rule => insertAll groups rule.sources) [])

/-- `posture.Checks`: the single checks are predicates on peers. -/
structure PostureChecks where
  id : Bytes
  checks : List (Peer → Bool)

/-! ## Routes and network resources -/

/-- What a route leads to. -/
inductive NetworkType where
  | invalid
  | ipv4
  | ipv6
  | domain
  deriving DecidableEq, Repr

/-- `route.Route`.  A nil list of domains is `none`, and so is the zero `netip.Prefix`. -/
structure Route where
  id : Bytes
  accountID : Bytes := []
  network : Option Prefix := none
  domains : Option (List Bytes) := none
  keepRoute : Bool := false
  netID : Bytes := []
  description : Bytes := []
  peer : Bytes := []
  peerID : Bytes := []
  peerGroups : List Bytes := []
  networkType : NetworkType := .invalid
  masquerade : Bool := false
  metric : ℤ := 0
  enabled : Bool := true
  groups : List Bytes := []
  accessControlGroups : List Bytes := []
  skipAutoApply : Bool := false
  deriving DecidableEq, Repr

/-- What a network resource is. -/
inductive NetworkResourceType where
  | host
  | subnet
  | domain
  deriving DecidableEq, Repr

/-- A resource of a network, reached through the routers of the network. -/
structure NetworkResource where
  id : Bytes
  networkID : Bytes
  accountID : Bytes := []
  name : Bytes := []
  description : Bytes := []
  type : NetworkResourceType := .host
  domain : Bytes := []
  netPrefix : Option Prefix := none
  enabled : Bool := true
  deriving DecidableEq, Repr

/-- A router of a network: a peer, or the peers of groups. -/
structure NetworkRouter where
  id : Bytes
  networkID : Bytes
  peer : Bytes := []
  peerGroups : List Bytes := []
  masquerade : Bool := false
  metric : ℤ := 0
  enabled : Bool := true
  deriving DecidableEq, Repr

/-! ## Names -/

/-- A name server with its address. -/
structure NameServer where
  ip : Option Addr
  nsType : ℕ
  port : ℤ
  deriving DecidableEq, Repr

/-- Name servers for some domains, handed to the peers of some groups. -/
structure NameServerGroup where
  id : Bytes
  name : Bytes := []
  description : Bytes := []
  nameServers : List NameServer := []
  groups : List Bytes := []
  primary : Bool := false
  domains : List Bytes := []
  enabled : Bool := true
  searchDomainsEnabled : Bool := false
  deriving DecidableEq, Repr

/-- A DNS record as it is sent to a peer. -/
structure SimpleRecord where
  name : Bytes
  type : ℕ
  class' : Bytes
  ttl : ℤ
  rdata : Bytes
  deriving DecidableEq, Repr

/-- A DNS zone as it is sent to a peer. -/
structure CustomZone where
  domain : Bytes
  records : List SimpleRecord
  searchDomainDisabled : Bool := false
  nonAuthoritative : Bool := false
  deriving DecidableEq, Repr

/-- `records.RecordType`, with everything that the server does not know as `other`. -/
inductive RecordType where
  | a
  | aaaa
  | cname
  | other
  deriving DecidableEq, Repr

/-- A record of a zone of the account. -/
structure Record where
  name : Bytes
  type : RecordType
  content : Bytes
  ttl : ℤ
  deriving DecidableEq, Repr

/-- A DNS zone of the account. -/
structure Zone where
  domain : Bytes
  enabled : Bool
  enableSearchDomain : Bool
  distributionGroups : List Bytes
  records : List Record
  deriving DecidableEq, Repr

/-- `service.Service`, the fields that name resolution reads. -/
structure Service where
  domain : Bytes
  proxyCluster : Bytes
  enabled : Bool
  isPrivate : Bool
  accessGroups : List Bytes
  deriving DecidableEq, Repr

/-! ## The account -/

/-- A user of the account. -/
structure User where
  id : Bytes
  blocked : Bool := false
  isServiceUser : Bool := false
  deriving DecidableEq, Repr

/-- `Settings`, the fields that map generation reads. -/
structure Settings where
  peerLoginExpirationEnabled : Bool := false
  peerLoginExpiration : ℤ := 0
  deriving DecidableEq, Repr

/-- `Network`, which a network map carries as it is. -/
structure Network where
  identifier : Bytes := []
  dns : Bytes := []
  serial : ℕ := 0
  deriving DecidableEq, Repr

theorem noPostureChecks_id : ∀ checks ∈ ([] : List PostureChecks), checks.id ≠ [] := by
  decide

/-- An account.  The store keys peers and groups by their ids, and gives posture checks an id
when it saves them. -/
structure Account where
  network : Network := {}
  peers : List (Bytes × Peer)
  users : List (Bytes × User) := []
  groups : List (Bytes × Group)
  policies : List Policy := []
  routes : List (Bytes × Route) := []
  nameServerGroups : List (Bytes × NameServerGroup) := []
  disabledManagementGroups : List Bytes := []
  postureChecks : List PostureChecks := []
  services : List Service := []
  settings : Settings := {}
  networkRouters : List NetworkRouter := []
  networkResources : List NetworkResource := []
  peers_id : ∀ e ∈ peers, e.2.id = e.1 := by decide
  groups_id : ∀ e ∈ groups, e.2.id = e.1 := by decide
  postureChecks_id : ∀ checks ∈ postureChecks, checks.id ≠ [] := by
    first | exact noPostureChecks_id | decide

/-- What the computation takes from outside: the clock and the libraries for versions and
domain names. -/
structure Env where
  now : ℤ
  /-- `posture.MeetsMinVersion(min, version)`, `false` on an error. -/
  meetsMinVersion : Bytes → Bytes → Bool
  /-- `dns.Fqdn`. -/
  fqdn : Bytes → Bytes
  /-- `domain.FromString`; `none` is its error. -/
  toPunycode : Bytes → Option Bytes
  /-- `idna.ToUnicode`; `none` is its error. -/
  toUnicode : Bytes → Option Bytes

namespace Account

variable (a : Account)

/-- The peer with an id. -/
def getPeer (id : Bytes) : Option Peer := get a.peers id

/-- The group with an id. -/
def getGroup (id : Bytes) : Option Group := get a.groups id

/-- The posture checks with an id. -/
def getPostureChecks (id : Bytes) : Option PostureChecks :=
  a.postureChecks.find? fun checks => checks.id = id

variable {a : Account}

theorem id_of_getPeer {id : Bytes} {p : Peer} (h : a.getPeer id = some p) :
    p.id = id := a.peers_id (id, p) (mem_of_get h)

/-- The groups that a peer is in. -/
def getPeerGroups (peerID : Bytes) : List Bytes :=
  ((entries a.groups).filter fun e => peerID ∈ e.2.peers).map Prod.fst

theorem mem_getPeerGroups {peerID gid : Bytes} :
    gid ∈ a.getPeerGroups peerID ↔ ∃ g, a.getGroup gid = some g ∧ peerID ∈ g.peers := by
  simp only [getPeerGroups, mem_map, List.mem_filter, decide_eq_true_eq, Prod.exists, mem_entries]
  constructor
  · rintro ⟨id, g, ⟨hg, hp⟩, rfl⟩
    exact ⟨g, hg, hp⟩
  · rintro ⟨g, hg, hp⟩
    exact ⟨gid, g, ⟨hg, hp⟩, rfl⟩

/-- The users that are neither blocked nor service users. -/
def getAllowedUserIDs : List Bytes :=
  ((entries a.users).filter fun e => !e.2.blocked && !e.2.isServiceUser).map
    fun e => e.2.id

/-! ## Posture checks -/

/-- The peer passes the checks of this id.  An id without checks is passed over. -/
def passes (checkID : Bytes) (peer : Peer) : Bool :=
  match a.getPostureChecks checkID with
  | none => true
  | some posture => posture.checks.all fun check => check peer

/-- Only checks that have an id can be failed. -/
theorem ne_nil_of_not_passes {checkID : Bytes} {peer : Peer}
    (h : a.passes checkID peer = false) : checkID ≠ [] := by
  rw [passes] at h
  cases hchecks : a.getPostureChecks checkID with
  | none => simp [hchecks] at h
  | some posture =>
    have hid : posture.id = checkID := by simpa using List.find?_some hchecks
    rw [← hid]
    exact a.postureChecks_id posture (mem_of_find?_eq_some hchecks)

/-- A peer exists and passes all the checks. -/
def validatePostureChecksOnPeer (checkIDs : List Bytes) (peerID : Bytes) : Bool :=
  match a.getPeer peerID with
  | none => false
  | some peer => checkIDs.all fun id => a.passes id peer

/-- `validatePostureChecksOnPeerGetFailed`: also the id of the first failed checks, which is
empty for a peer that does not exist. -/
def validatePostureChecksOnPeerGetFailed (checkIDs : List Bytes) (peerID : Bytes) :
    Bool × Bytes :=
  match a.getPeer peerID with
  | none => (false, [])
  | some peer =>
    match checkIDs.find? fun id => !a.passes id peer with
    | none => (true, [])
    | some id => (false, id)

end Account

/-! ## The peers of a list of groups -/

/-- The loop of `getUniquePeerIDsFromGroupsIDs`. A group named All ends it with its own peers, and
so does the only group of a list. -/
def uniquePeerIDsLoop (ord : RangeOrder Bytes) (lookup : Bytes → Option Group)
    (single : Bool) : List Bytes → List Bytes → List Bytes
  | [], peerIDs => ord.order peerIDs
  | groupID :: groups, peerIDs =>
    match lookup groupID with
    | none => uniquePeerIDsLoop ord lookup single groups peerIDs
    | some group =>
      if group.isGroupAll || single then group.peers
      else uniquePeerIDsLoop ord lookup single groups (insertAll peerIDs group.peers)

/-- `getUniquePeerIDsFromGroupsIDs`, which the account and the components both have. -/
def uniquePeerIDs (ord : RangeOrder Bytes) (lookup : Bytes → Option Group)
    (groups : List Bytes) : List Bytes :=
  uniquePeerIDsLoop ord lookup (groups.length = 1) groups []

/-! ### What the loop computes -/

/-- The group at which the loop ends early. -/
def closingGroup (lookup : Bytes → Option Group) (single : Bool) (groups : List Bytes) :
    Option Group :=
  groups.findSome? fun id => (lookup id).filter fun group => group.isGroupAll || single

/-- The peers of the groups that a lookup finds. -/
def peersOf (lookup : Bytes → Option Group) (groups : List Bytes) : List Bytes :=
  groups.flatMap fun id => ((lookup id).map Group.peers).getD []

/-- The peers that a list of groups stands for: those of the group that ends the loop, or
else those of all groups. -/
def membersOf (lookup : Bytes → Option Group) (groups : List Bytes) : List Bytes :=
  match closingGroup lookup (groups.length = 1) groups with
  | some group => group.peers
  | none => peersOf lookup groups

variable {lookup : Bytes → Option Group} {groups : List Bytes} {p : Bytes}

theorem mem_peersOf :
    p ∈ peersOf lookup groups ↔ ∃ id ∈ groups, ∃ g, lookup id = some g ∧ p ∈ g.peers := by
  rw [peersOf, mem_flatMap]
  constructor
  · rintro ⟨id, hid, hp⟩
    cases hg : lookup id with
    | none => simp [hg] at hp
    | some g => exact ⟨id, hid, g, hg, by simpa [hg] using hp⟩
  · rintro ⟨id, hid, g, hg, hp⟩
    exact ⟨id, hid, by simpa [hg] using hp⟩

theorem closingGroup_cons (lookup : Bytes → Option Group) (single : Bool) (id : Bytes)
    (groups : List Bytes) : closingGroup lookup single (id :: groups) = match lookup id with
      | none => closingGroup lookup single groups
      | some g => if g.isGroupAll || single then some g else closingGroup lookup single groups := by
  rw [closingGroup, findSome?_cons]
  cases hg : lookup id with
  | none => rfl
  | some g =>
    by_cases hclose : (g.isGroupAll || single) = true
    · simp [Option.filter, hclose]
    · simp [Option.filter, hclose, closingGroup]

variable {ord : RangeOrder Bytes} {single : Bool}

/-- Whatever the order of the map, the loop returns the members of the list of groups. -/
theorem mem_uniquePeerIDsLoop
    (peerIDs : List Bytes) : p ∈ uniquePeerIDsLoop ord lookup single groups peerIDs ↔
      match closingGroup lookup single groups with
      | some g => p ∈ g.peers
      | none => p ∈ peerIDs ∨ p ∈ peersOf lookup groups := by
  induction groups generalizing peerIDs with
  | nil => simp [uniquePeerIDsLoop, closingGroup, peersOf]
  | cons id groups ih =>
    rw [uniquePeerIDsLoop, closingGroup_cons]
    cases hg : lookup id with
    | none => simpa [peersOf, hg] using ih peerIDs
    | some g =>
      by_cases hclose : (g.isGroupAll || single) = true
      · simp [hclose]
      · simp only [hclose, Bool.false_eq_true, if_false]
        rw [ih (insertAll peerIDs g.peers)]
        cases closingGroup lookup single groups with
        | some closing => rfl
        | none => simp [peersOf, hg, or_assoc]

theorem mem_uniquePeerIDs :
    p ∈ uniquePeerIDs ord lookup groups ↔ p ∈ membersOf lookup groups := by
  rw [uniquePeerIDs, mem_uniquePeerIDsLoop, membersOf]
  cases closingGroup lookup (groups.length = 1) groups with
  | some g => rfl
  | none => simp

theorem closingGroup_eq_none :
    closingGroup lookup single groups = none ↔ ∀ id ∈ groups, ∀ g, lookup id = some g →
      (g.isGroupAll || single) = false := by
  rw [closingGroup, findSome?_eq_none_iff]
  refine forall₂_congr fun id _ => ?_
  simp

theorem closingGroup_eq_some {g : Group} :
    closingGroup lookup single groups = some g ↔ ∃ before id after,
      groups = before ++ id :: after ∧ lookup id = some g ∧ (g.isGroupAll || single) = true ∧
        closingGroup lookup single before = none := by
  simp only [closingGroup, findSome?_eq_some_iff, findSome?_eq_none_iff,
    Option.filter_eq_some_iff, and_assoc]

theorem mem_membersOf : p ∈ membersOf lookup groups ↔
      (∃ g, closingGroup lookup (groups.length = 1) groups = some g ∧ p ∈ g.peers) ∨
      (closingGroup lookup (groups.length = 1) groups = none ∧ p ∈ peersOf lookup groups) := by
  rw [membersOf]
  cases closingGroup lookup (groups.length = 1) groups <;> simp

variable {groups' : List Bytes}

variable {lookup' : Bytes → Option Group}

theorem mem_membersOf_of_kept (hkept : ∀ id ∈ groups, ∀ g, lookup id = some g → p ∈ g.peers →
      ∃ g', lookup' id = some g' ∧ p ∈ g'.peers)
    (hfrom : ∀ id g', lookup' id = some g' → ∃ g, lookup id = some g ∧ g'.name = g.name)
    (h : p ∈ membersOf lookup groups) : p ∈ membersOf lookup' groups := by
  have hnone : ∀ {ids single}, closingGroup lookup single ids = none →
      closingGroup lookup' single ids = none := by
    intro ids single hclose
    rw [closingGroup_eq_none] at hclose ⊢
    intro id hid g' hg'
    obtain ⟨g, hg, hname⟩ := hfrom id g' hg'
    rw [Group.isGroupAll, hname]
    exact hclose id hid g hg
  rw [mem_membersOf] at h ⊢
  rcases h with ⟨g, hclose, hp⟩ | ⟨hclose, hp⟩
  · left
    obtain ⟨before, id, after, hgroups, hg, hend, hbefore⟩ := closingGroup_eq_some.mp hclose
    obtain ⟨g', hg', hp'⟩ := hkept id (by rw [hgroups]; simp) g hg hp
    obtain ⟨g₁, hg₁, hname⟩ := hfrom id g' hg'
    cases hg.symm.trans hg₁
    refine ⟨g', closingGroup_eq_some.mpr ⟨before, id, after, hgroups, hg', ?_, hnone hbefore⟩, hp'⟩
    rw [Group.isGroupAll, hname]
    exact hend
  · right
    obtain ⟨id, hid, g, hg, hpg⟩ := mem_peersOf.mp hp
    obtain ⟨g', hg', hp'⟩ := hkept id hid g hg hpg
    exact ⟨hnone hclose, mem_peersOf.mpr ⟨id, hid, g', hg', hp'⟩⟩

end Management
