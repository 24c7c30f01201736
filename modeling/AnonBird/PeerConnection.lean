/-
# The connection resources of a peer

Which peers a peer connects to, the firewall rules between them, and who may use SSH on it.
The components that a network map is calculated from compute this (`networkmap_components.go`); how
they look up peers and users is the parameter of `connectionResources` here.
-/
import AnonBird.FirewallRules

open GoStrings NetIP

namespace Management

/-- The machine user that stands for every one. -/
def wildcard : Bytes := ascii "*"

/-- One of the ranges has a port of SSH. -/
def portRangeIncludesSSH (portRanges : List PortRange) : Bool :=
  portRanges.any fun pr =>
    (pr.start ≤ defaultSSHPortNumber && pr.stop ≥ defaultSSHPortNumber) ||
      (pr.start ≤ nativeSSHPortNumber && pr.stop ≥ nativeSSHPortNumber)

/-- One of the ports is one of SSH. -/
def portsIncludesSSH (ports : List Bytes) : Bool :=
  ports.any fun port => port = defaultSSHPortString || port = nativeSSHPortString

/-- A rule that lets SSH through without naming it. -/
def policyRuleImpliesLegacySSH (rule : PolicyRule) : Bool :=
  rule.protocol = .all ||
    (rule.protocol = .tcp && (portsIncludesSSH rule.ports || portRangeIncludesSSH rule.portRanges))

/-! ## The walk over the policies -/

/-- What the walk asks for: the peers of groups and of a resource, each with whether the target is
among them, the users of a group, and those that may use SSH without being named. -/
structure Lookup where
  peersFromGroups : List Bytes → List Bytes → List Peer × Bool
  peerFromResource : Resource → List Peer × Bool
  groupUsers : Bytes → Option (List Bytes)
  allowedUserIDs : List Bytes

/-- The source side of a rule. -/
def Lookup.sources (look : Lookup) (policy : Policy) (rule : PolicyRule) : List Peer × Bool :=
  if rule.sourceResource.isPeer then look.peerFromResource rule.sourceResource
  else look.peersFromGroups rule.sources policy.sourcePostureChecks

/-- The destination side of a rule, to which no posture checks apply. -/
def Lookup.destinations (look : Lookup) (rule : PolicyRule) : List Peer × Bool :=
  if rule.destinationResource.isPeer then look.peerFromResource rule.destinationResource
  else look.peersFromGroups rule.destinations []

/-- What the walk has collected: the users that may log in as each local user, and whether SSH is
on, beside the peers and rules. -/
structure ConnectionResources where
  acc : Accumulated := {}
  authorizedUsers : List (Bytes × List Bytes) := []
  sshEnabled : Bool := false

/-- `authorizedUsers[localUser][userID] = struct{}{}` for a list of users. -/
def authorize (users : List (Bytes × List Bytes)) (localUser : Bytes) (userIDs : List Bytes) :
    List (Bytes × List Bytes) :=
  set users localUser (insertAll ((get users localUser).getD []) userIDs)

variable (env : Env) (ord : GoMap.RangeOrder Bytes) (look : Lookup) (target : Peer)

/-- The users that an entry of `AuthorizedGroups` adds; no local users stand for all. -/
def authorizeGroup (users : List (Bytes × List Bytes)) (entry : Bytes × List Bytes) :
    List (Bytes × List Bytes) :=
  match look.groupUsers entry.1 with
  | none => users
  | some userIDs =>
    let localUsers := if entry.2 = [] then [wildcard] else entry.2
    localUsers.foldl (fun users localUser => authorize users localUser userIDs) users

/-- The users that a rule with SSH as its protocol authorizes. -/
def authorizeRule (rule : PolicyRule) (users : List (Bytes × List Bytes)) :
    List (Bytes × List Bytes) :=
  if rule.authorizedGroups ≠ [] then
    (GoMap.range ord rule.authorizedGroups).foldl (authorizeGroup look) users
  else if rule.authorizedUser ≠ [] then authorize users wildcard [rule.authorizedUser]
  else set users wildcard look.allowedUserIDs

/-- The calls of the generator for a rule: a bidirectional rule is generated in the other
direction first. -/
def generateRule (rule : PolicyRule) (sources destinations : List Peer)
    (inSources inDestinations : Bool) (acc : Accumulated) : Accumulated :=
  let acc :=
    if rule.bidirectional && inSources then
      acc.generateResources env target rule destinations .IN else acc
  let acc :=
    if rule.bidirectional && inDestinations then
      acc.generateResources env target rule sources .OUT else acc
  let acc := if inSources then acc.generateResources env target rule destinations .OUT else acc
  if inDestinations then acc.generateResources env target rule sources .IN else acc

/-- What a rule says about SSH on the target, of which it is a destination. -/
def authorizeSSH (rule : PolicyRule) (inDestinations : Bool) (res : ConnectionResources) :
    ConnectionResources :=
  if inDestinations && rule.protocol = .netbirdSSH then
    { res with
      sshEnabled := true
      authorizedUsers := authorizeRule ord look rule res.authorizedUsers }
  else if inDestinations && policyRuleImpliesLegacySSH rule && target.sshEnabled then
    { res with
      sshEnabled := true
      authorizedUsers := set res.authorizedUsers wildcard look.allowedUserIDs }
  else res

/-- The body of the loop over the enabled rules. -/
def ruleResources (policy : Policy) (res : ConnectionResources) (rule : PolicyRule) :
    ConnectionResources :=
  let src := look.sources policy rule
  let dst := look.destinations rule
  authorizeSSH ord look target rule dst.2
    { res with acc := generateRule env target rule src.1 dst.1 src.2 dst.2 res.acc }

/-- The loops over the policies and their rules. -/
def connectionResources (policies : List Policy) : ConnectionResources :=
  policies.foldl (fun res policy =>
    if policy.enabled = false then res
    else
      policy.rules.foldl (fun res rule =>
        if rule.enabled = false then res
        else ruleResources env ord look target policy res rule) res) {}

/-! ## The enabled rules -/

/-- The enabled rules of the enabled policies, in the order of the walk. -/
def activeRules (policies : List Policy) : List (Policy × PolicyRule) :=
  (policies.filter Policy.enabled).flatMap fun policy =>
    (policy.rules.filter PolicyRule.enabled).map fun rule => (policy, rule)

open List

theorem mem_activeRules {policies : List Policy} {policy : Policy} {rule : PolicyRule} :
    (policy, rule) ∈ activeRules policies ↔
      policy ∈ policies ∧ policy.enabled ∧ rule ∈ policy.rules ∧ rule.enabled := by
  simp only [activeRules, mem_flatMap, mem_filter, mem_map, Prod.mk.injEq]
  constructor
  · rintro ⟨p, ⟨hp, hen⟩, r, ⟨hr, hren⟩, rfl, rfl⟩
    exact ⟨hp, hen, hr, hren⟩
  · rintro ⟨hp, hen, hr, hren⟩
    exact ⟨policy, ⟨hp, hen⟩, rule, ⟨hr, hren⟩, rfl, rfl⟩

/-- A loop over rules that passes over the disabled ones. -/
theorem foldl_enabled {σ : Type*} (f : σ → PolicyRule → σ) (rules : List PolicyRule) (s : σ) :
    rules.foldl (fun s rule => if rule.enabled = false then s else f s rule) s =
      (rules.filter PolicyRule.enabled).foldl f s := by
  induction rules generalizing s with
  | nil => rfl
  | cons rule rules ih =>
    rw [foldl_cons, ih]
    cases h : rule.enabled <;> simp [h]

theorem foldl_policies {σ : Type*} (f : Policy → σ → PolicyRule → σ) (policies : List Policy)
    (s : σ) : policies.foldl (fun s policy => if policy.enabled = false then s
      else policy.rules.foldl (fun s rule => if rule.enabled = false then s else f policy s rule) s)
      s = (activeRules policies).foldl (fun s pr => f pr.1 s pr.2) s := by
  induction policies generalizing s with
  | nil => rfl
  | cons policy policies ih =>
    rw [foldl_cons, ih]
    cases h : policy.enabled with
    | false => simp [activeRules, h]
    | true => simp [activeRules, h, foldl_enabled, foldl_map]

end Management
