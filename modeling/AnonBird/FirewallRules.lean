/-
# Firewall rules from policy rules

How one policy rule becomes firewall rules (`firewall_rule.go`, and the generators of
`account.go` and `networkmap_components.go`).  Both generators skip a rule whose key, a
concatenation of texts, they have seen before.
-/
import AnonBird.Account

open GoStrings NetIP

namespace Management

/-! ## Rules between peers -/

/-- `FirewallRuleDirectionIN` and `FirewallRuleDirectionOUT`. -/
inductive Direction where
  | IN
  | OUT
  deriving DecidableEq, Repr

/-- `strconv.Itoa` of the direction. -/
def Direction.itoa : Direction → Bytes
  | IN => ascii "0"
  | OUT => ascii "1"

/-- `FirewallRule`; its `PolicyID` is the id of the policy rule. -/
structure FirewallRule where
  policyID : Bytes
  peerIP : Bytes
  direction : Direction
  action : Action
  protocol : Protocol
  port : Bytes := []
  portRange : PortRange := {}
  deriving DecidableEq, Repr

/-- The port of the built-in SSH server, as text. -/
def nativeSSHPortString : Bytes := ascii "22022"
/-- The port of the built-in SSH server. -/
def nativeSSHPortNumber : UInt16 := 22022
/-- The port of SSH, as text. -/
def defaultSSHPortString : Bytes := ascii "22"
/-- The port of SSH. -/
def defaultSSHPortNumber : UInt16 := 22
/-- The first version with port ranges. -/
def firewallRuleMinPortRangesVer : Bytes := ascii "0.48.0"
/-- The first version with the built-in SSH server. -/
def firewallRuleMinNativeSSHVer : Bytes := ascii "0.60.0"

/-- What the firewall of a peer understands. -/
structure SupportedFeatures where
  nativeSSH : Bool
  portRanges : Bool
  deriving DecidableEq, Repr

variable (env : Env)

/-- The features of a version; a development build has all. -/
def peerSupportedFirewallFeatures (peerVer : Bytes) : SupportedFeatures :=
  if GoText.contains peerVer (ascii "dev") then ⟨true, true⟩
  else
    let nativeSSH := env.meetsMinVersion firewallRuleMinNativeSSHVer peerVer
    if nativeSSH then ⟨true, true⟩
    else ⟨false, env.meetsMinVersion firewallRuleMinPortRangesVer peerVer⟩

/-- A rule is for a port, alone or in its range. -/
def isPortInRule (portString : Bytes) (portInt : UInt16) (rule : FirewallRule) : Bool :=
  rule.port = portString || (rule.portRange.start ≤ portInt && portInt ≤ rule.portRange.stop)

/-- `addNativeSSHRule`: the loop ends at the first rule that already has the native port. -/
def addNativeSSHRule (base : FirewallRule) (expanded : List FirewallRule) : List FirewallRule :=
  if expanded.any (isPortInRule nativeSSHPortString nativeSSHPortNumber) then expanded
  else if expanded.any (isPortInRule defaultSSHPortString defaultSSHPortNumber) then
    expanded ++ [{ base with port := nativeSSHPortString }]
  else expanded

/-- A rule may have to open the port of the SSH server. -/
def shouldCheckRulesForNativeSSH (supportsNative : Bool) (rule : PolicyRule) (peer : Peer) :
    Bool :=
  supportsNative && peer.sshEnabled && peer.serverSSHAllowed && rule.protocol = .tcp

/-- One turn of the loop over the port ranges in `expandPortsAndRanges`. -/
def expandPortRange (features : SupportedFeatures) (base : FirewallRule) (portRange : PortRange) :
    Option FirewallRule :=
  if features.portRanges then some { base with portRange := portRange }
  else if portRange.start ≠ portRange.stop then none
  else some { base with port := formatUint portRange.start.toNat }

/-- `expandPortsAndRanges`: single ports are preferred to ranges. -/
def expandPortsAndRanges (base : FirewallRule) (rule : PolicyRule) (peer : Peer) :
    List FirewallRule :=
  let features := peerSupportedFirewallFeatures env peer.wtVersion
  let ports := rule.ports.map fun port => { base with port := port }
  let ranges :=
    if rule.ports ≠ [] then [] else rule.portRanges.filterMap (expandPortRange features base)
  if shouldCheckRulesForNativeSSH features.nativeSSH rule peer || rule.protocol = .netbirdSSH then
    addNativeSSHRule base (ports ++ ranges)
  else ports ++ ranges

/-- The rules for one address: the base rule itself if the policy rule names no ports. -/
def rulesForAddress (base : FirewallRule) (rule : PolicyRule) (target : Peer) : List FirewallRule :=
  if rule.ports = [] ∧ rule.portRanges = [] then [base]
  else expandPortsAndRanges env base rule target

variable (target : Peer) (rule : PolicyRule) (direction : Direction)

/-- What a policy rule says of the protocol between peers: SSH travels over TCP. -/
def PolicyRule.peerProtocol : Protocol :=
  if rule.protocol = .netbirdSSH then .tcp else rule.protocol

/-- The firewall rule for an address, before its ports. -/
def baseRule (peerIP : Bytes) (direction : Direction) : FirewallRule where
  policyID := rule.id
  peerIP := peerIP
  direction := direction
  action := rule.action
  protocol := rule.peerProtocol

/-- The key under which the generator remembers a rule. -/
def ruleKey (peerIP : Bytes) (direction : Direction) : Bytes :=
  rule.id ++ peerIP ++ direction.itoa ++ rule.peerProtocol.text ++ rule.action.text ++
    [44].intercalate rule.ports

/-- What `connResourcesGenerator` accumulates. -/
structure Accumulated where
  rulesExists : List Bytes := []
  peersExists : List Bytes := []
  rules : List FirewallRule := []
  peers : List Peer := []
  deriving DecidableEq, Repr

/-- A rule for one address, unless its key has been seen. -/
def Accumulated.addRule (acc : Accumulated) (peerIP : Bytes) : Accumulated :=
  if ruleKey rule peerIP direction ∈ acc.rulesExists then acc
  else
    { acc with
      rulesExists := ruleKey rule peerIP direction :: acc.rulesExists
      rules := acc.rules ++ rulesForAddress env (baseRule rule peerIP direction) rule target }

/-- The rule for the IPv6 address of a peer. -/
def Accumulated.appendIPv6FirewallRule (acc : Accumulated) (peer : Peer) : Accumulated :=
  if peer.ipv6 = none ∨ target.supportsIPv6 = false ∨ target.ipv6 = none then acc
  else acc.addRule env target rule direction (addrString peer.ipv6)

/-- `peersExists` keeps every peer once. -/
def Accumulated.addPeer (acc : Accumulated) (peer : Peer) : Accumulated :=
  if peer.id ∈ acc.peersExists then acc
  else { acc with peers := acc.peers ++ [peer], peersExists := peer.id :: acc.peersExists }

/-- One turn of the loop in `connResourcesGenerator`.  A peer whose IPv4 rule has been seen
gets no IPv6 rule either. -/
def Accumulated.generate (acc : Accumulated) (peer : Peer) : Accumulated :=
  let acc := acc.addPeer peer
  if ruleKey rule (addrString peer.ip) direction ∈ acc.rulesExists then acc
  else
    (acc.addRule env target rule direction (addrString peer.ip)).appendIPv6FirewallRule env target
      rule direction peer

/-- The function that `connResourcesGenerator` returns first. -/
def Accumulated.generateResources (peers : List Peer) (direction : Direction) (acc : Accumulated) :
    Accumulated :=
  peers.foldl (Accumulated.generate env target rule direction) acc

/-! ## Rules for routed networks -/

/-- A rule of the firewall of a routing peer. -/
structure RouteFirewallRule where
  policyID : Bytes := []
  routeID : Bytes
  sourceRanges : List Bytes
  action : Action
  destination : Bytes
  protocol : Protocol
  port : UInt16 := 0
  portRange : PortRange := {}
  domains : Option (List Bytes)
  isDynamic : Bool
  deriving DecidableEq, Repr

/-- `Is6` of the address of a network. -/
def isV6 : Option Prefix → Bool
  | some ⟨.v6 _ _, _⟩ => true
  | _ => false

/-- `Is4` of the address of a network. -/
def isV4 : Option Prefix → Bool
  | some ⟨.v4 _, _⟩ => true
  | _ => false

/-- `Bits() == 0`. -/
def zeroBits : Option Prefix → Bool
  | some p => p.bits = 0
  | none => false

/-- A route to domains. -/
def Route.isDynamic (r : Route) : Bool := r.networkType = .domain

/-- A peer's address as a source range. -/
def Peer.sourceV4 (p : Peer) : Bytes := addrString p.ip ++ ascii "/32"

/-- A peer's IPv6 address as a source range. -/
def Peer.sourceV6 (p : Peer) : Bytes := addrString p.ipv6 ++ ascii "/128"

/-- The addresses of peers as source ranges, by family. -/
def splitPeerSourcesByFamily (peers : List Peer) : List Bytes × List Bytes :=
  (peers.map Peer.sourceV4, (peers.filter fun p => p.ipv6.isSome).map Peer.sourceV6)

/-- What the id of a rule is computed from. -/
def generateRuleIDBase (base : RouteFirewallRule) : Bytes :=
  rule.id ++ [44].intercalate base.sourceRanges ++ Direction.IN.itoa ++ base.protocol.text ++
    base.action.text

/-- `generateRulesWithPortRanges`, called for a rule without single ports. -/
def generateRulesWithPortRanges (base : RouteFirewallRule) (rule : PolicyRule)
    (rulesExists : List Bytes) : List RouteFirewallRule × List Bytes :=
  let ruleIDBase := generateRuleIDBase rule base
  if rule.portRanges = [] then
    if ruleIDBase ∈ rulesExists then ([], rulesExists) else ([base], ruleIDBase :: rulesExists)
  else
    rule.portRanges.foldl (fun (rules, seen) portRange =>
      let ruleID := ruleIDBase ++ formatUint portRange.start.toNat ++ ascii "-" ++
        formatUint portRange.stop.toNat
      if ruleID ∈ seen then (rules, seen)
      else (rules ++ [{ base with portRange := portRange }], ruleID :: seen)) ([], rulesExists)

/-- `generateRulesWithPorts`: a port that is no 16-bit number gives no rule. -/
def generateRulesWithPorts (base : RouteFirewallRule) (rule : PolicyRule)
    (rulesExists : List Bytes) : List RouteFirewallRule × List Bytes :=
  let ruleIDBase := generateRuleIDBase rule base
  rule.ports.foldl (fun (rules, seen) port =>
    if ruleIDBase ++ port ∈ seen then (rules, seen)
    else
      match parseUint port 16 with
      | none => (rules, (ruleIDBase ++ port) :: seen)
      | some p => (rules ++ [{ base with port := UInt16.ofNat p }], (ruleIDBase ++ port) :: seen))
    ([], rulesExists)

/-- The two generators, by whether the rule names single ports. -/
def generateRulesForFamily (base : RouteFirewallRule) (rule : PolicyRule)
    (rulesExists : List Bytes) : List RouteFirewallRule × List Bytes :=
  if rule.ports = [] then generateRulesWithPortRanges base rule rulesExists
  else generateRulesWithPorts base rule rulesExists

/-- The default route in IPv4, for which a rule has an IPv6 twin. -/
def Route.isDefaultV4 (r : Route) : Bool := !isV6 r.network && zeroBits r.network

/-- The rules that a policy rule gives for a route, by family. -/
def generateRouteFirewallRules (route : Route) (rule : PolicyRule) (peers : List Peer)
    (includeIPv6 : Bool) : List RouteFirewallRule :=
  let (v4Sources, v6Sources) := splitPeerSourcesByFamily peers
  if isV6 route.network && !includeIPv6 then []
  else
    let base : RouteFirewallRule :=
      { policyID := rule.policyID
        routeID := route.id
        sourceRanges := if isV6 route.network then v6Sources else v4Sources
        action := rule.action
        destination := prefixString route.network
        protocol := rule.protocol
        domains := route.domains
        isDynamic := route.isDynamic }
    let (rules, seen) := generateRulesForFamily base rule []
    if includeIPv6 && (route.isDynamic || route.isDefaultV4) && v6Sources ≠ [] then
      let v6Rule : RouteFirewallRule :=
        if route.isDefaultV4 then
          { base with
            sourceRanges := v6Sources
            destination := ascii "::/0"
            routeID := route.id ++ ascii "-v6-default" }
        else { base with sourceRanges := v6Sources }
      rules ++ (generateRulesForFamily v6Rule rule seen).1
    else rules

end Management
