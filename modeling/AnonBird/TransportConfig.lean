/-
# The network configuration in anonymous mode

Model of the transport configuration and of the check of the network configuration in
`client/internal/anonymous/anonymous.go`, with what the sync handling of the engine
(`client/internal/engine.go`) does with a configuration that passed.  The check does not cover the
flow server, although the engine opens a client for its URL when flow logging is enabled.
-/
import AnonBird.Endpoint

open GoStrings GoText

namespace Anonymous

/-! ## The transport -/

/-- Relays over Tor. -/
def transportTorRelayOnly : Bytes := ascii "tor-relay-only"
/-- Datagrams over I2P. -/
def transportI2PDatagram : Bytes := ascii "i2p-datagram"
/-- Where Tor listens. -/
def defaultTorSOCKS5 : Bytes := ascii "127.0.0.1:9050"
/-- Where the bridge of I2P listens. -/
def defaultI2PSAM : Bytes := ascii "127.0.0.1:7656"
/-- The length of tunnels if none is given. -/
def defaultI2PTunnelLength : UInt8 := 1
/-- The number of tunnels if none is given. -/
def defaultI2PTunnelQuantity : UInt8 := 3
/-- How the daemon is run if nothing is said. -/
def defaultI2PDaemonMode : Bytes := ascii "auto"
/-- The daemon if none is named. -/
def defaultI2PDaemonPath : Bytes := ascii "i2pd"

/-- The settings of the anonymous transport. -/
structure TransportConfig where
  type : Bytes
  requireAnonymous : Bool
  torSOCKS5 : Bytes
  i2pSAM : Bytes
  i2pTunnelLength : UInt8
  i2pTunnelQuantity : UInt8
  i2pDestinationPublic : Bytes
  i2pDestinationPrivate : Bytes
  i2pDaemonMode : Bytes
  i2pDaemonPath : Bytes
  i2pDataDir : Bytes
  deriving DecidableEq

/-- A text that has a default. -/
def orElse (s default : Bytes) : Bytes := if s = [] then default else s

/-- The defaults of a transport type. -/
def withDefaults (c : TransportConfig) : TransportConfig :=
  if c.type = transportTorRelayOnly then { c with torSOCKS5 := orElse c.torSOCKS5 defaultTorSOCKS5 }
  else if c.type = transportI2PDatagram then
    { c with
      i2pSAM := orElse c.i2pSAM defaultI2PSAM
      i2pTunnelLength :=
        if c.i2pTunnelLength = 0 then defaultI2PTunnelLength else c.i2pTunnelLength
      i2pTunnelQuantity :=
        if c.i2pTunnelQuantity = 0 then defaultI2PTunnelQuantity else c.i2pTunnelQuantity
      i2pDaemonMode := orElse c.i2pDaemonMode defaultI2PDaemonMode
      i2pDaemonPath := orElse c.i2pDaemonPath defaultI2PDaemonPath }
  else c

variable (U : Unicode)

/-- The settings trimmed and with their defaults. -/
def normalizeTransport (c : TransportConfig) : TransportConfig :=
  withDefaults
    { type := toLower U (trimSpace (orElse c.type transportTorRelayOnly))
      requireAnonymous := true
      torSOCKS5 := trimSpace c.torSOCKS5
      i2pSAM := trimSpace c.i2pSAM
      i2pTunnelLength := c.i2pTunnelLength
      i2pTunnelQuantity := c.i2pTunnelQuantity
      i2pDestinationPublic := trimSpace c.i2pDestinationPublic
      i2pDestinationPrivate := trimSpace c.i2pDestinationPrivate
      i2pDaemonMode := toLower U (trimSpace c.i2pDaemonMode)
      i2pDaemonPath := trimSpace c.i2pDaemonPath
      i2pDataDir := trimSpace c.i2pDataDir }

/-- The reasons of a `Violation`. -/
inductive Violation where
  /-- `management returned empty network config` -/
  | emptyConfig
  /-- `%s endpoint is empty` -/
  | emptyEndpoint (serviceName : String)
  /-- `%s endpoint %q is not an anonymous .onion or .b32.i2p endpoint` -/
  | notAnonymous (serviceName : String) (endpoint : Bytes)
  /-- `STUN servers are enabled` -/
  | stuns
  /-- `TURN servers are enabled` -/
  | turns
  /-- `unsupported anonymous transport %q` -/
  | unsupportedTransport (type : Bytes)
  /-- `%s uses %s endpoint but anonymous transport is %s` -/
  | otherTransport (serviceName : Bytes) (endpointTransport : Option EndpointKind) (type : Bytes)
  deriving DecidableEq

/-- The kind of endpoint that a transport requires. -/
def expectedTransport (t : TransportConfig) : Option EndpointKind :=
  let t := normalizeTransport U t
  if t.type = transportTorRelayOnly then some .tor
  else if t.type = transportI2PDatagram then some .i2p
  else none

/-- An endpoint is of the network of the transport. -/
def validateEndpointTransport (serviceName : Bytes) (kind : Option EndpointKind)
    (t : TransportConfig) : Except Violation Unit :=
  match expectedTransport U t with
  | none => .error (.unsupportedTransport (normalizeTransport U t).type)
  | some expected =>
    if kind ≠ some expected then
      .error (.otherTransport serviceName kind (normalizeTransport U t).type)
    else .ok ()

/-! ## The network configuration -/

/-- Where flow events are sent. -/
structure FlowConfig where
  url : Bytes
  interval : Option ℕ
  enabled : Bool

/-- `mgmProto.NetbirdConfig`: hosts are given by their URI, the relay by its URLs. -/
structure NetbirdConfig where
  stuns : List Bytes
  turns : List Bytes
  signal : Option Bytes
  relay : Option (List Bytes)
  flow : Option FlowConfig

/-- An endpoint is given and anonymous. -/
def validateHostConfig (serviceName : String) (uri : Option Bytes) : Except Violation Bytes :=
  match uri with
  | none => .error (.emptyEndpoint serviceName)
  | some uri =>
    if endpointTransport U uri = none then .error (.notAnonymous serviceName uri) else .ok uri

/-- An endpoint is given and of the network of the transport. -/
def validateHostConfigForTransport (serviceName : String) (uri : Option Bytes)
    (t : TransportConfig) : Except Violation Unit :=
  match validateHostConfig U serviceName uri with
  | .error v => .error v
  | .ok uri =>
    validateEndpointTransport U (ascii serviceName ++ ascii " endpoint") (endpointTransport U uri) t

/-- The loop over the relay URLs. -/
def validateRelays (U : Unicode) (t : TransportConfig) : List Bytes → Except Violation Unit
  | [] => .ok ()
  | relay :: relays =>
    if endpointTransport U relay = none then .error (.notAnonymous "relay" relay)
    else
      match validateEndpointTransport U (ascii "relay endpoint " ++ relay)
          (endpointTransport U relay) t with
      | .error v => .error v
      | .ok _ => validateRelays U t relays

/-- All endpoints of a configuration are of the network. -/
def validateNetbirdConfigForTransport (cfg : Option NetbirdConfig)
    (t : TransportConfig) : Except Violation Unit :=
  match cfg with
  | none => .error .emptyConfig
  | some cfg =>
    match validateHostConfigForTransport U "signal" cfg.signal t with
    | .error v => .error v
    | .ok _ =>
      if cfg.stuns ≠ [] then .error .stuns
      else if cfg.turns ≠ [] then .error .turns
      -- the flow server is not looked at
      else validateRelays U t (cfg.relay.getD [])

/-! ## The sync handling -/

/-- `handleFlowUpdate`: the URL for which a flow client is kept, if there is one.  The
configuration is refused when it has no interval. -/
def handleFlowUpdate (flow : Option FlowConfig) : Option Bytes :=
  match flow with
  | none => none
  | some flow => if flow.interval = none then none else if flow.enabled then some flow.url else none

/-- The endpoints of a configuration that the engine goes on to use. -/
def usedEndpoints (cfg : NetbirdConfig) : List Bytes :=
  cfg.signal.toList ++ cfg.relay.getD [] ++ (handleFlowUpdate cfg.flow).toList

/-- Every endpoint in use is of the kind that the transport requires, and there is no STUN
or TURN server. -/
def FailClosed (cfg : NetbirdConfig) (t : TransportConfig) : Prop :=
  cfg.stuns = [] ∧ cfg.turns = [] ∧
    ∃ k, expectedTransport U t = some k ∧ ∀ e ∈ usedEndpoints cfg, endpointTransport U e = some k

/-! ## What the check guarantees -/

variable {U : Unicode} {t : TransportConfig}

theorem validateEndpointTransport_ok {serviceName : Bytes} {kind : Option EndpointKind}
    (h : validateEndpointTransport U serviceName kind t = .ok ()) :
    ∃ k, expectedTransport U t = some k ∧ kind = some k := by
  rw [validateEndpointTransport] at h
  split at h
  · simp at h
  next k hk =>
    split at h
    · simp at h
    next hkind =>
      exact ⟨k, hk, not_not.mp hkind⟩

theorem validateHostConfigForTransport_ok {serviceName : String} {uri : Option Bytes}
    (h : validateHostConfigForTransport U serviceName uri t = .ok ()) :
    ∃ e k, uri = some e ∧ expectedTransport U t = some k ∧ endpointTransport U e = some k := by
  rw [validateHostConfigForTransport] at h
  split at h
  · simp at h
  next e hhost =>
    obtain ⟨k, hk, hkind⟩ := validateEndpointTransport_ok h
    rw [validateHostConfig.eq_def] at hhost
    split at hhost
    · simp at hhost
    · split at hhost
      · simp at hhost
      · cases hhost
        exact ⟨_, k, rfl, hk, hkind⟩

theorem validateRelays_ok {k : EndpointKind} (hk : expectedTransport U t = some k)
    {relays : List Bytes} (h : validateRelays U t relays = .ok ()) :
    ∀ e ∈ relays, endpointTransport U e = some k := by
  induction relays with
  | nil => simp
  | cons relay relays ih =>
    rw [validateRelays] at h
    split at h
    · simp at h
    · split at h
      · simp at h
      next hrelay =>
        obtain ⟨k', hk', hkind⟩ := validateEndpointTransport_ok hrelay
        obtain rfl : k = k' := Option.some.inj (hk.symm.trans hk')
        intro e he
        rcases List.mem_cons.mp he with rfl | he
        · exact hkind
        · exact ih h e he

/-- What the check covers: everything but the flow server. -/
theorem validateNetbirdConfigForTransport_ok {cfg : Option NetbirdConfig}
    (h : validateNetbirdConfigForTransport U cfg t = .ok ()) :
    ∃ c k, cfg = some c ∧ c.stuns = [] ∧ c.turns = [] ∧ expectedTransport U t = some k ∧
      ∀ e ∈ c.signal.toList ++ c.relay.getD [], endpointTransport U e = some k := by
  rw [validateNetbirdConfigForTransport.eq_def] at h
  cases cfg with
  | none => simp at h
  | some c =>
    dsimp only at h
    split at h
    · simp at h
    next hsignal =>
      obtain ⟨e, k, huri, hk, hkind⟩ := validateHostConfigForTransport_ok hsignal
      split at h
      · simp at h
      next hstuns =>
        split at h
        · simp at h
        next hturns =>
          refine ⟨c, k, rfl, not_not.mp hstuns, not_not.mp hturns, hk, ?_⟩
          intro e' he'
          rw [huri] at he'
          rcases List.mem_append.mp he' with he' | he'
          · rw [Option.toList_some, List.mem_singleton] at he'
            rw [he']
            exact hkind
          · exact validateRelays_ok hk h e' he'

/-- **Fail closed.** A configuration that passed is safe exactly when its flow server, if the engine
is going to use it, is of the required kind. -/
theorem failClosed_iff_flow {U : Unicode} {cfg : Option NetbirdConfig} {t : TransportConfig}
    (h : validateNetbirdConfigForTransport U cfg t = .ok ()) :
    ∃ c, cfg = some c ∧ (FailClosed U c t ↔
        ∀ flow, c.flow = some flow → flow.enabled = true → flow.interval ≠ none →
          endpointTransport U flow.url = expectedTransport U t) := by
  obtain ⟨c, k, hcfg, hstuns, hturns, hk, hchecked⟩ := validateNetbirdConfigForTransport_ok h
  refine ⟨c, hcfg, ?_⟩
  constructor
  · rintro ⟨_, _, k', hk', hused⟩ flow hflow henabled hinterval
    rw [hk']
    apply hused
    have hurl : handleFlowUpdate c.flow = some flow.url := by
      rw [hflow, handleFlowUpdate, if_neg hinterval, if_pos henabled]
    rw [usedEndpoints, hurl]
    exact List.mem_append_right _ (List.mem_singleton_self _)
  · intro hflow
    refine ⟨hstuns, hturns, k, hk, ?_⟩
    intro e he
    rcases List.mem_append.mp he with he | he
    · exact hchecked e he
    · -- the flow server is in use only when it is enabled and has an interval
      rw [Option.mem_toList, handleFlowUpdate.eq_def] at he
      split at he
      · simp at he
      next flow hsome =>
        split at he
        · simp at he
        next hinterval =>
          split at he
          next henabled =>
            rw [← Option.some.inj he, hflow flow hsome henabled hinterval]
            exact hk
          · simp at he

/-- A Tor-only configuration with one Tor signal server. -/
def torConfig (flow : Option FlowConfig) : NetbirdConfig :=
  ⟨[], [], some (ascii "signal.onion:443"), none, flow⟩

/-- The settings of a fresh configuration. -/
def defaultTransport : TransportConfig :=
  ⟨transportTorRelayOnly, true, defaultTorSOCKS5, [], 0, 0, [], [], [], [], []⟩

/-- An enabled flow server in the clearnet passes the check and is used. -/
theorem clearnet_flow_accepted : validateNetbirdConfigForTransport asciiOnly
        (some (torConfig (some ⟨ascii "https://flow.example.com", some 60, true⟩)))
        defaultTransport = .ok () ∧ ascii "https://flow.example.com" ∈
        usedEndpoints (torConfig (some ⟨ascii "https://flow.example.com", some 60, true⟩)) ∧
      endpointTransport asciiOnly (ascii "https://flow.example.com") = none := by
  decide +kernel

/-- Without a flow server nothing is missed. -/
theorem failClosed_without_flow : FailClosed asciiOnly (torConfig none) defaultTransport := by
  obtain ⟨c, hc, hiff⟩ := failClosed_iff_flow
    (show validateNetbirdConfigForTransport asciiOnly (some (torConfig none)) defaultTransport =
      .ok () by decide +kernel)
  cases hc
  exact hiff.mpr (by rintro flow ⟨⟩)

end Anonymous
