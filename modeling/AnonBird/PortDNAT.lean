/-
# Port translation and the pooled decoder

Model of the packet path of `client/firewall/uspfilter`: `filterInbound`, `filterOutbound` and the
port translation of `nat.go`, over the trackers and the access rules.

The port that an inbound packet was sent to goes from `applyPortRule` to `trackInbound` through the
field `dnatOrigPort` of a pooled decoder, and only `trackInbound` clears the field (`isolated_iff`).
-/
import AnonBird.DatagramTracker
import AnonBird.PeerACL
import AnonBird.RouteACL

open NetIP GoStrings Conntrack List Option

namespace Uspfilter

open UDPTracker

/-! ## Packets -/

/-- A packet that the decoder reads, with its layers and the fields that the filter uses. -/
structure Packet where
  d : Decoded
  srcIP : Addr
  dstIP : Addr
  flags : UInt8 := 0
  icmp4Id : UInt16 := 0
  icmp6Payload : Bytes := []
  size : ℤ

/-- What `isValidPacket` makes of the bytes that arrive. -/
inductive Arrival where
  | invalid
  | fragment
  | packet (p : Packet)

namespace Packet

variable (p : Packet)

/-- The source port of a packet. -/
def srcPort : UInt16 := (getPortsFromPacket p.d).1
/-- The destination port of a packet. -/
def dstPort : UInt16 := (getPortsFromPacket p.d).2

/-- The four-tuple of a packet. -/
def key : ConnKey := ⟨some p.srcIP, some p.dstIP, p.srcPort, p.dstPort⟩

/-- `rewriteTCPPort` and `rewriteUDPPort` for the destination port, with the packet decoded again.
-/
def rewriteDstPort (port : UInt16) : Packet :=
  match p.d.transport with
  | .tcp => { p with d := { p.d with tcpDstPort := port } }
  | .udp => { p with d := { p.d with udpDstPort := port } }
  | _ => p

/-- The same for the source port. -/
def rewriteSrcPort (port : UInt16) : Packet :=
  match p.d.transport with
  | .tcp => { p with d := { p.d with tcpSrcPort := port } }
  | .udp => { p with d := { p.d with udpSrcPort := port } }
  | _ => p

/-- The identifier and the type that the ICMP tracker gets (`icmpv6EchoFields` for ICMPv6). -/
def icmpFields : UInt16 × UInt8 :=
  match p.d.transport with
  | .icmpv6 =>
    let id := match p.icmp6Payload with
      | b₀ :: b₁ :: _ => b₀.toUInt16 <<< 8 ||| b₁.toUInt16
      | _ => 0
    (id, if p.d.icmp6Type = 128 then 8 else if p.d.icmp6Type = 129 then 0 else p.d.icmp6Type)
  | _ => (p.icmp4Id, p.d.icmp4Type)

/-- The key of the ICMP tracker. -/
def icmpKey : ICMPConnKey := ⟨some p.srcIP, some p.dstIP, p.icmpFields.1⟩

end Packet

/-! ## Configuration -/

/-- Packets for a port of an address go to another port. -/
structure PortDNATRule where
  protocol : Layer
  origPort : UInt16
  targetPort : UInt16
  targetIP : Addr
  deriving DecidableEq

/-- A function that takes the packets for an address and a port. -/
structure PacketHook where
  ip : Addr
  port : UInt16
  fn : Packet → Bool

/-- What the filter reads while it handles a packet: the settings and tables of the `Manager`, clock
readings and orders of iteration. -/
structure Env where
  stateful : Bool := true
  netstack : Bool := false
  localForwarding : Bool := false
  routingEnabled : Bool := false
  nativeRouter : Bool := false
  forwarder : Bool := false
  isLocalIP : Addr → Bool
  wgIP : Addr
  wgIPv6 : Option Addr := none
  netstackServices : List (Layer × UInt16) := []
  portDNATEnabled : Bool := false
  portDNATRules : List PortDNATRule := []
  dnatEnabled : Bool := false
  dnatForward : List (Addr × Addr) := []
  dnatReverse : List (Addr × Addr) := []
  peerRules : PeerRules := {}
  routeRules : RouteRules := {}
  udpHookOut : Option PacketHook := none
  tcpHookOut : Option PacketHook := none
  now : ℕ → ℤ
  ruleOrder : ℕ → GoMap.RangeOrder ℕ
  connOrder : GoMap.RangeOrder ConnKey
  icmpOrder : GoMap.RangeOrder ICMPConnKey

/-- The trackers, and the field of the decoder that outlives a packet. -/
structure FilterState where
  tcpTracker : TCPTracker
  udpTracker : UDPTracker
  icmpTracker : ICMPTracker
  dnatOrigPort : UInt16 := 0

/-- How the filter lets go of an inbound packet; `drop` and `forward` are its `true`. -/
inductive Verdict where
  | pass
  | drop
  | forward
  deriving DecidableEq, Repr

/-! ## Translation -/

/-- `applyPortRule`, up to the rewriting. The source that UDP hands over is the zero `Addr`, `none`.
-/
def applyPortRule (srcIP : Option Addr) (dstIP : Addr) (port : UInt16) (protocol : Layer) :
    List PortDNATRule → Option PortDNATRule
  | [] => none
  | rule :: rules =>
    if rule.protocol ≠ protocol || rule.targetIP.cmp dstIP ≠ .eq then
      applyPortRule srcIP dstIP port protocol rules
    else if rule.targetPort = port && (srcIP.any fun ip => rule.targetIP.cmp ip = .eq) then none
    else if rule.origPort ≠ port then applyPortRule srcIP dstIP port protocol rules
    else some rule

/-- The port rule that applies to a packet. -/
def translateInboundPortDNAT (env : Env) (p : Packet) : Option PortDNATRule :=
  if !env.portDNATEnabled then none
  else
    match p.d.transport with
    | .tcp => applyPortRule (some p.srcIP) p.dstIP p.d.tcpDstPort .tcp env.portDNATRules
    | .udp => applyPortRule none p.dstIP p.d.udpDstPort .udp env.portDNATRules
    | _ => none

/-- `rewritePacketIP` accepts addresses of the family of the packet only. -/
def sameFamily (network : Layer) : Addr → Bool
  | .v4 _ => network = .ipv4
  | .v6 _ _ => network = .ipv6

/-- The source of a reply gets its original address back. -/
def translateInboundReverse (env : Env) (p : Packet) : Packet :=
  if !env.dnatEnabled then p
  else
    match get env.dnatReverse p.srcIP with
    | none => p
    | some originalIP =>
      if sameFamily p.d.network originalIP then { p with srcIP := originalIP } else p

/-- The destination of a packet is mapped. -/
def translateOutboundDNAT (env : Env) (p : Packet) : Packet :=
  if !env.dnatEnabled then p
  else
    match get env.dnatForward p.dstIP with
    | none => p
    | some translatedIP =>
      if sameFamily p.d.network translatedIP then { p with dstIP := translatedIP } else p

/-! ## Inbound packets -/

namespace FilterState

variable (env : Env) (s : FilterState)

/-- `trackInbound`; it clears the port of the decoder. -/
def trackInbound (p : Packet) : FilterState :=
  let s := match p.d.transport with
    | .udp =>
      { s with
        udpTracker := UDPTracker.trackInbound s.udpTracker (env.now 2) env.connOrder p.key p.size
          s.dnatOrigPort }
    | .tcp =>
      { s with
        tcpTracker := s.tcpTracker.trackInbound (env.now 2) env.connOrder p.key p.flags p.size
          s.dnatOrigPort }
    | .icmpv4 | .icmpv6 =>
      { s with
        icmpTracker := ICMPTracker.trackInbound s.icmpTracker (env.now 2) env.icmpOrder p.icmpKey
          p.icmpFields.2 p.size }
    | _ => s
  { s with dnatOrigPort := 0 }

variable (p : Packet)

/-- A packet belongs to a tracked connection. -/
def isValidTrackedConnection : FilterState × Bool :=
  match p.d.transport with
  | .tcp =>
    let r := s.tcpTracker.isValidInbound (env.now 0) p.key p.flags p.size
    ({ s with tcpTracker := r.1 }, r.2)
  | .udp =>
    let r := isValidInbound s.udpTracker (env.now 0) (env.now 1) p.key p.size
    ({ s with udpTracker := r.1 }, r.2)
  | .icmpv4 =>
    let r := ICMPTracker.isValidInbound s.icmpTracker (env.now 0) (env.now 1) p.icmpKey
      p.d.icmp4Type p.size
    ({ s with icmpTracker := r.1 }, r.2)
  | .icmpv6 =>
    let r := ICMPTracker.isValidInbound s.icmpTracker (env.now 0) (env.now 1) p.icmpKey
      p.d.icmp6Type p.size
    ({ s with icmpTracker := r.1 }, r.2)
  | _ => (s, false)

/-- A service of the userspace stack listens on the port. -/
def hasMatchingNetstackService : Bool :=
  match p.d.transport with
  | .tcp | .udp => env.netstackServices.contains (p.d.transport, p.dstPort)
  | _ => false

/-- A packet for the host goes through the forwarder. -/
def shouldForward : Bool :=
  if !env.localForwarding then false
  else if env.netstack then !hasMatchingNetstackService env p
  else p.dstIP ≠ env.wgIP && env.wgIPv6.all fun ip => p.dstIP ≠ ip

/-- `handleForwardedLocalTraffic`, and what becomes of a routed packet that may pass. -/
def forwardVerdict : Verdict := if env.forwarder then .forward else .drop

/-- A packet for the host: the peer rules, then the forwarder. -/
def handleLocalTraffic : Verdict × FilterState :=
  if (env.peerRules.peerACLsBlock env.ruleOrder p.srcIP p.d).2 then (.drop, s)
  else if shouldForward env p then (forwardVerdict env, s)
  else (.pass, s.trackInbound env p)

/-- A packet for a network behind the host: the route rules. -/
def handleRoutedTraffic : Verdict × FilterState :=
  if !env.routingEnabled then (.drop, s)
  else if env.nativeRouter then (.pass, s.trackInbound env p)
  else if !(env.routeRules.routeACLsPass p.srcIP p.dstIP p.d.transport p.srcPort p.dstPort).2 then
    (.drop, s)
  else (forwardVerdict env, s)

/-- `filterInbound` after the port translation. -/
def filterDecoded : Verdict × FilterState :=
  let p := translateInboundReverse env p
  let tracked := s.isValidTrackedConnection env p
  if env.stateful && tracked.2 then (.pass, tracked.1)
  else if env.isLocalIP p.dstIP then s.handleLocalTraffic env p
  else s.handleRoutedTraffic env p

/-- What becomes of an arriving packet. -/
def filterInbound (a : Arrival) : Verdict × FilterState :=
  match a with
  | .invalid => (.drop, s)
  | .fragment => (.pass, s)
  | .packet p =>
    if p.d.network ≠ .ipv4 && p.d.network ≠ .ipv6 then (.drop, s)
    else
      match translateInboundPortDNAT env p with
      | some rule =>
        { s with dnatOrigPort := rule.origPort }.filterDecoded env
          (p.rewriteDstPort rule.targetPort)
      | none => s.filterDecoded env p

/-! ## Outbound packets -/

/-- A hook takes the packet. -/
def hookMatches (h : Option PacketHook) (dstIP : Addr) (dport : UInt16) (p : Packet) : Bool :=
  match h with
  | none => false
  | some h => if h.ip = dstIP && h.port = dport then h.fn p else false

/-- `trackOutbound`, up to the rewriting: the port that the source port is rewritten to, and 0 where
it stays. -/
def trackOutbound (p : Packet) : FilterState × UInt16 :=
  match p.d.transport with
  | .udp =>
    let r := UDPTracker.trackOutbound s.udpTracker (env.now 0) env.connOrder p.key p.size
    ({ s with udpTracker := r.1 }, r.2)
  | .tcp =>
    let r := s.tcpTracker.trackOutbound (env.now 0) env.connOrder p.key p.flags p.size
    ({ s with tcpTracker := r.1 }, r.2)
  | .icmpv4 | .icmpv6 =>
    ({ s with
        icmpTracker := ICMPTracker.trackOutbound s.icmpTracker (env.now 0) env.icmpOrder p.icmpKey
          p.icmpFields.2 p.size }, 0)
  | _ => (s, 0)

/-- A hook takes the packet. -/
def hooksDrop : Bool :=
  match p.d.transport with
  | .udp => hookMatches env.udpHookOut p.dstIP p.dstPort p
  | .tcp => hookMatches env.tcpHookOut p.dstIP p.dstPort p
  | _ => false

/-- `filterOutbound`: the packet that leaves, unless a hook takes it. -/
def filterOutbound (a : Arrival) : Option Arrival × FilterState :=
  match a with
  | .invalid => (some .invalid, s)
  | .fragment => (some .fragment, s)
  | .packet p =>
    if p.d.network ≠ .ipv4 && p.d.network ≠ .ipv6 then (some (.packet p), s)
    else if hooksDrop env p then (none, s)
    else
      let tracked := s.trackOutbound env p
      let p := if tracked.2 = 0 then p else p.rewriteSrcPort tracked.2
      (some (.packet (translateOutboundDNAT env p)), tracked.1)

end FilterState

/-! ## Runs -/

/-- What happens to the filter: a packet of either direction, or a cleanup of a tracker. -/
inductive FilterEvent where
  | inbound (env : Env) (a : Arrival)
  | outbound (env : Env) (a : Arrival)
  | tcpCleanup (now : ConnKey → ℤ)
  | udpCleanup (now : ConnKey → ℤ)
  | icmpCleanup (now : ICMPConnKey → ℤ)

namespace FilterState

/-- The state after an event. -/
def step (s : FilterState) : FilterEvent → FilterState
  | .inbound env a => (s.filterInbound env a).2
  | .outbound env a => (s.filterOutbound env a).2
  | .tcpCleanup now => { s with tcpTracker := s.tcpTracker.cleanup now }
  | .udpCleanup now => { s with udpTracker := s.udpTracker.cleanup now }
  | .icmpCleanup now => { s with icmpTracker := s.icmpTracker.cleanup now }

/-- The state after a run; all its packets are handled with one decoder. -/
def run (s : FilterState) (events : List FilterEvent) : FilterState := events.foldl step s

theorem run_concat (s : FilterState) (events : List FilterEvent) (e : FilterEvent) :
    s.run (events ++ [e]) = (s.run events).step e := by
  rw [run, run, foldl_concat]

end FilterState

/-- A flow that the trackers keep a port for. -/
inductive Flow where
  | tcp (key : ConnKey)
  | udp (key : ConnKey)
  deriving DecidableEq, Repr

/-- The port recorded for a flow. -/
def FilterState.origPort (s : FilterState) : Flow → Option UInt32
  | .tcp key => s.tcpTracker.origPort key
  | .udp key => s.udpTracker.origPort key

/-- The rule that an event translates its packet by. -/
def FilterEvent.translatedBy : FilterEvent → Option PortDNATRule
  | .inbound env (.packet p) =>
    if p.d.network ≠ .ipv4 && p.d.network ≠ .ipv6 then none else translateInboundPortDNAT env p
  | _ => none

/-- **The port to record** for a flow that the packet opens: the destination port it had on arrival
if it was translated, and 0 otherwise. -/
def FilterEvent.portToRecord (e : FilterEvent) : UInt16 :=
  match e with
  | .inbound _ (.packet p) => if e.translatedBy.isSome then p.dstPort else 0
  | _ => 0

namespace FilterState

/-- The packet, as translated, that `handleLocalTraffic` or `handleRoutedTraffic` hands to
`trackInbound`. -/
def tracksDecoded (env : Env) (s : FilterState) (p : Packet) : Option Packet :=
  let p := translateInboundReverse env p
  if env.stateful && (s.isValidTrackedConnection env p).2 then none
  else if env.isLocalIP p.dstIP then
    if (env.peerRules.peerACLsBlock env.ruleOrder p.srcIP p.d).2 || shouldForward env p then none
    else some p
  else if env.routingEnabled && env.nativeRouter then some p
  else none

/-- The environment and the packet with which an event reaches `trackInbound`. -/
def tracksInbound (s : FilterState) : FilterEvent → Option (Env × Packet)
  | .inbound env (.packet p) =>
    if p.d.network ≠ .ipv4 && p.d.network ≠ .ipv6 then none
    else
      let p := match translateInboundPortDNAT env p with
        | some rule => p.rewriteDstPort rule.targetPort
        | none => p
      (s.tracksDecoded env p).map fun p => (env, p)
  | _ => none

/-- The flow that an inbound packet opens: it reaches `trackInbound`, and its tracker makes an
entry. -/
def opens (s : FilterState) (e : FilterEvent) : Option Flow :=
  match s.tracksInbound e with
  | none => none
  | some (_, p) =>
    match p.d.transport with
    | .tcp =>
      if hasFlag p.flags tcpSyn && isValidFlagCombination p.flags &&
          !s.tcpTracker.tracked p.key p.flags then some (.tcp p.key) else none
    | .udp => if s.udpTracker.origPort p.key = none then some (.udp p.key) else none
    | _ => none


end FilterState

/-! ## What a packet does to the decoder -/

/-- The port that the decoder holds once an event has translated its packet. -/
def FilterState.portAfterTranslation (s : FilterState) (e : FilterEvent) : UInt16 :=
  match e.translatedBy with
  | some rule => rule.origPort
  | none => s.dnatOrigPort

variable {s : FilterState} {e : FilterEvent} {flow : Flow}

namespace FilterState

variable {s : FilterState} (env : Env)

theorem filterDecoded_eq (s : FilterState) (p : Packet) : (s.filterDecoded env p).2 =
      match s.tracksDecoded env p with
      | some p => s.trackInbound env p
      | none =>
        if env.stateful && (s.isValidTrackedConnection env (translateInboundReverse env p)).2 then
          (s.isValidTrackedConnection env (translateInboundReverse env p)).1 else s := by
  unfold filterDecoded tracksDecoded handleLocalTraffic handleRoutedTraffic
  generalize translateInboundReverse env p = p
  dsimp only
  cases (env.stateful && (s.isValidTrackedConnection env p).2) with
  | true => rfl
  | false =>
    cases env.isLocalIP p.dstIP with
    | true =>
      cases (env.peerRules.peerACLsBlock env.ruleOrder p.srcIP p.d).2 with
      | true => rfl
      | false => cases shouldForward env p <;> rfl
    | false =>
      cases env.routingEnabled with
      | false => rfl
      | true =>
        cases env.nativeRouter with
        | true => rfl
        | false =>
          simp only [Bool.not_true, Bool.false_eq_true, if_false, Bool.and_false]
          split <;> rfl

theorem origPort_isValidTrackedConnection (s : FilterState) (p : Packet) (flow : Flow) :
    PortKept (s.origPort flow) ((s.isValidTrackedConnection env p).1.origPort flow) := by
  unfold isValidTrackedConnection
  split
  · cases flow with
    | tcp key =>
      exact TCPTracker.origPort_apply (.isValidInbound (env.now 0) p.key p.flags p.size) id
    | udp key => exact .refl _
  · cases flow with
    | tcp key => exact .refl _
    | udp key => exact .inl (BaseTracker.origPort_checkInbound key)
  · cases flow <;> exact .refl _
  · cases flow <;> exact .refl _
  · exact .refl _

/-- An outbound packet is tracked, or the filter stays as it is. -/
theorem filterOutbound_cases (s : FilterState) (a : Arrival) :
    (s.filterOutbound env a).2 = s ∨
      ∃ p, (s.filterOutbound env a).2 = (s.trackOutbound env p).1 := by
  unfold filterOutbound
  split
  · exact .inl rfl
  · exact .inl rfl
  next p =>
    split
    · exact .inl rfl
    · split
      · exact .inl rfl
      · exact .inr ⟨p, rfl⟩

theorem dnatOrigPort_filterOutbound (s : FilterState) (a : Arrival) :
    (s.filterOutbound env a).2.dnatOrigPort = s.dnatOrigPort := by
  rcases s.filterOutbound_cases env a with h | ⟨p, h⟩ <;> rw [h]
  unfold trackOutbound
  split <;> rfl

theorem origPort_trackOutbound (env : Env) (s : FilterState) (p : Packet) (flow : Flow) :
    PortKept (s.origPort flow) ((s.trackOutbound env p).1.origPort flow) ∨
      (s.trackOutbound env p).1.origPort flow = some 0 := by
  unfold trackOutbound
  split
  · cases flow with
    | tcp key => exact .inl (.refl _)
    | udp key => exact UDPTracker.origPort_trackOutbound
  · cases flow with
    | tcp key => exact TCPTracker.origPort_trackOutbound
    | udp key => exact .inl (.refl _)
  · cases flow <;> exact .inl (.refl _)
  · cases flow <;> exact .inl (.refl _)
  · exact .inl (.refl _)

theorem origPort_filterOutbound (s : FilterState) (a : Arrival) (flow : Flow) :
    PortKept (s.origPort flow) ((s.filterOutbound env a).2.origPort flow) ∨
      (s.filterOutbound env a).2.origPort flow = some 0 := by
  rcases s.filterOutbound_cases env a with h | ⟨p, h⟩ <;> rw [h]
  · exact .inl (.refl _)
  · exact origPort_trackOutbound env s p flow

/-- Where a packet goes does not depend on the port in the decoder. -/
theorem tracksDecoded_port (s : FilterState) (port : UInt16) (p : Packet) :
    { s with dnatOrigPort := port }.tracksDecoded env p = s.tracksDecoded env p := by
  have htracked : ∀ q, ({ s with dnatOrigPort := port }.isValidTrackedConnection env q).2 =
      (s.isValidTrackedConnection env q).2 := by
    intro q
    unfold isValidTrackedConnection
    split <;> rfl
  unfold tracksDecoded
  simp only [htracked]

/-- **One event** hands its packet to `trackInbound` with the port in the decoder, or leaves that
port and makes no entry with a port. -/
theorem step_cases (s : FilterState) (e : FilterEvent) :
    (∃ env p, s.tracksInbound e = some (env, p) ∧
      s.step e = { s with dnatOrigPort := s.portAfterTranslation e }.trackInbound env p) ∨
    (s.tracksInbound e = none ∧ (s.step e).dnatOrigPort = s.portAfterTranslation e ∧
      ∀ flow, PortKept (s.origPort flow) ((s.step e).origPort flow) ∨
        (s.step e).origPort flow = some 0) := by
  cases e with
  | inbound env a =>
    cases a with
    | invalid | fragment => exact .inr ⟨rfl, rfl, fun flow => .inl (.refl _)⟩
    | packet p =>
      by_cases hip : (p.d.network ≠ .ipv4 && p.d.network ≠ .ipv6) = true
      · simp only [step, filterInbound, tracksInbound, portAfterTranslation,
          FilterEvent.translatedBy, if_pos hip]
        exact .inr ⟨trivial, trivial, fun flow => .inl (.refl _)⟩
      · -- the packet and the decoder after the translation
        obtain ⟨q, hq⟩ : ∃ q, q = match translateInboundPortDNAT env p with
          | some rule => p.rewriteDstPort rule.targetPort
          | none => p := ⟨_, rfl⟩
        have hstep : s.step (.inbound env (.packet p)) =
            ({ s with dnatOrigPort := s.portAfterTranslation (.inbound env (.packet p)) }
              |>.filterDecoded env q).2 := by
          simp only [step, filterInbound, portAfterTranslation, FilterEvent.translatedBy,
            if_neg hip, hq]
          cases translateInboundPortDNAT env p <;> rfl
        have htracks : s.tracksInbound (.inbound env (.packet p)) =
            (s.tracksDecoded env q).map fun p => (env, p) := by
          simp only [tracksInbound, if_neg hip, hq]
        set port := s.portAfterTranslation (.inbound env (.packet p))
        have hport := tracksDecoded_port env s port q
        rw [hstep, htracks, filterDecoded_eq]
        cases hreach : s.tracksDecoded env q with
        | some q' =>
          rw [hport.trans hreach]
          exact .inl ⟨env, q', rfl, rfl⟩
        | none =>
          rw [hport.trans hreach]
          refine .inr ⟨rfl, ?_, fun flow => .inl ?_⟩
          · dsimp only
            split
            · unfold isValidTrackedConnection
              split <;> rfl
            · rfl
          · dsimp only
            split
            · exact origPort_isValidTrackedConnection env
                { s with dnatOrigPort := port } _ flow
            · exact .refl _
  | outbound env a =>
    exact .inr ⟨rfl, dnatOrigPort_filterOutbound env s a, origPort_filterOutbound env s a⟩
  | tcpCleanup now =>
    refine .inr ⟨rfl, rfl, fun flow => .inl ?_⟩
    cases flow with
    | tcp key => exact TCPTracker.origPort_apply (.cleanup now) id
    | udp key => exact .refl _
  | udpCleanup now =>
    refine .inr ⟨rfl, rfl, fun flow => .inl ?_⟩
    cases flow with
    | tcp key => exact .refl _
    | udp key => exact BaseTracker.origPort_cleanup key
  | icmpCleanup now => exact .inr ⟨rfl, rfl, fun flow => .inl (.refl _)⟩

theorem dnatOrigPort_step (s : FilterState) (e : FilterEvent) : (s.step e).dnatOrigPort =
      if (s.tracksInbound e).isSome then 0 else s.portAfterTranslation e := by
  rcases s.step_cases e with ⟨env, p, htracks, hstep⟩ | ⟨htracks, hport, -⟩
  · rw [htracks, hstep]
    rfl
  · rw [htracks, hport]
    rfl

theorem origPort_step_of_opens (h : s.opens e = some flow) :
    (s.step e).origPort flow = some (s.portAfterTranslation e).toUInt32 := by
  unfold opens at h
  rcases s.step_cases e with ⟨env, p, htracks, hstep⟩ | ⟨htracks, -, -⟩
  · rw [hstep]
    simp only [htracks] at h
    unfold trackInbound
    split at h
    next htcp =>
      split at h
      next hnew =>
        rw [← some.inj h]
        simp only [Bool.and_eq_true, Bool.not_eq_true'] at hnew
        simp only [htcp]
        exact TCPTracker.origPort_track_of_syn hnew.1.1 hnew.1.2 hnew.2
      · cases h
    next hudp =>
      split at h
      next hnew =>
        rw [← some.inj h]
        simp only [hudp]
        exact origPort_track_of_none hnew
      · cases h
    · cases h
  · rw [htracks] at h
    cases h

/-- Other flows keep their ports, or get entries without one. -/
theorem origPort_step_of_not_opens (h : s.opens e ≠ some flow) :
    PortKept (s.origPort flow) ((s.step e).origPort flow) ∨ (s.step e).origPort flow = some 0 := by
  rcases s.step_cases e with ⟨env, p, htracks, hstep⟩ | ⟨-, -, hkept⟩
  · left
    rw [hstep]
    unfold opens at h
    simp only [htracks] at h
    unfold trackInbound
    split
    next hudp =>
      simp only [hudp] at h
      cases flow with
      | tcp key => exact .refl _
      | udp key =>
        refine origPort_track fun hkey hnone => ?_
        rw [if_pos hnone] at h
        exact h (by rw [hkey])
    next htcp =>
      simp only [htcp] at h
      cases flow with
      | tcp key =>
        refine TCPTracker.origPort_apply
          (.trackInbound (env.now 2) env.connOrder p.key p.flags p.size _) ?_
        rintro ⟨hkey, hsyn, hlegal, hfree⟩
        rw [hsyn, hlegal, hfree] at h
        exact h (by rw [hkey]; rfl)
      | udp key => exact .refl _
    · cases flow <;> exact .refl _
    · cases flow <;> exact .refl _
    · cases flow <;> exact .refl _
  · exact hkept flow

end FilterState

/-! ## Isolation -/

/-- The flow whose entry an outbound packet looks up first. -/
def Packet.repliesTo (p : Packet) : Option Flow :=
  match p.d.transport with
  | .tcp => some (.tcp p.key.reversed)
  | .udp => some (.udp p.key.reversed)
  | _ => none

/-- **Packets do not see each other's ports**: a flow gets the port of the packet that opens it, and
answers to untranslated packets keep their source port. -/
structure Isolated (s : FilterState) (events : List FilterEvent) : Prop where
  recorded : ∀ pre e post, events = pre ++ e :: post →
    ∀ flow, (s.run pre).opens e = some flow →
      (s.run (pre ++ [e])).origPort flow = some e.portToRecord.toUInt32
  not_rewritten : ∀ pre e mid env p post,
    events = pre ++ e :: mid ++ .outbound env (.packet p) :: post →
    ∀ flow, (s.run pre).opens e = some flow → e.translatedBy = none →
      (∀ mid₁ e' mid₂, mid = mid₁ ++ e' :: mid₂ →
        (s.run (pre ++ e :: mid₁)).opens e' ≠ some flow) →
      p.repliesTo = some flow → ((s.run (pre ++ e :: mid)).trackOutbound env p).2 = 0

/-- A translated packet has left its port in the decoder: it did not reach `trackInbound` itself,
and no packet has since. -/
inductive LeftOver (s : FilterState) : List FilterEvent → Prop
  | translated {pre e rule} (hrule : e.translatedBy = some rule) (hport : rule.origPort ≠ 0)
      (hleft : (s.run pre).tracksInbound e = none) : LeftOver s (pre ++ [e])
  | kept {pre e} (hprev : LeftOver s pre) (hrule : e.translatedBy = none)
      (hleft : (s.run pre).tracksInbound e = none) : LeftOver s (pre ++ [e])

/-- The decoder holds a port exactly if one was left in it. -/
theorem dnatOrigPort_run (s : FilterState) (hs : s.dnatOrigPort = 0) (events : List FilterEvent) :
    (s.run events).dnatOrigPort ≠ 0 ↔ LeftOver s events := by
  induction events using reverseRecOn with
  | nil =>
    constructor
    · intro h
      exact absurd hs h
    · intro h
      generalize hnil : ([] : List FilterEvent) = events at h
      cases h <;> simp at hnil
  | append_singleton events e ih =>
    rw [FilterState.run_concat, FilterState.dnatOrigPort_step]
    constructor
    · intro h
      cases hreach : (s.run events).tracksInbound e with
      | some reached =>
        rw [hreach] at h
        exact absurd rfl h
      | none =>
        rw [hreach] at h
        unfold FilterState.portAfterTranslation at h
        cases hrule : e.translatedBy with
        | some rule =>
          rw [hrule] at h
          exact .translated hrule h hreach
        | none =>
          rw [hrule] at h
          exact .kept (ih.mp h) hrule hreach
    · intro h
      generalize hlast : events ++ [e] = all at h
      unfold FilterState.portAfterTranslation
      cases h with
      | translated hrule hport hleft =>
        obtain ⟨rfl, he⟩ := append_inj' hlast rfl
        cases he
        rw [hleft, hrule]
        exact hport
      | kept hprev hrule hleft =>
        obtain ⟨rfl, he⟩ := append_inj' hlast rfl
        cases he
        rw [hleft, hrule]
        exact ih.mpr hprev

variable {rule : PortDNATRule}

theorem origPort_of_applyPortRule {srcIP : Option Addr} {dstIP : Addr} {port : UInt16}
    {protocol : Layer} {rules : List PortDNATRule}
    (h : applyPortRule srcIP dstIP port protocol rules = some rule) : rule.origPort = port := by
  induction rules with
  | nil => cases h
  | cons r rules ih =>
    rw [applyPortRule] at h
    split at h
    · exact ih h
    · split at h
      · cases h
      · split at h
        · exact ih h
        next hport =>
          rw [← some.inj h]
          exact not_not.mp hport

/-- A rule hands over the port that the packet was sent to. -/
theorem portToRecord_of_translated
    (h : e.translatedBy = some rule) : e.portToRecord = rule.origPort := by
  cases e with
  | inbound env a =>
    cases a with
    | packet p =>
      have hport : rule.origPort = p.dstPort := by
        rw [FilterEvent.translatedBy] at h
        split at h
        · cases h
        · rw [translateInboundPortDNAT] at h
          split at h
          · cases h
          · unfold Packet.dstPort getPortsFromPacket
            cases htransport : p.d.transport with
            | tcp =>
              rw [htransport] at h
              exact origPort_of_applyPortRule h
            | udp =>
              rw [htransport] at h
              exact origPort_of_applyPortRule h
            | _ =>
              rw [htransport] at h
              cases h
      rw [FilterEvent.portToRecord, h, hport]
      rfl
    | invalid => cases h
    | fragment => cases h
  | outbound env a | tcpCleanup now | udpCleanup now | icmpCleanup now => cases h

theorem portToRecord_of_not_translated (h : e.translatedBy = none) :
    e.portToRecord = 0 := by
  unfold FilterEvent.portToRecord
  split
  · rw [h]
    rfl
  · rfl

/-- No port is recorded for a flow. -/
def FilterState.NoPort (s : FilterState) (flow : Flow) : Prop :=
  s.origPort flow = none ∨ s.origPort flow = some 0

theorem FilterState.NoPort.run (h : s.NoPort flow) (events : List FilterEvent)
    (hopens : ∀ pre e post, events = pre ++ e :: post → (s.run pre).opens e ≠ some flow) :
    (s.run events).NoPort flow := by
  induction events using reverseRecOn with
  | nil => exact h
  | append_singleton events e ih =>
    have hprev : (s.run events).NoPort flow := by
      apply ih
      intro pre e' post hsplit
      apply hopens pre e' (post ++ [e])
      rw [hsplit, append_assoc, cons_append]
    rw [run_concat]
    rcases origPort_step_of_not_opens (hopens events e [] rfl) with (hsame | hnone) | hzero
    · rw [NoPort, hsame]
      exact hprev
    · exact .inl hnone
    · exact .inr hzero

/-- Without a recorded port the source port of an answer stays. -/
theorem FilterState.NoPort.trackOutbound (h : s.NoPort flow)
    (env : Env) {p : Packet} (hreply : p.repliesTo = some flow) :
    (s.trackOutbound env p).2 = 0 := by
  unfold Packet.repliesTo at hreply
  split at hreply
  next htcp =>
    simp only [FilterState.trackOutbound, htcp]
    rw [← some.inj hreply] at h
    rcases @TCPTracker.trackOutbound_snd s.tcpTracker (env.now 0) p.size env.connOrder p.key p.flags
      with hzero | hport
    · exact hzero
    · rcases h with h | h
      · have h' : s.tcpTracker.origPort p.key.reversed = none := h
        rw [h'] at hport
        cases hport
      · have h' : s.tcpTracker.origPort p.key.reversed = some 0 := h
        rw [h'] at hport
        exact (some.inj hport).symm
  next hudp =>
    simp only [FilterState.trackOutbound, hudp]
    rw [← some.inj hreply] at h
    rw [trackOutbound_snd]
    rcases h with h | h
    · have h' : s.udpTracker.origPort p.key.reversed = none := h
      rw [h']
      rfl
    · have h' : s.udpTracker.origPort p.key.reversed = some 0 := h
      rw [h']
      rfl
  · cases hreply

/-- **When ports are isolated**: if and only if no untranslated packet opens a flow while the port
of an earlier packet is left over in the decoder. -/
theorem isolated_iff (tcpTracker : TCPTracker) (udpTracker : UDPTracker)
    (icmpTracker : ICMPTracker) (events : List FilterEvent) :
    let s : FilterState := ⟨tcpTracker, udpTracker, icmpTracker, 0⟩
    Isolated s events ↔ ∀ pre e post, events = pre ++ e :: post → (s.run pre).opens e ≠ none →
        e.translatedBy = none → ¬ LeftOver s pre := by
  intro s
  constructor
  · intro h pre e post hsplit hopens hrule
    obtain ⟨flow, hflow⟩ := ne_none_iff_exists'.mp hopens
    have hrecorded := h.recorded pre e post hsplit flow hflow
    rw [FilterState.run_concat, FilterState.origPort_step_of_opens hflow,
      portToRecord_of_not_translated hrule, FilterState.portAfterTranslation, hrule] at hrecorded
    rw [← dnatOrigPort_run s rfl pre, not_not]
    exact UInt16.toUInt32_inj.mp (some.inj hrecorded)
  · intro h
    have hrecorded : ∀ pre e post, events = pre ++ e :: post →
        ∀ flow, (s.run pre).opens e = some flow →
          (s.run (pre ++ [e])).origPort flow = some e.portToRecord.toUInt32 := by
      intro pre e post hsplit flow hflow
      rw [FilterState.run_concat, FilterState.origPort_step_of_opens hflow,
        FilterState.portAfterTranslation]
      cases hrule : e.translatedBy with
      | some rule => rw [portToRecord_of_translated hrule]
      | none =>
        have hclean := h pre e post hsplit (by rw [hflow]; simp) hrule
        rw [← dnatOrigPort_run s rfl pre, not_not] at hclean
        rw [portToRecord_of_not_translated hrule]
        rw [hclean]
    refine ⟨hrecorded, ?_⟩
    intro pre e mid env p post hsplit flow hflow hrule hmid hreply
    have hopened : (s.run (pre ++ [e])).NoPort flow := by
      right
      rw [hrecorded pre e (mid ++ .outbound env (.packet p) :: post) (by simp [hsplit]) flow hflow,
        portToRecord_of_not_translated hrule]
      rfl
    have hsame : ∀ events', s.run (pre ++ e :: events') = (s.run (pre ++ [e])).run events' := by
      intro events'
      simp only [FilterState.run, foldl_append, foldl_cons, foldl_nil]
    rw [hsame]
    refine (hopened.run mid fun mid₁ e' mid₂ hmid' => ?_).trackOutbound env hreply
    rw [← hsame]
    exact hmid mid₁ e' mid₂ hmid'

/-- A SYN to port 22 is translated and then blocked. The next SYN, to port 80, opens a flow for
which port 22 is recorded, so the answer leaves from port 22. -/
theorem port_of_blocked_packet_recorded : let host : Addr := .v4 0x64400001#32
    let client : Addr := .v4 0x64400003#32
    let env : Env :=
      { isLocalIP := fun ip => ip = host, wgIP := host
        portDNATEnabled := true, portDNATRules := [⟨.tcp, 22, 22022, host⟩]
        peerRules := PeerRules.after {}
          [.addPeerFiltering [] [100, 64, 0, 3] .tcp none none .accept]
        now := fun _ => 0, ruleOrder := fun _ => .kept, connOrder := .kept, icmpOrder := .kept }
    let tcp (src dst : UInt16) : Decoded :=
      { network := .ipv4, transport := .tcp, tcpSrcPort := src, tcpDstPort := dst }
    let ssh : Packet := ⟨tcp 40000 22, .v4 0x64400002#32, host, tcpSyn, 0, [], 60⟩
    let web : Packet := ⟨tcp 40001 80, client, host, tcpSyn, 0, [], 60⟩
    let answer : Packet := ⟨tcp 80 40001, host, client, tcpSyn ||| tcpAck, 0, [], 60⟩
    let events : List FilterEvent :=
      [.inbound env (.packet ssh), .inbound env (.packet web), .outbound env (.packet answer)]
    let s : FilterState := ⟨newTCPTracker 0 60 60 30 65536, ⟨[], 30, 65536⟩, ⟨[], 30, 65536⟩, 0⟩
    (s.run (events.take 1)).opens (.inbound env (.packet web)) = some (.tcp web.key) ∧
    FilterEvent.translatedBy (.inbound env (.packet web)) = none ∧
    (s.run (events.take 2)).origPort (.tcp web.key) = some 22 ∧
    ((s.run (events.take 2)).trackOutbound env answer).2 = 22 ∧
    ¬ Isolated s events := by
  intro host client env tcp ssh web answer events s
  have hopens : (s.run (events.take 1)).opens (.inbound env (.packet web)) =
      some (.tcp web.key) := by decide +kernel
  have hport : (s.run (events.take 2)).origPort (.tcp web.key) = some 22 := by decide +kernel
  refine ⟨hopens, by decide +kernel, hport, by decide +kernel, fun h => ?_⟩
  have hrecorded := h.recorded (events.take 1) (.inbound env (.packet web)) _ rfl _ hopens
  exact absurd (hport.symm.trans hrecorded) (by decide +kernel)

end Uspfilter
