/-
# Packets and rules of the userspace filter

What the access rules of `client/firewall/uspfilter` are made of: the layers that the decoder
finds in a packet, the protocols and ports of rules, and when they match a packet.
-/
import AnonBird.NetIP

open NetIP GoStrings

namespace Uspfilter

/-! ## Packets -/

/-- The layers that the parsers of the decoder know (`gopacket.LayerType`). -/
inductive Layer where
  | ethernet
  | ipv4
  | ipv6
  | tcp
  | udp
  | icmpv4
  | icmpv6
  deriving DecidableEq, Repr

/-- What a decoder holds of a packet. Fields of other layers than the decoded ones are left from
earlier packets. -/
structure Decoded where
  network : Layer
  transport : Layer
  tcpSrcPort : UInt16 := 0
  tcpDstPort : UInt16 := 0
  udpSrcPort : UInt16 := 0
  udpDstPort : UInt16 := 0
  icmp4Type : UInt8 := 0
  icmp6Type : UInt8 := 0
  deriving DecidableEq, Repr

/-- `isSpecialICMP`: the ICMP errors that are always allowed. -/
def isSpecialICMP (d : Decoded) : Bool :=
  match d.transport with
  | .icmpv4 => d.icmp4Type = 3 || d.icmp4Type = 11
  | .icmpv6 => d.icmp6Type = 1 || d.icmp6Type = 2 || d.icmp6Type = 3 || d.icmp6Type = 4
  | _ => false

/-- The ports of a packet. -/
def getPortsFromPacket (d : Decoded) : UInt16 × UInt16 :=
  match d.transport with
  | .tcp => (d.tcpSrcPort, d.tcpDstPort)
  | .udp => (d.udpSrcPort, d.udpDstPort)
  | _ => (0, 0)

/-! ## Rules -/

/-- `firewall.Protocol`; a text that is none of the four constants is `other`. -/
inductive Protocol where
  | tcp
  | udp
  | icmp
  | all
  | other (text : Bytes)
  deriving DecidableEq, Repr

/-- What a rule does with a packet. -/
inductive Action where
  | accept
  | drop
  deriving DecidableEq, Repr

/-- `firewall.Port`: a list of ports, or a range, which has a first and a last port. -/
structure Port where
  isRange : Bool
  values : List UInt16
  range : isRange = true → 2 ≤ values.length
  deriving DecidableEq

/-- The layer that a rule asks for; `zero` is that of an unknown protocol, which no packet has. -/
inductive RuleLayer where
  | zero
  | layer (l : Layer)
  | all
  deriving DecidableEq, Repr

/-- The layer that a protocol is matched at. -/
def protoToLayer (proto : Protocol) (ipLayer : Layer) : RuleLayer :=
  match proto with
  | .tcp => .layer .tcp
  | .udp => .layer .udp
  | .icmp => if ipLayer = .ipv6 then .layer .icmpv6 else .layer .icmpv4
  | .all => .all
  | .other _ => .zero

/-- `protoLayerMatches`: the two ICMP layers stand for each other. -/
def protoLayerMatches (ruleLayer : RuleLayer) (packetLayer : Layer) : Bool :=
  if ruleLayer = .layer packetLayer then true
  else if ruleLayer = .layer .icmpv4 && packetLayer = .icmpv6 then true
  else if ruleLayer = .layer .icmpv6 && packetLayer = .icmpv4 then true
  else false

/-- `portsMatch`; a rule without ports is `none`. -/
def portsMatch (rulePort : Option Port) (packetPort : UInt16) : Bool :=
  match rulePort with
  | none => true
  | some port =>
    if h : port.isRange = true then
      port.values.get ⟨0, Nat.lt_of_lt_of_le Nat.two_pos (port.range h)⟩ ≤ packetPort &&
        packetPort ≤ port.values.get ⟨1, port.range h⟩
    else port.values.contains packetPort

/-- The port constraints of a rule hold of a packet; they are about TCP and UDP. -/
def portsHold (sPort dPort : Option Port) (d : Decoded) : Bool :=
  match d.transport with
  | .tcp => portsMatch sPort d.tcpSrcPort && portsMatch dPort d.tcpDstPort
  | .udp => portsMatch sPort d.udpSrcPort && portsMatch dPort d.udpDstPort
  | _ => true

/-- A rule layer matches a packet: the layer of all protocols does always. -/
def layerHolds (ruleLayer : RuleLayer) (d : Decoded) : Bool :=
  ruleLayer = .all || protoLayerMatches ruleLayer d.transport

/-- Rules ask for transport layers, so what they match is TCP, UDP or ICMP. -/
theorem transport_of_protoLayerMatches {proto : Protocol} {ipLayer packetLayer : Layer}
    (h : protoLayerMatches (protoToLayer proto ipLayer) packetLayer) :
    packetLayer = .tcp ∨ packetLayer = .udp ∨ packetLayer = .icmpv4 ∨ packetLayer = .icmpv6 := by
  cases packetLayer <;> simp only [reduceCtorEq, or_true, or_false, or_self]
  all_goals
    revert h
    cases proto <;> simp only [protoToLayer] <;> first | decide | (split <;> decide)

end Uspfilter
