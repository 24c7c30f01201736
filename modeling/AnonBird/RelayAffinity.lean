/-
# Flow affinity of the multipath relay connection

The hint of an observed packet and the WireGuard message that carries the packet are correlated by
position only: the n-th data message takes the n-th hint (`Traffic`).  Every message of type 4 takes
a hint, also a keepalive, which was never observed; one that is written while a hint is outstanding
shifts the correspondence by one (`flow_split_by_keepalive`).
-/
import AnonBird.FlowReverse
import AnonBird.RelayFailover

open GoStrings NetIP Multipath List

/-! ## The selector on healthy channels -/

namespace Multipath

variable {channels : List Channel} (key : FlowKey)

theorem selectChannel_of_healthy (hne : channels ≠ [])
    (hall : ∀ c ∈ channels, c.healthy ∧ c.id ≠ []) :
    ∃ selected ∈ channels, selectChannel key channels = .ok selected := by
  rw [selectChannel_eq]
  cases hbest : key.best channels with
  | some selected => exact ⟨selected, (mem_of_best hbest).1, rfl⟩
  | none =>
    obtain ⟨c, hc⟩ := exists_mem_of_ne_nil _ hne
    exact absurd (hall c hc).2 (not_not.mpr (best_eq_none_iff.mp hbest c hc (hall c hc).1))

end Multipath

namespace RelayMultipath

variable {Conn Err : Type}

/-! ## Traffic -/

/-- A connection with the observed packets that are still to be sent, and the sent ones with their
channels. -/
structure Traffic (Conn Err : Type) where
  conn : State Conn Err
  pending : List Bytes
  sent : List (Bytes × Option UInt32)

/-- What happens on an open connection whose channels do not fail. -/
inductive Action where
  /-- An outbound overlay packet is observed. -/
  | observe (packet : Bytes)
  /-- The message that carries the oldest pending packet is written. -/
  | data (message : Bytes)
  /-- A handshake message is written. -/
  | handshake (message : Bytes)
  /-- A keepalive, a data message without a packet, is written. -/
  | keepalive (message : Bytes)

/-- The channel a `Write` was handed to. -/
def WriteResult.channel : WriteResult Conn Err → Option UInt32
  | .errClosed => none
  | .handed channelID _ _ => some channelID

/-- One action.  Observed packets are classifiable and destined to the peer, and there
is room for their hint; every write succeeds. -/
inductive TrafficStep : Traffic Conn Err → Action → Traffic Conn Err → Prop
  | observe {t packet info} :
      classifyPacketInfo packet = .ok info →
      t.conn.matchesAllowedDestination info.destination = true →
      t.conn.hintCh.length < relayMultipathHintQueueSize →
      TrafficStep t (.observe packet)
        { t with conn := t.conn.observePacket packet true, pending := t.pending ++ [packet] }
  | data {t message packet rest} :
      isWireGuardDataPacket message = true → t.pending = packet :: rest →
      TrafficStep t (.data message)
        ⟨(t.conn.write message none).1, rest,
          t.sent ++ [(packet, (t.conn.write message none).2.channel)]⟩
  | handshake {t message} :
      isWireGuardDataPacket message = false →
      TrafficStep t (.handshake message) { t with conn := (t.conn.write message none).1 }
  | keepalive {t message} :
      isWireGuardDataPacket message = true →
      TrafficStep t (.keepalive message) { t with conn := (t.conn.write message none).1 }

/-- Keepalives are written only while no hint is outstanding. -/
def KeepaliveWhenDrained (t : Traffic Conn Err) (a : Action) : Prop :=
  ∀ message, a = .keepalive message → t.conn.hintCh = []

/-- `SelectChannel` chooses the channel `id` for the flow of the packet. -/
def Chosen (chs : List (RelayChannel Conn)) (packet : Bytes) (id : UInt32) : Prop :=
  ∃ info selected, classifyPacketInfo packet = .ok info ∧
    selectChannel info.flow (chs.map fun ch => ⟨selectorID ch.id, true⟩) = .ok selected ∧
    selected.id = selectorID id

theorem Chosen.unique {chs : List (RelayChannel Conn)} {p q : Bytes} {a b : UInt32}
    (hp : Chosen chs p a) (hq : Chosen chs q b) (hflow : classifyPacket p = classifyPacket q) :
    a = b := by
  obtain ⟨info, selected, hinfo, hsel, hid⟩ := hp
  obtain ⟨info', selected', hinfo', hsel', hid'⟩ := hq
  have hkey : info.flow = info'.flow := by
    rw [classifyPacket, classifyPacket, hinfo, hinfo'] at hflow
    exact Except.ok.inj hflow
  rw [hkey, hsel'] at hsel
  rw [Except.ok.inj hsel, hid] at hid'
  exact selectorID_injective hid'

/-! ## One step -/

open State

section Steps

variable {chs : List (RelayChannel Conn)} {allowedIPs : List Prefix}

/-- The connection after its construction, with the given hints outstanding. -/
def withHints (chs : List (RelayChannel Conn)) (allowedIPs : List Prefix) (hints : List UInt32) :
    State Conn Err :=
  { newRelayMultipathConn chs allowedIPs with hintCh := hints }

variable (hints : List UInt32)

theorem static_withHints :
    Static chs (withHints chs allowedIPs hints : State Conn Err) :=
  ⟨rfl, rfl, rfl⟩

theorem shape_withHints :
    Shape chs (fun _ => true) (withHints chs allowedIPs hints : State Conn Err) :=
  rfl

/-- An observed packet leaves the channel of its flow as the youngest hint. -/
theorem observePacket_withHints (hne : chs ≠ []) {hints : List UInt32} {packet : Bytes}
    {info : PacketInfo} (hinfo : classifyPacketInfo packet = .ok info)
    (hallowed : (withHints chs allowedIPs hints : State Conn Err).matchesAllowedDestination
      info.destination) (hroom : hints.length < relayMultipathHintQueueSize) :
    ∃ ch ∈ chs, Chosen chs packet ch.id ∧
      (withHints chs allowedIPs hints : State Conn Err).observePacket packet true
        = withHints chs allowedIPs (hints ++ [ch.id]) := by
  have hall : ∀ c ∈ chs.map fun ch => (⟨selectorID ch.id, true⟩ : Channel),
      c.healthy ∧ c.id ≠ [] := by
    intro c hc
    obtain ⟨ch, _, rfl⟩ := mem_map.mp hc
    exact ⟨rfl, formatUint_ne_nil _⟩
  obtain ⟨selected, hmem, hsel⟩ := selectChannel_of_healthy info.flow (by simpa using hne) hall
  obtain ⟨ch, hch, rfl⟩ := mem_map.mp hmem
  have hhint : (withHints chs allowedIPs hints : State Conn Err).hintFor packet = some ch.id := by
    rw [hintFor, hinfo]
    dsimp only
    rw [hallowed, shape_withHints hints, hsel]
    exact get_selectorID (static_withHints hints) hch
  refine ⟨ch, hch, ⟨info, _, hinfo, hsel, rfl⟩, ?_⟩
  rw [observePacket, hhint]
  exact if_pos hroom

/-- A successful write changes nothing but the hints. -/
theorem write_withHints (hd : DistinctIDs chs) (hne : chs ≠ []) (hints : List UInt32)
    (message : Bytes) : ((withHints chs allowedIPs hints : State Conn Err).write message none).1
      = withHints chs allowedIPs
        ((withHints chs allowedIPs hints : State Conn Err).takeHint message).2 := by
  obtain ⟨ch, rest, rfl⟩ := exists_cons_of_ne_nil hne
  have hst : Static _ (withHints (ch :: rest) allowedIPs hints : State Conn Err) :=
    static_withHints hints
  obtain ⟨_, _, _, _, hstate⟩ :=
    write_of_healthy hst hd (shape_withHints hints) rfl ⟨ch, by simp, rfl⟩ message none
  exact hstate

theorem write_oldest_hint (hd : DistinctIDs chs) {ch : RelayChannel Conn} (hch : ch ∈ chs)
    (hints : List UInt32) {message : Bytes} (hm : isWireGuardDataPacket message) :
    ((withHints chs allowedIPs (ch.id :: hints) : State Conn Err).write message none).2
      = .handed ch.id ch.conn none := by
  have hst : Static chs (withHints chs allowedIPs hints : State Conn Err) := static_withHints hints
  have hsh : Shape chs (fun _ => true) (withHints chs allowedIPs hints : State Conn Err) :=
    shape_withHints hints
  have htake : (withHints chs allowedIPs (ch.id :: hints) : State Conn Err).takeHint message
      = (ch.id, hints) := if_pos hm
  have hconn : (withHints chs allowedIPs hints : State Conn Err).connForWrite ch.id
      = some (ch.conn, ch.id) := by
    have hhealthy := (channelHealthyLocked_iff hsh ch.id).mpr ⟨⟨ch, hch, rfl⟩, rfl⟩
    rw [connForWrite, usable, if_pos hhealthy, get_channels hst hd hch]
    rfl
  rw [write, if_neg (by simp [withHints, newRelayMultipathConn])]
  dsimp only
  rw [htake]
  -- the connection without its oldest hint is again one of this form
  have hrest : { (withHints chs allowedIPs (ch.id :: hints) : State Conn Err) with
      hintCh := hints } = withHints chs allowedIPs hints := rfl
  rw [hrest, hconn]

end Steps

/-! ## Runs -/

/-- The hints are the choices for the pending packets, in order, and every sent packet
went to the channel chosen for it. -/
structure Aligned (chs : List (RelayChannel Conn)) (allowedIPs : List Prefix)
    (t : Traffic Conn Err) : Prop where
  conn : t.conn = withHints chs allowedIPs t.conn.hintCh
  hints : List.Forall₂ (fun packet id => Chosen chs packet id ∧ ∃ ch ∈ chs, ch.id = id)
    t.pending t.conn.hintCh
  sent : ∀ r ∈ t.sent, ∃ ch ∈ chs, r.2 = some ch.id ∧ Chosen chs r.1 ch.id

variable {chs : List (RelayChannel Conn)} {allowedIPs : List Prefix}

theorem aligned_step (hne : chs ≠ []) (hd : DistinctIDs chs) {t u : Traffic Conn Err} {a : Action}
    (hal : Aligned chs allowedIPs t) (hok : KeepaliveWhenDrained t a) (hstep : TrafficStep t a u) :
    Aligned chs allowedIPs u := by
  obtain ⟨conn, pending, sent⟩ := t
  obtain ⟨hconn, hhints, hsent⟩ := hal
  generalize conn.hintCh = hints at hconn hhints
  subst hconn
  -- the connection is now its hints, and each action moves one of them
  cases hstep with
  | observe hinfo hallowed hroom =>
    obtain ⟨ch, hch, hchosen, hobs⟩ := observePacket_withHints hne hinfo hallowed hroom
    refine ⟨?_, ?_, hsent⟩
    · rw [hobs]
      rfl
    · rw [hobs]
      exact rel_append hhints (.cons ⟨hchosen, ch, hch, rfl⟩ .nil)
  | data hm hpending =>
    subst hpending
    cases hhints with
    | cons hhead htail =>
      -- the oldest hint belongs to the oldest pending packet
      obtain ⟨hchosen, ch, hch, rfl⟩ := hhead
      rw [write_withHints hd hne, write_oldest_hint hd hch _ hm]
      refine ⟨?_, ?_, ?_⟩
      · rfl
      · rw [takeHint, if_pos hm]
        exact htail
      · intro r hr
        rcases mem_append.mp hr with hr | hr
        · exact hsent r hr
        · obtain rfl := mem_singleton.mp hr
          exact ⟨ch, hch, rfl, hchosen⟩
  | handshake hm =>
    have htake : (withHints chs allowedIPs hints : State Conn Err).takeHint _ = (_, hints) :=
      if_neg (by simpa using hm)
    rw [write_withHints hd hne, htake]
    exact ⟨rfl, hhints, hsent⟩
  | keepalive hm =>
    -- with no hint outstanding there is none to take
    obtain rfl : hints = [] := hok _ rfl
    have htake : (withHints chs allowedIPs [] : State Conn Err).takeHint _ = (_, []) := if_pos hm
    rw [write_withHints hd hne, htake]
    exact ⟨rfl, hhints, hsent⟩

/-- A connection that has just been made. -/
def Traffic.fresh (chs : List (RelayChannel Conn)) (allowedIPs : List Prefix) : Traffic Conn Err :=
  ⟨newRelayMultipathConn chs allowedIPs, [], []⟩

open Transition

/-- **Flow affinity.** If keepalives are written while no hint is outstanding, each packet was sent
on the channel that `SelectChannel` chooses for its flow. -/
theorem flow_affinity (chs : List (RelayChannel Conn)) (hne : chs ≠ []) (hd : DistinctIDs chs)
    (allowedIPs : List Prefix) (actions : List Action) (t : Traffic Conn Err)
    (hrun : Run TrafficStep KeepaliveWhenDrained (.fresh chs allowedIPs) actions t) :
    (∀ r ∈ t.sent, ∃ ch ∈ chs, r.2 = some ch.id ∧ Chosen chs r.1 ch.id) ∧
    ∀ r ∈ t.sent, ∀ r' ∈ t.sent, classifyPacket r.1 = classifyPacket r'.1 → r.2 = r'.2 := by
  have hal : Aligned chs allowedIPs t :=
    hrun.invariant (P := fun _ t => Aligned chs allowedIPs t) ⟨rfl, .nil, by simp [Traffic.fresh]⟩
      fun _ _ _ _ hal hok hstep => aligned_step hne hd hal hok hstep
  refine ⟨hal.sent, ?_⟩
  intro r hr r' hr' hflow
  obtain ⟨ch, _, hch, hchosen⟩ := hal.sent r hr
  obtain ⟨ch', _, hch', hchosen'⟩ := hal.sent r' hr'
  rw [hch, hch', hchosen.unique hchosen' hflow]

/-- The network of the peer, 100.80.0.0/16. -/
def peerNetwork : List Prefix := [⟨.v4 0x64500000, 16⟩]

/-- A message of type 4 with the given number of bytes after the type field. -/
def typeFour (n : ℕ) : Bytes := [4, 0, 0, 0] ++ List.replicate n 0

/-- A keepalive takes the hint of a packet: of two messages of one flow, the first goes to the
chosen channel and the second to the primary one. -/
theorem flow_split_by_keepalive : ∃ t : Traffic ℕ ℕ,
    Run TrafficStep (fun _ _ => True) (.fresh twoChannels peerNetwork)
      [.observe tcpPacket, .data (typeFour 76), .observe tcpPacket, .keepalive (typeFour 28),
        .data (typeFour 76)] t ∧
    t.sent = [(tcpPacket, some 1), (tcpPacket, some 0)] ∧ Chosen twoChannels tcpPacket 1 := by
  refine ⟨_, .go (.observe rfl ?_ ?_) (.go (.data ?_ rfl)
    (.go (.observe rfl ?_ ?_) (.go (.keepalive ?_)
      (.go (.data ?_ rfl) .nil)))), ?_, _, ⟨selectorID 1, true⟩, rfl, ?_, rfl⟩
  all_goals decide +kernel

/-- With the keepalive behind the message the flow stays on its channel. -/
theorem flow_affinity_drained : ∃ t : Traffic ℕ ℕ,
    Run TrafficStep KeepaliveWhenDrained (.fresh twoChannels peerNetwork)
      [.observe tcpPacket, .data (typeFour 76), .keepalive (typeFour 28)] t ∧
    t.sent.map Prod.fst = [tcpPacket] ∧
    ∀ r ∈ t.sent, ∃ ch ∈ twoChannels, r.2 = some ch.id ∧ Chosen twoChannels r.1 ch.id := by
  refine Run.exists_imp (P := fun t => t.sent.map Prod.fst = [tcpPacket]) ?_ ?_
  · intro t hrun hsent
    exact ⟨hsent, (flow_affinity twoChannels (by simp [twoChannels])
      (by simp [DistinctIDs, twoChannels]) peerNetwork _ t hrun).1⟩
  · refine ⟨_, .cons ?_ (.observe rfl ?_ ?_) (.cons ?_ (.data ?_ rfl)
      (.cons ?_ (.keepalive ?_) .nil)), ?_⟩
    · rintro message ⟨⟩
    · decide +kernel
    · decide +kernel
    · rintro message ⟨⟩
    · decide +kernel
    · intro _ _
      decide +kernel
    · decide +kernel
    · rfl

end RelayMultipath
