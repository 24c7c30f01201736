/-
# The WireGuard endpoint of a peer

Model of `client/internal/peer/endpoint.go` and of the handlers of `client/internal/peer/conn.go`
that set and remove the endpoint of the WireGuard peer.  The responder sets it only after a delay,
outside of the connection mutex.  The methods of `EndpointUpdater` stop a delayed update before they
touch the endpoint; three handlers remove it through the WireGuard interface instead
(`no_transport_no_endpoint`).

Every proxy has an endpoint address of its own here.  Set-ups that fail, the watcher, the status
recorder and the metrics are left out.
-/
import AnonBird.Transition
import AnonBird.ActiveTransport

open ActiveTransport (ConnPriority Status)

namespace WgEndpoint

/-! ## The updater -/

/-- What the client does to the endpoint of the WireGuard peer.  An `UpdatePeer` without
endpoint is none of these. -/
inductive EndpointOp (A : Type) where
  | update (endpoint : A)
  | remove
  deriving DecidableEq, Repr

/-- `EndpointUpdater`, with the address of the delayed update that is still to come and
the operations applied to the interface so far. -/
structure EndpointUpdater (A : Type) where
  initiator : Bool
  delayed : Option A
  applied : List (EndpointOp A)

variable {A : Type} (e : EndpointUpdater A)

namespace EndpointUpdater

/-- `updateWireGuardPeer` with an endpoint. -/
def updateWireGuardPeer (endpoint : A) : EndpointUpdater A :=
  { e with applied := e.applied ++ [.update endpoint] }

/-- `WgInterface.RemoveEndpointAddress`. -/
def removeFromInterface : EndpointUpdater A :=
  { e with applied := e.applied ++ [.remove] }

/-- The delayed update is dropped. -/
def waitForCloseTheDelayedUpdate : EndpointUpdater A :=
  { e with delayed := none }

/-- `configureAsResponder`; the immediate update carries no endpoint. -/
def configureAsResponder (addr : A) : EndpointUpdater A :=
  { e.waitForCloseTheDelayedUpdate with delayed := some addr }

/-- The endpoint is set, by the responder with a delay. -/
def configureWGEndpoint (addr : A) : EndpointUpdater A :=
  if e.initiator then e.updateWireGuardPeer addr else e.configureAsResponder addr

/-- The endpoint is set at once. -/
def switchWGEndpoint (addr : A) : EndpointUpdater A :=
  e.waitForCloseTheDelayedUpdate.updateWireGuardPeer addr

/-- The endpoint is removed. -/
def removeEndpointAddress : EndpointUpdater A :=
  e.waitForCloseTheDelayedUpdate.removeFromInterface

end EndpointUpdater

/-! ## The handlers -/

/-- The transports of an open connection.  A proxy is its endpoint address;
`iceEndpoint` is the address of the ICE connection that was made active last. -/
structure Conn (A : Type) where
  currentConnPriority : ConnPriority
  statusICE : Status
  statusRelay : Status
  statusI2PDatagram : Status
  wgProxyRelay : Option A
  wgProxyI2PDatagram : Option A
  iceEndpoint : Option A
  endpointUpdater : EndpointUpdater A

variable (conn : Conn A)

/-- `isController`: the controller is the initiator of the updater. -/
def Conn.isController : Bool := conn.endpointUpdater.initiator

/-- The peer is reached directly or through TURN. -/
def Conn.isICEActive : Bool :=
  (conn.currentConnPriority = .iceP2P || conn.currentConnPriority = .iceTurn) &&
    conn.statusICE = .connected

/-- The peer is reached by datagrams. -/
def Conn.isI2PDatagramActive : Bool :=
  conn.currentConnPriority = .i2pDatagram && conn.statusI2PDatagram = .connected

/-- `isReadyToUpgrade`, with the relay proxy it finds. -/
def Conn.isReadyToUpgrade : Option A :=
  if conn.currentConnPriority = .relay then none else conn.wgProxyRelay

/-- The controller removes the endpoint. -/
def Conn.resetEndpoint : Conn A :=
  if !conn.isController then conn
  else { conn with endpointUpdater := conn.endpointUpdater.removeEndpointAddress }

/-- The priorities of ICE connections. -/
inductive ICEPriority where
  | turn
  | p2p
  deriving DecidableEq, Repr

/-- The priority among all transports. -/
def ICEPriority.toConnPriority : ICEPriority → ConnPriority
  | .turn => .iceTurn
  | .p2p => .iceP2P

/-- ICE is there; it is used unless a better transport is. -/
def Conn.onICEConnectionIsReady (priority : ICEPriority) (ep : A) : Conn A :=
  if conn.currentConnPriority.rank > priority.toConnPriority.rank then
    { conn with statusICE := .connected }
  else
    { conn with
      endpointUpdater := conn.endpointUpdater.configureWGEndpoint ep
      iceEndpoint := some ep
      currentConnPriority := priority.toConnPriority
      statusICE := .connected }

/-- ICE is gone; another transport takes over if there is one. -/
def Conn.onICEStateDisconnected (sessionChanged : Bool) : Conn A :=
  match conn.isReadyToUpgrade with
  | some relay =>
    let conn := if sessionChanged then conn.resetEndpoint else conn
    { conn with
      endpointUpdater := conn.endpointUpdater.switchWGEndpoint relay
      currentConnPriority := .relay
      statusICE := .disconnected }
  | none =>
    -- straight to the interface: a delayed update is not stopped
    { conn with
      currentConnPriority := .none
      endpointUpdater := conn.endpointUpdater.removeFromInterface
      statusICE := .disconnected }

/-- The relay is there; it is used unless a better transport is. -/
def Conn.onRelayConnectionIsReady (ep : A) : Conn A :=
  if conn.isICEActive || conn.isI2PDatagramActive then
    { conn with wgProxyRelay := some ep, statusRelay := .connected }
  else
    { conn with
      endpointUpdater := conn.endpointUpdater.configureWGEndpoint ep
      currentConnPriority := .relay
      statusRelay := .connected
      wgProxyRelay := some ep }

/-- The relay is gone. -/
def Conn.handleRelayDisconnectedLocked : Conn A :=
  let conn :=
    if conn.currentConnPriority = .relay then
      { conn with
        currentConnPriority := .none
        endpointUpdater := conn.endpointUpdater.removeFromInterface }
    else conn
  { conn with wgProxyRelay := none, statusRelay := .disconnected }

/-- The datagrams are there; they are used unless ICE is. -/
def Conn.onI2PDatagramConnectionIsReady (ep : A) : Conn A :=
  if conn.currentConnPriority.rank > ConnPriority.i2pDatagram.rank then
    { conn with wgProxyI2PDatagram := some ep, statusI2PDatagram := .connected }
  else
    { conn with
      endpointUpdater := conn.endpointUpdater.configureWGEndpoint ep
      currentConnPriority := .i2pDatagram
      statusI2PDatagram := .connected
      wgProxyI2PDatagram := some ep }

/-- The relay proxy that `handleI2PDatagramDisconnectedLocked` can switch back to. -/
def Conn.connectedRelay : Option A :=
  if conn.statusRelay = .connected then conn.wgProxyRelay else none

/-- The datagrams are gone; a connected relay takes over. -/
def Conn.handleI2PDatagramDisconnectedLocked : Conn A :=
  let conn := { conn with wgProxyI2PDatagram := none, statusI2PDatagram := .disconnected }
  if conn.currentConnPriority = .i2pDatagram then
    match conn.connectedRelay with
    | some relay =>
      { conn with
        endpointUpdater := conn.endpointUpdater.switchWGEndpoint relay
        currentConnPriority := .relay }
    | none =>
      { conn with
        currentConnPriority := .none
        endpointUpdater := conn.endpointUpdater.removeFromInterface }
  else conn

/-! ## Runs -/

/-- The events of an open connection. -/
inductive Event (A : Type) where
  | iceReady (priority : ICEPriority) (ep : A)
  | iceDisconnected (sessionChanged : Bool)
  | relayReady (ep : A)
  | relayDisconnected
  | i2pReady (ep : A)
  | i2pDisconnected
  /-- the delayed update of the responder -/
  | delayedUpdate

/-- The handlers run one at a time, under the connection mutex. -/
def Conn.handle : Event A → Option (Conn A)
  | .iceReady priority ep => some (conn.onICEConnectionIsReady priority ep)
  | .iceDisconnected sessionChanged => some (conn.onICEStateDisconnected sessionChanged)
  | .relayReady ep => some (conn.onRelayConnectionIsReady ep)
  | .relayDisconnected => some conn.handleRelayDisconnectedLocked
  | .i2pReady ep => some (conn.onI2PDatagramConnectionIsReady ep)
  | .i2pDisconnected => some conn.handleI2PDatagramDisconnectedLocked
  | .delayedUpdate =>
    conn.endpointUpdater.delayed.map fun addr =>
      { conn with
        endpointUpdater :=
          conn.endpointUpdater.waitForCloseTheDelayedUpdate.updateWireGuardPeer addr }

/-- The step relation; the delayed update is a step only while it is to come. -/
def Step (e : Event A) (conn' : Conn A) : Prop := conn.handle e = some conn'

/-- An open connection without a transport and without an endpoint. -/
def openConn (initiator : Bool) : Conn A :=
  { currentConnPriority := .none
    statusICE := .disconnected
    statusRelay := .disconnected
    statusI2PDatagram := .disconnected
    wgProxyRelay := none
    wgProxyI2PDatagram := none
    iceEndpoint := none
    endpointUpdater := ⟨initiator, none, []⟩ }

/-! ## What is expected -/

/-- The endpoint of the transport that the current priority stands for. -/
def Conn.currentEndpoint : Option A :=
  match conn.currentConnPriority with
  | .none => none
  | .relay => conn.wgProxyRelay
  | .i2pDatagram => conn.wgProxyI2PDatagram
  | .iceTurn => conn.iceEndpoint
  | .iceP2P => conn.iceEndpoint

/-- Without a transport the last operation on the endpoint was its removal, and a delayed update
sets the endpoint of the current transport. -/
def Conn.EndpointInStep : Prop :=
  (conn.currentConnPriority = .none →
    ∀ op ∈ conn.endpointUpdater.applied.getLast?, op = .remove) ∧
  ∀ conn', Step conn .delayedUpdate conn' →
    ∃ addr, conn'.endpointUpdater.applied = conn.endpointUpdater.applied ++ [.update addr] ∧
      conn.currentEndpoint = some addr

/-- The handlers that leave the connection without a transport run only while no delayed
update is to come. -/
def RemovesInTime : Event A → Prop
  | .iceDisconnected _ => conn.isReadyToUpgrade = none → conn.endpointUpdater.delayed = none
  | .relayDisconnected => conn.currentConnPriority = .relay → conn.endpointUpdater.delayed = none
  | .i2pDisconnected =>
    conn.currentConnPriority = .i2pDatagram → conn.connectedRelay = none →
      conn.endpointUpdater.delayed = none
  | _ => True

/-! ## The invariant -/

/-- Only the responder delays updates; one to come is for the current transport, and without a
transport the endpoint is removed. -/
structure Conn.Good (conn : Conn A) : Prop where
  removed : conn.currentConnPriority = .none →
    ∀ op ∈ conn.endpointUpdater.applied.getLast?, op = .remove
  delayed : ∀ addr, conn.endpointUpdater.delayed = some addr → conn.currentEndpoint = some addr
  initiator : conn.endpointUpdater.initiator = true → conn.endpointUpdater.delayed = none

variable {conn : Conn A}

open Conn

theorem Conn.Good.inStep (h : conn.Good) : conn.EndpointInStep := by
  refine ⟨h.removed, fun conn' hstep => ?_⟩
  rw [Step, handle, Option.map_eq_some_iff] at hstep
  obtain ⟨addr, hdelayed, rfl⟩ := hstep
  exact ⟨addr, rfl, h.delayed addr hdelayed⟩

theorem good_openConn (initiator : Bool) : (openConn initiator : Conn A).Good := by
  refine ⟨fun _ op hop => ?_, fun addr h => ?_, fun _ => rfl⟩
  · exact absurd hop (by simp [openConn])
  · exact absurd h (by simp [openConn])

/-- A transport has become current, and no update is to come. -/
theorem good_of_undelayed (hprio : conn.currentConnPriority ≠ .none)
    (hdelayed : conn.endpointUpdater.delayed = none) : conn.Good := by
  refine ⟨fun h => absurd h hprio, fun addr h => ?_, fun _ => hdelayed⟩
  rw [hdelayed] at h
  exact absurd h (by simp)

theorem good_removed {e : EndpointUpdater A}
    (happlied : conn.endpointUpdater = e.removeFromInterface) (hdelayed : e.delayed = none) :
    conn.Good := by
  rw [EndpointUpdater.removeFromInterface] at happlied
  refine ⟨fun _ op hop => ?_, fun addr h => ?_, fun _ => ?_⟩
  · rw [happlied, List.getLast?_append, List.getLast?_singleton, Option.some_or,
      Option.mem_some_iff] at hop
    exact hop.symm
  · rw [happlied, hdelayed] at h
    exact absurd h (by simp)
  · rw [happlied]
    exact hdelayed

variable {conn' : Conn A}

/-- **A new transport.**  Whichever the role, after `ConfigureWGEndpoint` an update is to
come only for the new endpoint. -/
theorem good_configured (h : conn.Good) {ep : A}
    (hupdater : conn'.endpointUpdater = conn.endpointUpdater.configureWGEndpoint ep)
    (hprio : conn'.currentConnPriority ≠ .none) (hep : conn'.currentEndpoint = some ep) :
    conn'.Good := by
  unfold EndpointUpdater.configureWGEndpoint at hupdater
  split at hupdater
  next hi =>
    apply good_of_undelayed hprio
    rw [hupdater]
    exact h.initiator hi
  next hi =>
    refine ⟨fun hnone => absurd hnone hprio, fun addr hd => ?_, fun hinit => ?_⟩
    · rw [hupdater] at hd
      rw [hep]
      exact hd
    · rw [hupdater] at hinit
      exact absurd hinit hi

/-- An event that touches neither the updater nor the endpoint of the current transport. -/
theorem Conn.Good.congr (h : conn.Good) (hupdater : conn'.endpointUpdater = conn.endpointUpdater)
    (hprio : conn'.currentConnPriority = conn.currentConnPriority)
    (hep : conn'.currentEndpoint = conn.currentEndpoint) : conn'.Good := by
  refine ⟨?_, ?_, ?_⟩
  · rw [hprio, hupdater]
    exact h.removed
  · rw [hupdater, hep]
    exact h.delayed
  · rw [hupdater]
    exact h.initiator

theorem currentEndpoint_of_relay (conn : Conn A) (proxy : Option A) (status : Status)
    (hp : conn.currentConnPriority ≠ .relay) :
    currentEndpoint { conn with wgProxyRelay := proxy, statusRelay := status } =
      conn.currentEndpoint := by
  unfold currentEndpoint
  cases hprio : conn.currentConnPriority with
  | relay => exact absurd hprio hp
  | none | i2pDatagram | iceTurn | iceP2P => rfl

theorem currentEndpoint_of_i2p (conn : Conn A) (proxy : Option A) (status : Status)
    (hp : conn.currentConnPriority ≠ .i2pDatagram) :
    currentEndpoint { conn with wgProxyI2PDatagram := proxy, statusI2PDatagram := status } =
      conn.currentEndpoint := by
  unfold currentEndpoint
  cases hprio : conn.currentConnPriority with
  | i2pDatagram => exact absurd hprio hp
  | none | relay | iceTurn | iceP2P => rfl

/-! ## One step -/

section

variable (h : conn.Good)

include h

theorem Conn.Good.iceReady (priority : ICEPriority) (ep : A) :
    (conn.onICEConnectionIsReady priority ep).Good := by
  unfold onICEConnectionIsReady
  split
  · exact h.congr rfl rfl rfl
  · cases priority with
    | turn | p2p => exact good_configured h rfl ConnPriority.noConfusion rfl

omit h in
theorem Conn.Good.iceDisconnected {sessionChanged : Bool}
    (hok : RemovesInTime conn (.iceDisconnected sessionChanged)) :
    (conn.onICEStateDisconnected sessionChanged).Good := by
  unfold onICEStateDisconnected
  cases hready : conn.isReadyToUpgrade with
  | some relay => exact good_of_undelayed ConnPriority.noConfusion rfl
  | none => exact good_removed rfl (hok hready)

theorem Conn.Good.relayReady (ep : A) : (conn.onRelayConnectionIsReady ep).Good := by
  unfold onRelayConnectionIsReady
  split
  next hactive =>
    refine h.congr rfl rfl (currentEndpoint_of_relay conn _ _ ?_)
    -- the current transport is ICE or I2P
    intro hrelay
    simp [Conn.isICEActive, Conn.isI2PDatagramActive, hrelay] at hactive
  · exact good_configured h rfl ConnPriority.noConfusion rfl

theorem Conn.Good.relayDisconnected (hok : RemovesInTime conn .relayDisconnected) :
    conn.handleRelayDisconnectedLocked.Good := by
  unfold handleRelayDisconnectedLocked
  by_cases hp : conn.currentConnPriority = .relay
  · rw [if_pos hp]
    exact good_removed rfl (hok hp)
  · rw [if_neg hp]
    exact h.congr rfl rfl (currentEndpoint_of_relay conn _ _ hp)

theorem Conn.Good.i2pReady (ep : A) : (conn.onI2PDatagramConnectionIsReady ep).Good := by
  unfold onI2PDatagramConnectionIsReady
  split
  next hhigher =>
    refine h.congr rfl rfl (currentEndpoint_of_i2p conn _ _ ?_)
    intro hi2p
    rw [hi2p] at hhigher
    exact absurd hhigher (lt_irrefl _)
  · exact good_configured h rfl ConnPriority.noConfusion rfl

theorem Conn.Good.i2pDisconnected (hok : RemovesInTime conn .i2pDisconnected) :
    conn.handleI2PDatagramDisconnectedLocked.Good := by
  unfold handleI2PDatagramDisconnectedLocked
  by_cases hp : conn.currentConnPriority = .i2pDatagram
  · rw [if_pos hp]
    cases hrelay : conn.connectedRelay with
    | some relay =>
      rw [show connectedRelay { conn with
        wgProxyI2PDatagram := none, statusI2PDatagram := .disconnected } = some relay from hrelay]
      exact good_of_undelayed ConnPriority.noConfusion rfl
    | none =>
      rw [show connectedRelay { conn with
        wgProxyI2PDatagram := none, statusI2PDatagram := .disconnected } = none from hrelay]
      exact good_removed rfl (hok hp hrelay)
  · rw [if_neg hp]
    exact h.congr rfl rfl (currentEndpoint_of_i2p conn _ _ hp)

/-- An update for the current transport, which there is. -/
theorem Conn.Good.delayedUpdate {addr : A}
    (hdelayed : conn.endpointUpdater.delayed = some addr) : Good { conn with
      endpointUpdater :=
        conn.endpointUpdater.waitForCloseTheDelayedUpdate.updateWireGuardPeer addr } := by
  apply good_of_undelayed _ rfl
  intro hnone
  have hep := h.delayed addr hdelayed
  have hnone' : conn.currentConnPriority = .none := hnone
  simp [currentEndpoint, hnone'] at hep

/-- **One event.** -/
theorem Conn.Good.step {e : Event A} (hok : RemovesInTime conn e)
    (hstep : Step conn e conn') : conn'.Good := by
  cases e with
  | iceReady priority ep =>
    cases hstep
    exact h.iceReady priority ep
  | iceDisconnected sessionChanged =>
    cases hstep
    exact Good.iceDisconnected hok
  | relayReady ep =>
    cases hstep
    exact h.relayReady ep
  | relayDisconnected =>
    cases hstep
    exact h.relayDisconnected hok
  | i2pReady ep =>
    cases hstep
    exact h.i2pReady ep
  | i2pDisconnected =>
    cases hstep
    exact h.i2pDisconnected hok
  | delayedUpdate =>
    rw [Step, handle, Option.map_eq_some_iff] at hstep
    obtain ⟨addr, hdelayed, rfl⟩ := hstep
    exact h.delayedUpdate hdelayed

end

open Transition

/-- **No transport, no endpoint.** If the handlers that leave the connection without a transport run
only while no delayed update is to come, a connection without transport has no endpoint operation
after its last removal, and every delayed update is for the current transport. -/
theorem no_transport_no_endpoint (initiator : Bool) (events : List (Event A)) (conn : Conn A)
    (hrun : Run Step RemovesInTime (openConn initiator) events conn) :
    conn.EndpointInStep := by
  apply Good.inStep
  refine hrun.invariant (P := fun _ conn => conn.Good) (good_openConn initiator) ?_
  intro _ conn e conn' h hok hstep
  exact h.step hok hstep

/-- The responder of a relay connection that lives longer than the delay. -/
theorem endpoint_in_step_after_relay :
    ∃ conn : Conn ℕ, Run Step RemovesInTime (openConn false)
      [.relayReady 1, .delayedUpdate, .relayDisconnected] conn ∧
        conn.currentConnPriority = .none ∧ conn.EndpointInStep := by
  have hrun : Run Step RemovesInTime (openConn false : Conn ℕ)
      [.relayReady 1, .delayedUpdate, .relayDisconnected] _ :=
    .go rfl (.go rfl (.cons (fun _ => rfl) rfl .nil))
  exact ⟨_, hrun, rfl, no_transport_no_endpoint _ _ _ hrun⟩

/-- The relay of a responder is lost before the delay is over: the update sets the endpoint of a
connection without transport. -/
theorem stale_update_after_relay_lost : ¬ ∀ (events : List (Event ℕ)) (conn : Conn ℕ),
      Run Step (fun _ _ => True) (openConn false) events conn → conn.EndpointInStep := by
  intro h
  have hrun : Run Step (fun _ _ => True) (openConn false : Conn ℕ)
      [.relayReady 1, .relayDisconnected, .delayedUpdate] _ :=
    .go rfl (.go rfl (.go rfl .nil))
  have hlast := (h _ _ hrun).1 rfl (.update 1) rfl
  exact absurd hlast (by decide)

end WgEndpoint
