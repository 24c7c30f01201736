/-
# The active transport of a peer connection

Model of the handlers of `client/internal/peer/conn.go` that switch a peer between the relay and
the direct I2P datagram transport, over the proxies of `client/iface/wgproxy/bind/proxy.go` and
the endpoint table of `client/iface/bind/ice_bind.go`.  All proxies of a peer stand under one fake
address in the table: `Work` writes the connection of its proxy there, and closing a proxy deletes
the entry, whoever wrote it.  The handlers run under the lock of the connection.

Left out are the WireGuard configuration (which is taken to succeed), the watcher, the retry timer,
the status recorder and the log.
-/
import AnonBird.GoMap
import AnonBird.NetIP

open GoStrings NetIP
open GoMap hiding get set

namespace ActiveTransport

/-- The transports, from the least preferred on. -/
inductive ConnPriority where
  | none
  | relay
  | i2pDatagram
  | iceTurn
  | iceP2P
  deriving DecidableEq

/-- The number of a priority. -/
def ConnPriority.rank : ConnPriority → ℕ
  | .none => 0
  | .relay => 1
  | .i2pDatagram => 2
  | .iceTurn => 3
  | .iceP2P => 4

/-- The state of one transport. -/
inductive Status where
  | disconnected
  | connected
  deriving DecidableEq

/-- `ProxyBind`; a closed proxy is dropped by everyone who closes it. -/
structure ProxyBind (R : Type) where
  wgRelayedEndpoint : Addr
  remoteConn : R
  closed : Bool
  paused : Bool
  isStarted : Bool

/-- The fields of `Conn` that the handlers share, with the endpoint table of the bind. -/
structure Conn (R : Type) where
  allowedIP : Addr
  currentConnPriority : ConnPriority
  statusICE : Status
  statusRelay : Status
  statusI2PDatagram : Status
  wgProxyRelay : Option (ProxyBind R)
  wgProxyI2PDatagram : Option (ProxyBind R)
  endpoints : List (Addr × R)

variable {R : Type}

/-! ## Proxies -/

/-- `fakeAddress`: 127.1 and the last two bytes of the address of the peer. -/
def fakeAddress (peerAddress : Addr) : Addr :=
  let raw := peerAddress.unmap.as16
  .v4 (BitVec.ofNat 32 (bigEndian [127, 1, byteAt raw 14, byteAt raw 15]))

variable (conn : Conn R)

/-- A proxy for a remote connection, at the fake address of the peer. -/
def Conn.newProxy (remoteConn : R) : ProxyBind R :=
  ⟨fakeAddress conn.allowedIP, remoteConn, false, false, false⟩

/-- The proxy after `Work`. -/
def ProxyBind.work (p : ProxyBind R) : ProxyBind R := { p with paused := false, isStarted := true }

/-- The proxy after `Pause`. -/
def ProxyBind.pause (p : ProxyBind R) : ProxyBind R := { p with paused := true }

/-- What `Work` does to the bind. -/
def Conn.setEndpoint (p : ProxyBind R) : Conn R :=
  { conn with endpoints := GoMap.set conn.endpoints p.wgRelayedEndpoint p.remoteConn }

/-- What `CloseConn` does to the bind. -/
def Conn.closeConn (p : ProxyBind R) : Conn R :=
  if p.closed then conn
  else { conn with endpoints := erase conn.endpoints p.wgRelayedEndpoint }

/-- `CloseConn` on a proxy that may be nil. -/
def Conn.closeProxy : Option (ProxyBind R) → Conn R
  | none => conn
  | some p => conn.closeConn p

/-- The proxy of the relay is replaced, the old one closed. -/
def Conn.setRelayedProxy (proxy : ProxyBind R) : Conn R :=
  { conn.closeProxy conn.wgProxyRelay with wgProxyRelay := some proxy }

/-- The proxy of the datagrams is replaced, the old one closed. -/
def Conn.setI2PDatagramProxy (proxy : ProxyBind R) : Conn R :=
  { conn.closeProxy conn.wgProxyI2PDatagram with wgProxyI2PDatagram := some proxy }

/-! ## Handlers -/

/-- The peer is reached directly or through TURN. -/
def Conn.isICEActive : Bool :=
  (conn.currentConnPriority = .iceP2P || conn.currentConnPriority = .iceTurn) &&
    conn.statusICE = .connected

/-- The peer is reached by datagrams. -/
def Conn.isI2PDatagramActive : Bool :=
  conn.currentConnPriority = .i2pDatagram && conn.statusI2PDatagram = .connected

open Conn

/-- The relay is there; it is used unless a better transport is. -/
def Conn.onRelayConnectionIsReady (remoteConn : R) : Conn R :=
  let wgProxy := conn.newProxy remoteConn
  if conn.isICEActive || conn.isI2PDatagramActive then
    { conn.setRelayedProxy wgProxy with statusRelay := .connected }
  else
    let conn := conn.setEndpoint wgProxy
    -- the proxy that is replaced is closed after the new one was put to work
    setRelayedProxy
      { conn with currentConnPriority := .relay, statusRelay := .connected } wgProxy.work

/-- The datagrams are there; they are used unless ICE is. -/
def Conn.onI2PDatagramConnectionIsReady (remoteConn : R) : Conn R :=
  let wgProxy := conn.newProxy remoteConn
  if conn.currentConnPriority.rank > ConnPriority.i2pDatagram.rank then
    { conn.setI2PDatagramProxy wgProxy with statusI2PDatagram := .connected }
  else
    let conn := { conn with wgProxyRelay := conn.wgProxyRelay.map ProxyBind.pause }
    let conn := conn.setEndpoint wgProxy
    setI2PDatagramProxy
      { conn with currentConnPriority := .i2pDatagram, statusI2PDatagram := .connected }
      wgProxy.work

/-- The relay is gone. -/
def Conn.handleRelayDisconnectedLocked : Conn R :=
  let conn :=
    if conn.currentConnPriority = .relay then { conn with currentConnPriority := .none } else conn
  -- whichever transport is active, the proxy takes the shared entry with it
  { conn.closeProxy conn.wgProxyRelay with wgProxyRelay := none, statusRelay := .disconnected }

/-- The datagrams are gone; a connected relay takes over. -/
def Conn.handleI2PDatagramDisconnectedLocked : Conn R :=
  let conn :=
    { conn.closeProxy conn.wgProxyI2PDatagram with
      wgProxyI2PDatagram := none, statusI2PDatagram := .disconnected }
  if conn.currentConnPriority = .i2pDatagram then
    match conn.wgProxyRelay with
    | some p =>
      if conn.statusRelay = .connected then
        { conn.setEndpoint p with wgProxyRelay := some p.work, currentConnPriority := .relay }
      else { conn with currentConnPriority := .none }
    | none => { conn with currentConnPriority := .none }
  else conn

/-- `onWGDisconnected`; the ICE worker is not part of the model. -/
def Conn.onWGDisconnected : Conn R :=
  match conn.currentConnPriority with
  | .relay => conn.handleRelayDisconnectedLocked
  | .i2pDatagram => conn.handleI2PDatagramDisconnectedLocked
  | _ => conn

/-- The events of an open connection. -/
inductive Event (R : Type) where
  | relayReady (remoteConn : R)
  | relayDisconnected
  | i2pReady (remoteConn : R)
  | i2pDisconnected
  | wgTimeout

/-- The connection after an event. -/
def Conn.handle : Event R → Conn R
  | .relayReady remoteConn => conn.onRelayConnectionIsReady remoteConn
  | .relayDisconnected => conn.handleRelayDisconnectedLocked
  | .i2pReady remoteConn => conn.onI2PDatagramConnectionIsReady remoteConn
  | .i2pDisconnected => conn.handleI2PDatagramDisconnectedLocked
  | .wgTimeout => conn.onWGDisconnected

/-- An open connection in I2P datagram mode, before its first transport. -/
def Conn.opened (allowedIP : Addr) (endpoints : List (Addr × R)) : Conn R :=
  ⟨allowedIP, .none, .disconnected, .disconnected, .disconnected, none, none, endpoints⟩

/-! ## What is expected -/

/-- The priority that the connected transports ask for. -/
def Conn.expectedPriority : ConnPriority :=
  if conn.statusI2PDatagram = .connected then .i2pDatagram
  else if conn.statusRelay = .connected then .relay
  else .none

/-- The proxy of the transport that is active. -/
def Conn.activeProxy : Option (ProxyBind R) :=
  match conn.currentConnPriority with
  | .relay => conn.wgProxyRelay
  | .i2pDatagram => conn.wgProxyI2PDatagram
  | _ => none

/-- The best connected transport is active, and the endpoint table leads to its remote connection.
-/
def Conn.ActiveCarries : Prop :=
  conn.currentConnPriority = conn.expectedPriority ∧
  (conn.currentConnPriority ≠ .none → ∃ p, conn.activeProxy = some p ∧
    GoMap.get conn.endpoints (fakeAddress conn.allowedIP) = some p.remoteConn ∧
    p.paused = false ∧ p.closed = false)

/-- No proxy is closed under the active transport: a transport gets ready only while it has no
proxy, and the relay disconnects only while it is active or has none. -/
def Conn.Undisturbed : Event R → Prop
  | .relayReady _ => conn.wgProxyRelay = none
  | .i2pReady _ => conn.wgProxyI2PDatagram = none
  | .relayDisconnected => conn.wgProxyRelay = none ∨ conn.currentConnPriority ≠ .i2pDatagram
  | .i2pDisconnected => True
  | .wgTimeout => True

/-! ## The invariant -/

/-- A proxy that is stored: open, and under the fake address of the peer. -/
def Conn.Stored (p : ProxyBind R) : Prop :=
  p.wgRelayedEndpoint = fakeAddress conn.allowedIP ∧ p.closed = false

/-- The status of a transport with this proxy. -/
def statusOf : Option (ProxyBind R) → Status
  | none => .disconnected
  | some _ => .connected

/-- A connection that was never disturbed: connected transports have proxies, and the active one
carries the traffic. -/
structure Conn.Good (conn : Conn R) : Prop where
  relay : conn.statusRelay = statusOf conn.wgProxyRelay
  i2p : conn.statusI2PDatagram = statusOf conn.wgProxyI2PDatagram
  storedRelay : ∀ p, conn.wgProxyRelay = some p → conn.Stored p
  storedI2P : ∀ p, conn.wgProxyI2PDatagram = some p → conn.Stored p
  carries : conn.ActiveCarries

/-- Without a transport there is nothing to carry. -/
theorem good_idle (allowedIP : Addr) (sICE : Status) (endpoints : List (Addr × R)) :
    Good ⟨allowedIP, .none, sICE, .disconnected, .disconnected, none, none, endpoints⟩ := by
  refine ⟨rfl, rfl, ?_, ?_, rfl, ?_⟩
  · rintro p ⟨⟩
  · rintro p ⟨⟩
  · intro hne
    exact absurd rfl hne

variable {p : ProxyBind R}

/-- The state in which the relay is the only transport. -/
theorem good_relayOnly {allowedIP : Addr} {sICE : Status} {endpoints : List (Addr × R)}
    (hst : p.wgRelayedEndpoint = fakeAddress allowedIP ∧ p.closed = false)
    (hget : GoMap.get endpoints (fakeAddress allowedIP) = some p.remoteConn)
    (hpaused : p.paused = false) :
    Good ⟨allowedIP, .relay, sICE, .connected, .disconnected, some p, none, endpoints⟩ := by
  refine ⟨rfl, rfl, ?_, ?_, rfl, ?_⟩
  · rintro p' ⟨⟩
    exact hst
  · rintro p' ⟨⟩
  · intro _
    exact ⟨p, rfl, hget, hpaused, hst.2⟩

variable {conn : Conn R}

/-- A relay connection with the I2P transport active is only stored; without it the
new proxy is put to work. -/
theorem good_relayReady (hg : conn.Good) (hnone : conn.wgProxyRelay = none) (remoteConn : R) :
    (conn.onRelayConnectionIsReady remoteConn).Good := by
  obtain ⟨allowedIP, priority, sICE, sRelay, sI2P, relay, i2p, endpoints⟩ := conn
  obtain ⟨hrelay, hi2p, hstR, hstI, hprio, hact⟩ := hg
  dsimp only at hnone hrelay hi2p hstR hstI
  subst hnone hrelay hi2p
  -- the proxies determine the statuses, and these the priority
  cases i2p with
  | none =>
    obtain rfl : priority = .none := hprio
    refine ⟨rfl, rfl, ?_, ?_, rfl, ?_⟩
    · rintro p ⟨⟩
      exact ⟨rfl, rfl⟩
    · rintro p ⟨⟩
    · intro _
      exact ⟨_, rfl, get_set_self, rfl, rfl⟩
  | some q =>
    obtain rfl : priority = .i2pDatagram := hprio
    refine ⟨rfl, rfl, ?_, ?_, rfl, ?_⟩
    · rintro p ⟨⟩
      exact ⟨rfl, rfl⟩
    · rintro p ⟨⟩
      exact hstI q rfl
    · intro hne
      exact hact hne

/-- The I2P transport becomes the active one, over a relay that is paused. -/
theorem good_i2pReady (hg : conn.Good) (hnone : conn.wgProxyI2PDatagram = none) (remoteConn : R) :
    (conn.onI2PDatagramConnectionIsReady remoteConn).Good := by
  obtain ⟨allowedIP, priority, sICE, sRelay, sI2P, relay, i2p, endpoints⟩ := conn
  obtain ⟨hrelay, hi2p, hstR, hstI, hprio, hact⟩ := hg
  dsimp only at hnone hrelay hi2p hstR hstI
  subst hnone hrelay hi2p
  cases relay with
  | none =>
    obtain rfl : priority = .none := hprio
    refine ⟨rfl, rfl, ?_, ?_, rfl, ?_⟩
    · rintro p ⟨⟩
    · rintro p ⟨⟩
      exact ⟨rfl, rfl⟩
    · intro _
      exact ⟨_, rfl, get_set_self, rfl, rfl⟩
  | some p =>
    obtain rfl : priority = .relay := hprio
    refine ⟨rfl, rfl, ?_, ?_, rfl, ?_⟩
    · rintro p' ⟨⟩
      exact hstR p rfl
    · rintro p' ⟨⟩
      exact ⟨rfl, rfl⟩
    · intro _
      exact ⟨_, rfl, get_set_self, rfl, rfl⟩

/-- The relay may go while it is not paused under the I2P transport. -/
theorem good_relayDisconnected (hg : conn.Good) (hok : conn.Undisturbed .relayDisconnected) :
    conn.handleRelayDisconnectedLocked.Good := by
  obtain ⟨allowedIP, priority, sICE, sRelay, sI2P, relay, i2p, endpoints⟩ := conn
  obtain ⟨hrelay, hi2p, hstR, hstI, hprio, hact⟩ := hg
  dsimp only at hrelay hi2p hstR hstI
  subst hrelay hi2p
  cases i2p with
  | some q =>
    obtain rfl : priority = .i2pDatagram := hprio
    -- with the I2P transport active there is no relay proxy to close
    obtain rfl : relay = none := hok.resolve_right fun hne => hne rfl
    refine ⟨rfl, rfl, ?_, ?_, rfl, ?_⟩
    · rintro p ⟨⟩
    · rintro p ⟨⟩
      exact hstI q rfl
    · intro hne
      exact hact hne
  | none =>
    cases relay with
    | none =>
      obtain rfl : priority = .none := hprio
      exact good_idle allowedIP sICE endpoints
    | some p =>
      obtain rfl : priority = .relay := hprio
      have hnew : handleRelayDisconnectedLocked
          ⟨allowedIP, .relay, sICE, .connected, .disconnected, some p, none, endpoints⟩
          = ⟨allowedIP, .none, sICE, .disconnected, .disconnected, none, none,
              erase endpoints p.wgRelayedEndpoint⟩ := by
        simp [handleRelayDisconnectedLocked, closeProxy, closeConn, (hstR p rfl).2]
      exact hnew ▸ good_idle allowedIP sICE _

/-- Without an I2P transport its disconnection changes nothing. -/
theorem i2pDisconnected_of_none (hslot : conn.wgProxyI2PDatagram = none)
    (hstatus : conn.statusI2PDatagram = .disconnected)
    (hprio : conn.currentConnPriority ≠ .i2pDatagram) :
    conn.handleI2PDatagramDisconnectedLocked = conn := by
  obtain ⟨allowedIP, priority, sICE, sRelay, sI2P, relay, i2p, endpoints⟩ := conn
  subst hslot hstatus
  exact if_neg hprio

theorem good_i2pDisconnected (hg : conn.Good) : conn.handleI2PDatagramDisconnectedLocked.Good := by
  cases hslot : conn.wgProxyI2PDatagram with
  | none =>
    have hstatus : conn.statusI2PDatagram = .disconnected := by
      rw [hg.i2p, hslot]
      rfl
    have hprio : conn.currentConnPriority ≠ .i2pDatagram := by
      rw [hg.carries.1, expectedPriority, hstatus]
      simp only [reduceCtorEq, if_false]
      split <;> simp
    rw [i2pDisconnected_of_none hslot hstatus hprio]
    exact hg
  | some q =>
    obtain ⟨allowedIP, priority, sICE, sRelay, sI2P, relay, i2p, endpoints⟩ := conn
    obtain ⟨hrelay, hi2p, hstR, hstI, hprio, hact⟩ := hg
    dsimp only at hslot hrelay hi2p hstR hstI
    subst hslot hrelay hi2p
    obtain rfl : priority = .i2pDatagram := hprio
    have hclosed := (hstI q rfl).2
    cases relay with
    | none =>
      have hnew : handleI2PDatagramDisconnectedLocked
          ⟨allowedIP, .i2pDatagram, sICE, .disconnected, .connected, none, some q, endpoints⟩
          = ⟨allowedIP, .none, sICE, .disconnected, .disconnected, none, none,
              erase endpoints q.wgRelayedEndpoint⟩ := by
        simp [handleI2PDatagramDisconnectedLocked, closeProxy, closeConn, hclosed]
      exact hnew ▸ good_idle allowedIP sICE _
    | some p =>
      have hst : p.wgRelayedEndpoint = fakeAddress allowedIP ∧ p.closed = false := hstR p rfl
      have hnew : handleI2PDatagramDisconnectedLocked
          ⟨allowedIP, .i2pDatagram, sICE, .connected, .connected, some p, some q, endpoints⟩
          = ⟨allowedIP, .relay, sICE, .connected, .disconnected, some p.work, none,
              GoMap.set (erase endpoints q.wgRelayedEndpoint) p.wgRelayedEndpoint
                p.remoteConn⟩ := by
        simp [handleI2PDatagramDisconnectedLocked, closeProxy, closeConn,
          setEndpoint, hclosed]
      refine hnew ▸ good_relayOnly hst ?_ rfl
      rw [hst.1]
      exact get_set_self

/-- **One event.**  An undisturbed event keeps the invariant. -/
theorem good_handle (hg : conn.Good) {e : Event R} (hok : conn.Undisturbed e) :
    (conn.handle e).Good := by
  cases e with
  | relayReady remoteConn => exact good_relayReady hg hok remoteConn
  | relayDisconnected => exact good_relayDisconnected hg hok
  | i2pReady remoteConn => exact good_i2pReady hg hok remoteConn
  | i2pDisconnected => exact good_i2pDisconnected hg
  | wgTimeout =>
    show conn.onWGDisconnected.Good
    rw [onWGDisconnected]
    split
    next hrelay =>
      refine good_relayDisconnected hg (.inr ?_)
      rw [hrelay]
      simp
    · exact good_i2pDisconnected hg
    · exact hg

/-! ## Disturbed events -/

theorem not_carries_of_get_none (hactive : conn.currentConnPriority ≠ .none)
    (hget : GoMap.get conn.endpoints (fakeAddress conn.allowedIP) = none) :
    ¬ conn.ActiveCarries := by
  rintro ⟨_, hcarries⟩
  obtain ⟨p, _, hp, _⟩ := hcarries hactive
  rw [hget] at hp
  simp at hp

/-- A stored proxy that is closed takes the entry of the peer with it. -/
theorem closeConn_of_stored (hst : conn.Stored p) : conn.closeConn p =
      { conn with endpoints := erase conn.endpoints (fakeAddress conn.allowedIP) } := by
  rw [closeConn, if_neg (by simp [hst.2]), hst.1]

theorem setRelayedProxy_of_stored (proxy : ProxyBind R) (hp : conn.wgProxyRelay = some p)
    (hst : conn.Stored p) : conn.setRelayedProxy proxy = { conn with
        endpoints := erase conn.endpoints (fakeAddress conn.allowedIP)
        wgProxyRelay := some proxy } := by
  rw [setRelayedProxy, hp, closeProxy, closeConn_of_stored hst]

theorem setI2PDatagramProxy_of_stored {q : ProxyBind R} (proxy : ProxyBind R)
    (hq : conn.wgProxyI2PDatagram = some q) (hst : conn.Stored q) : conn.setI2PDatagramProxy proxy =
      { conn with
        endpoints := erase conn.endpoints (fakeAddress conn.allowedIP)
        wgProxyI2PDatagram := some proxy } := by
  rw [setI2PDatagramProxy, hq, closeProxy, closeConn_of_stored hst]

section

variable (hg : conn.Good)

include hg

theorem active_of_relay (hp : conn.wgProxyRelay = some p) :
    conn.currentConnPriority ≠ .none := by
  have hstatus : conn.statusRelay = .connected := by
    rw [hg.relay, hp]
    rfl
  rw [hg.carries.1, expectedPriority, hstatus]
  split <;> simp

/-- The replaced relay proxy is closed last, after the new one was put to work. -/
theorem relayReady_disturbs (hp : conn.wgProxyRelay = some p) (remoteConn : R) :
    ¬ (conn.onRelayConnectionIsReady remoteConn).ActiveCarries := by
  have hst := hg.storedRelay p hp
  have hactive := active_of_relay hg hp
  rw [onRelayConnectionIsReady]
  split
  · rw [setRelayedProxy_of_stored _ hp hst]
    exact not_carries_of_get_none hactive get_erase_self
  · rw [setRelayedProxy_of_stored (p := p)]
    · refine not_carries_of_get_none ?_ get_erase_self
      simp
    · exact hp
    · exact hst

/-- The replaced I2P proxy is closed last, too. -/
theorem i2pReady_disturbs {q : ProxyBind R}
    (hq : conn.wgProxyI2PDatagram = some q) (remoteConn : R) :
    ¬ (conn.onI2PDatagramConnectionIsReady remoteConn).ActiveCarries := by
  have hst := hg.storedI2P q hq
  have hprio : conn.currentConnPriority = .i2pDatagram := by
    rw [hg.carries.1, expectedPriority, hg.i2p, hq]
    rfl
  rw [onI2PDatagramConnectionIsReady, hprio, if_neg (by decide)]
  rw [setI2PDatagramProxy_of_stored (q := q)]
  · refine not_carries_of_get_none ?_ get_erase_self
    simp
  · exact hq
  · exact hst

/-- The relay proxy that goes takes the entry of the active I2P transport with it. -/
theorem relayDisconnected_disturbs (hp : conn.wgProxyRelay = some p)
    (hprio : conn.currentConnPriority = .i2pDatagram) :
    ¬ conn.handleRelayDisconnectedLocked.ActiveCarries := by
  have hst := hg.storedRelay p hp
  rw [handleRelayDisconnectedLocked, if_neg (by simp [hprio]), hp, closeProxy,
    closeConn_of_stored hst]
  refine not_carries_of_get_none ?_ get_erase_self
  simp [hprio]

/-- Every disturbed event leaves the active transport without the traffic. -/
theorem not_carries_handle {e : Event R} (hbad : ¬ conn.Undisturbed e) :
    ¬ (conn.handle e).ActiveCarries := by
  cases e with
  | relayReady remoteConn =>
    obtain ⟨p, hp⟩ := Option.ne_none_iff_exists'.mp hbad
    exact relayReady_disturbs hg hp remoteConn
  | relayDisconnected =>
    obtain ⟨hslot, hprio⟩ := not_or.mp hbad
    obtain ⟨p, hp⟩ := Option.ne_none_iff_exists'.mp hslot
    exact relayDisconnected_disturbs hg hp (not_not.mp hprio)
  | i2pReady remoteConn =>
    obtain ⟨q, hq⟩ := Option.ne_none_iff_exists'.mp hbad
    exact i2pReady_disturbs hg hq remoteConn
  | i2pDisconnected | wgTimeout => exact absurd trivial hbad

end

/-! ## Runs -/

/-- The connection after a sequence of events. -/
def Conn.run (conn : Conn R) (events : List (Event R)) : Conn R := events.foldl handle conn

/-- From a good state, the active transport carries the traffic after every event
exactly when no event disturbs it. -/
theorem carries_iff_of_good (events : List (Event R)) : ∀ conn : Conn R, conn.Good →
    ((∀ n, (conn.run (events.take n)).ActiveCarries) ↔
      ∀ n e, events[n]? = some e → (conn.run (events.take n)).Undisturbed e) := by
  induction events with
  | nil =>
    intro conn hg
    constructor
    · intro _ n e he
      simp at he
    · intro _ n
      rw [List.take_nil]
      exact hg.carries
  | cons e events ih =>
    intro conn hg
    by_cases hok : conn.Undisturbed e
    · have hrest := ih (conn.handle e) (good_handle hg hok)
      constructor
      · intro hall n e' he'
        cases n with
        | zero =>
          obtain rfl : e = e' := by simpa using he'
          exact hok
        | succ n => exact hrest.mp (fun k => hall (k + 1)) n e' (by simpa using he')
      · intro hall n
        cases n with
        | zero => exact hg.carries
        | succ n => exact hrest.mpr (fun k e' he' => hall (k + 1) e' (by simpa using he')) n
    · -- the first disturbed event shows at once, so both sides fail here
      constructor
      · intro hall
        exact absurd (hall 1) (not_carries_handle hg hok)
      · intro hall
        exact absurd (hall 0 e rfl) hok

/-- **The active transport carries the traffic** after each event if and only if no event closes a
proxy under the active transport. -/
theorem active_carries_iff_undisturbed (allowedIP : Addr) (endpoints : List (Addr × R))
    (events : List (Event R)) :
    (∀ n, ((opened allowedIP endpoints).run (events.take n)).ActiveCarries) ↔
      ∀ n e, events[n]? = some e →
        ((opened allowedIP endpoints).run (events.take n)).Undisturbed e :=
  carries_iff_of_good events _ (good_idle allowedIP _ endpoints)

/-- The relay disconnects while the I2P transport is active, which stays so without an entry in the
endpoint table. -/
theorem relay_disconnect_cuts_i2p : ¬ ((opened (.v4 0x64500014) []).run
      [.relayReady 1, .i2pReady 2, .relayDisconnected]).ActiveCarries ∧
    ((opened (.v4 0x64500014) []).run
      [.relayReady 1, .i2pReady 2, .relayDisconnected]).currentConnPriority = .i2pDatagram ∧
    ((opened (.v4 0x64500014) []).run
      [.relayReady 1, .i2pReady 2, .relayDisconnected]).endpoints = [] := by
  refine ⟨?_, ?_, ?_⟩
  · exact not_carries_of_get_none (by decide) (by decide)
  · decide
  · decide

end ActiveTransport
