/-
# The relay client

Model of the connections of a running relay client (`shared/relay/client/client.go`,
`peer_subscription.go` and `early_msg_buffer.go`).  A call is a sequence of critical sections, of
writes to the relay connection and of waits; each of these is one step, and the steps of different
calls and of the read loop interleave.

`mu` protects the connections and their counts; a close holds it while it unsubscribes, so its
holder is part of the state.  The other locks are held for one step only.
-/
import AnonBird.RelayFrames
import AnonBird.Transition

open GoStrings RelayMessages
open Relay (ConnKey)

namespace RelayClient

export GoMap (get set)

/-! ## State -/

/-- A message that was read from the relay connection; `seq` is its place among them. -/
structure Msg where
  seq : ℕ
  payload : Bytes
  deriving DecidableEq

/-- How far `OpenConnChannel` has come. -/
inductive Phase where
  /-- Registered; the message from the early buffer is to be written. -/
  | flushing (earlyMsg : Msg) (alreadySubscribed : Bool)
  /-- To enter `WaitToBeOnlineAndSubscribe`. -/
  | entering
  /-- Waiting and listening are noted; the subscription is to be sent. -/
  | subscribing
  /-- The subscription could not be sent. -/
  | subscribeFailed
  /-- In the `select` on the peer coming online and the timeout. -/
  | waiting
  /-- The wait timed out; the end of the subscription is to be sent. -/
  | timedOut
  /-- It was sent; the waiting is to be removed. -/
  | unsubscribed
  /-- The wait failed; the connection is to be removed. -/
  | failing
  /-- The connection was removed; its container is to be closed. -/
  | closing
  /-- The connection is to be counted. -/
  | counting
  /-- Counted; the call is to look once more whether the client is running. -/
  | confirming
  /-- The connection was returned. -/
  | opened
  /-- An error was returned. -/
  | failed
  deriving DecidableEq

/-- A call of `OpenConnChannel` with its `connContainer`.  The channel of the container is
`messages`; `written` are all messages that were put on it. -/
structure Call where
  key : ConnKey
  phase : Phase
  messages : List Msg
  written : List Msg
  closed : Bool
  deriving DecidableEq

/-- What of an unsubscription under the lock is still to come. -/
inductive Stage where
  | write
  | state
  | finish
  deriving DecidableEq

/-- Who holds the lock of the client across several steps. -/
inductive Holder where
  /-- `closeConn` of a connection, which is the last one that was counted. -/
  | closeConn (r : ℕ) (stage : Stage)
  /-- `closeConnsByPeerID` -/
  | closeConnsByPeerID (peerIDs : List PeerID) (stage : Stage)
  deriving DecidableEq

/-- Messages about the subscription that were sent to the server. -/
inductive StateMsg where
  | subscribe (peerID : PeerID)
  | unsubscribe (peerIDs : List PeerID)
  deriving DecidableEq

/-- The read loop. -/
inductive Reader where
  | idle
  /-- A message of a peer, with the container that was found for it. -/
  | transport (key : ConnKey) (container : Option ℕ) (msg : Msg)
  /-- Peers that went offline and that are listened for. -/
  | offline (peerIDs : List PeerID)
  deriving DecidableEq

/-- A running client. Calls, containers and wait channels are named by one number. A wait channel is
in `signalled` after a value was put on it, and in `cancelled` after it was closed without one. -/
structure Client where
  conns : List (ConnKey × ℕ)
  peerConnRefs : List (PeerID × ℕ)
  earlyMsgs : List (ConnKey × Msg)
  listenForOfflinePeers : List PeerID
  waitingPeers : List (PeerID × ℕ)
  signalled : List ℕ
  cancelled : List ℕ
  sent : List StateMsg
  calls : List (ℕ × Call)
  reader : Reader
  mu : Option Holder
  received : ℕ

/-- A client after `Connect`. -/
def connected : Client := ⟨[], [], [], [], [], [], [], [], [], .idle, none, 0⟩

/-! ## Containers and the early buffer -/

/-- How many messages wait for a connection. -/
def connChannelSize : ℕ := 100
/-- How many messages wait for connections to be opened. -/
def earlyMsgCapacity : ℕ := 1000

/-- `writeMsg`: a message that finds the channel full is dropped. -/
def Call.writeMsg (cc : Call) (msg : Msg) : Call :=
  if cc.closed then cc
  else if cc.messages.length < connChannelSize then
    { cc with messages := cc.messages ++ [msg], written := cc.written ++ [msg] }
  else cc

/-- `connContainer.close`: the messages on the channel are freed. -/
def Call.close (cc : Call) : Call := { cc with closed := true, messages := [] }

open GoMap

/-- `putKey`; the oldest entry is in front. -/
def putKey (earlyMsgs : List (ConnKey × Msg)) (key : ConnKey) (msg : Msg) :
    List (ConnKey × Msg) :=
  let order := erase earlyMsgs key
  if order.length ≥ earlyMsgCapacity then order else order ++ [(key, msg)]

/-! ## Parts of steps -/

variable (c : Client)

/-- `c.peerConnRefs[peerID]`. -/
def Client.refs (peerID : PeerID) : ℕ := (get c.peerConnRefs peerID).getD 0

/-- The client with a call in a state. -/
def Client.setCall (r : ℕ) (call : Call) : Client :=
  { c with calls := set c.calls r call }

/-- What comes after the registration and the early message. -/
def afterRegistration (alreadySubscribed : Bool) : Phase :=
  if alreadySubscribed then .counting else .entering

/-- The first section of `OpenConnChannel`, if there is no connection of the key. -/
def Client.register (r : ℕ) (key : ConnKey) : Client :=
  let alreadySubscribed : Bool := 0 < c.refs key.peerID
  let phase := match get c.earlyMsgs key with
    | some earlyMsg => .flushing earlyMsg alreadySubscribed
    | none => afterRegistration alreadySubscribed
  { c with
    conns := set c.conns key r
    earlyMsgs := erase c.earlyMsgs key
    calls := set c.calls r ⟨key, phase, [], [], false⟩ }

/-- The section that ends a failed wait: if the call is still the one that waits for the peer,
nobody waits and listens any more. -/
def Client.stopWaiting (r : ℕ) (peerID : PeerID) : Client :=
  if get c.waitingPeers peerID = some r then
    { c with
      waitingPeers := erase c.waitingPeers peerID
      listenForOfflinePeers := c.listenForOfflinePeers.filter (· ≠ peerID)
      cancelled := c.cancelled ++ [r] }
  else c

/-- The client after a failed wait has removed its own connection. -/
def Client.removeConn (r : ℕ) (key : ConnKey) : Client :=
  if get c.conns key = some r then { c with conns := erase c.conns key } else c

/-- `c.peerConnRefs[peerID]++`, if the connection is still the registered one. -/
def Client.count (r : ℕ) (key : ConnKey) : Client :=
  if get c.conns key = some r then
    { c with peerConnRefs := set c.peerConnRefs key.peerID (c.refs key.peerID + 1) }
  else c

/-- The end of `closeConn` with the count that remains; without any the entry is deleted. -/
def Client.dropConn (r : ℕ) (call : Call) (remainingRefs : ℕ) : Client :=
  { c with
    peerConnRefs :=
      if remainingRefs = 0 then erase c.peerConnRefs call.key.peerID
      else set c.peerConnRefs call.key.peerID remainingRefs
    conns := erase c.conns call.key
    calls := set c.calls r call.close }

/-- The first part of `closeConnsByPeerID`: the connections to the peers are closed. -/
def Client.closeConnsOf (peerIDs : List PeerID) : Client :=
  { c with
    conns := c.conns.filter fun e => e.1.peerID ∉ peerIDs
    peerConnRefs := c.peerConnRefs.filter fun e => e.1 ∉ peerIDs
    calls := mapEntries
      (fun r call => some (if call.key.peerID ∈ peerIDs ∧ get c.conns call.key = some r then
        call.close else call)) c.calls }

/-- The section of `UnsubscribeStateChange`. -/
def Client.forget (peerIDs : List PeerID) : Client :=
  { c with
    cancelled := c.cancelled ++ peerIDs.filterMap (get c.waitingPeers)
    waitingPeers := c.waitingPeers.filter fun e => e.1 ∉ peerIDs
    listenForOfflinePeers := c.listenForOfflinePeers.filter (· ∉ peerIDs) }

/-- Those that wait for the peers are told. -/
def Client.onPeersOnline (peersID : List PeerID) : Client :=
  { c with
    signalled := c.signalled ++ peersID.filterMap (get c.waitingPeers)
    waitingPeers := c.waitingPeers.filter fun e => e.1 ∉ peersID }

/-- The messages sent so far and one more, unless the write fails. -/
def Client.send (written : Bool) (msg : StateMsg) : Client :=
  if written then { c with sent := c.sent ++ [msg] } else c

/-! ## Steps -/

/-- The steps of the calls. -/
inductive Label where
  /-- The first section of `OpenConnChannel`. -/
  | openConn (r : ℕ) (key : ConnKey)
  /-- `container.writeMsg(earlyMsg)` -/
  | flush (r : ℕ)
  /-- The first section of `WaitToBeOnlineAndSubscribe`. -/
  | enterWait (r : ℕ)
  /-- `subscribeStateChange`, and whether it was written. -/
  | subscribe (r : ℕ) (written : Bool)
  /-- The wait ends because the peer is online. -/
  | waitOnline (r : ℕ)
  /-- The wait ends because its channel was closed. -/
  | waitCancelled (r : ℕ)
  /-- The wait ends because of its timeout or the context of the call. -/
  | waitTimeout (r : ℕ)
  /-- `unsubscribeStateChange` after a timeout, and whether it was written. -/
  | unsubscribe (r : ℕ) (written : Bool)
  /-- The section after a failed subscription or a timeout. -/
  | stopWaiting (r : ℕ)
  /-- The section that removes the connection of a failed wait. -/
  | removeConn (r : ℕ)
  /-- `container.close()` of a failed wait. -/
  | closeContainer (r : ℕ)
  /-- The section that counts the connection. -/
  | countRef (r : ℕ)
  /-- The last section of `OpenConnChannel`; the client is running. -/
  | confirm (r : ℕ)
  /-- `closeConn` of a connection that was returned, up to the decision to unsubscribe. -/
  | closeConn (r : ℕ)
  /-- `unsubscribeStateChange` of the holder of the lock. -/
  | holderWrite (written : Bool)
  /-- The section of `UnsubscribeStateChange` of the holder of the lock. -/
  | holderState
  /-- The rest of `closeConn`. -/
  | holderFinish
  /-- The section of `handleTransportMsg`. -/
  | arrive (key : ConnKey) (payload : Bytes)
  /-- The rest of `handleTransportMsg`: the message is written or buffered. -/
  | deliver
  /-- `OnPeersOnline` -/
  | peersOnline (peersID : List PeerID)
  /-- The section of `OnPeersWentOffline`. -/
  | peersWentOffline (peersID : List PeerID)
  /-- `closeConnsByPeerID`, up to the unsubscription. -/
  | offlineClose
  /-- `removeExpired`: the oldest messages of the early buffer are removed. -/
  | expire (n : ℕ)
  /-- `Conn.Read` takes a message. -/
  | read (r : ℕ)

/-- One step of a call. -/
inductive Step : Client → Label → Client → Prop
  | openExisting {c r r' key} (hmu : c.mu = none) (hnew : get c.calls r = none)
      (hconn : get c.conns key = some r') :
      Step c (.openConn r key) (c.setCall r ⟨key, .failed, [], [], false⟩)
  | openNew {c r key} (hmu : c.mu = none) (hnew : get c.calls r = none)
      (hconn : get c.conns key = none) : Step c (.openConn r key) (c.register r key)
  | flush {c r call m subscribed} (hcall : get c.calls r = some call)
      (hphase : call.phase = .flushing m subscribed) :
      Step c (.flush r)
        (c.setCall r { call.writeMsg m with phase := afterRegistration subscribed })
  | alreadyWaiting {c r r' call} (hcall : get c.calls r = some call)
      (hphase : call.phase = .entering) (hwait : get c.waitingPeers call.key.peerID = some r') :
      Step c (.enterWait r) (c.setCall r { call with phase := .failing })
  | enterWait {c r call} (hcall : get c.calls r = some call) (hphase : call.phase = .entering)
      (hwait : get c.waitingPeers call.key.peerID = none) :
      Step c (.enterWait r)
        { c.setCall r { call with phase := .subscribing } with
          waitingPeers := set c.waitingPeers call.key.peerID r
          listenForOfflinePeers := call.key.peerID :: c.listenForOfflinePeers }
  | subscribe {c r call written} (hcall : get c.calls r = some call)
      (hphase : call.phase = .subscribing) :
      Step c (.subscribe r written)
        ((c.send written (.subscribe call.key.peerID)).setCall r
          { call with phase := if written then .waiting else .subscribeFailed })
  | waitOnline {c r call} (hcall : get c.calls r = some call) (hphase : call.phase = .waiting)
      (hch : r ∈ c.signalled) :
      Step c (.waitOnline r) (c.setCall r { call with phase := .counting })
  | waitCancelled {c r call} (hcall : get c.calls r = some call) (hphase : call.phase = .waiting)
      (hch : r ∉ c.signalled) (hclosed : r ∈ c.cancelled) :
      Step c (.waitCancelled r) (c.setCall r { call with phase := .failing })
  | waitTimeout {c r call} (hcall : get c.calls r = some call) (hphase : call.phase = .waiting) :
      Step c (.waitTimeout r) (c.setCall r { call with phase := .timedOut })
  | unsubscribe {c r call written} (hcall : get c.calls r = some call)
      (hphase : call.phase = .timedOut) :
      Step c (.unsubscribe r written)
        ((c.send written (.unsubscribe [call.key.peerID])).setCall r
          { call with phase := .unsubscribed })
  | stopWaiting {c r call} (hcall : get c.calls r = some call)
      (hphase : call.phase = .subscribeFailed ∨ call.phase = .unsubscribed) :
      Step c (.stopWaiting r)
        ((c.stopWaiting r call.key.peerID).setCall r { call with phase := .failing })
  | removeConn {c r call} (hmu : c.mu = none) (hcall : get c.calls r = some call)
      (hphase : call.phase = .failing) :
      Step c (.removeConn r) ((c.removeConn r call.key).setCall r { call with phase := .closing })
  | closeContainer {c r call} (hcall : get c.calls r = some call) (hphase : call.phase = .closing) :
      Step c (.closeContainer r) (c.setCall r { call.close with phase := .failed })
  | countRef {c r call} (hmu : c.mu = none) (hcall : get c.calls r = some call)
      (hphase : call.phase = .counting) :
      Step c (.countRef r) ((c.count r call.key).setCall r { call with phase := .confirming })
  | confirm {c r call} (hmu : c.mu = none) (hcall : get c.calls r = some call)
      (hphase : call.phase = .confirming) :
      Step c (.confirm r) (c.setCall r { call with phase := .opened })
  | closeMismatch {c r call} (hmu : c.mu = none) (hcall : get c.calls r = some call)
      (hphase : call.phase = .opened) (hconn : get c.conns call.key ≠ some r) :
      Step c (.closeConn r) c
  | closeOne {c r call} (hmu : c.mu = none) (hcall : get c.calls r = some call)
      (hphase : call.phase = .opened) (hconn : get c.conns call.key = some r)
      (hrefs : 1 < c.refs call.key.peerID) :
      Step c (.closeConn r) (c.dropConn r call (c.refs call.key.peerID - 1))
  | closeLast {c r call} (hmu : c.mu = none) (hcall : get c.calls r = some call)
      (hphase : call.phase = .opened) (hconn : get c.conns call.key = some r)
      (hrefs : c.refs call.key.peerID ≤ 1) :
      Step c (.closeConn r) { c with mu := some (.closeConn r .write) }
  | closeWrite {c r call written} (hmu : c.mu = some (.closeConn r .write))
      (hcall : get c.calls r = some call) :
      Step c (.holderWrite written)
        { c.send written (.unsubscribe [call.key.peerID]) with mu := some (.closeConn r .state) }
  | closeState {c r call} (hmu : c.mu = some (.closeConn r .state))
      (hcall : get c.calls r = some call) :
      Step c .holderState { c.forget [call.key.peerID] with mu := some (.closeConn r .finish) }
  | closeFinish {c r call} (hmu : c.mu = some (.closeConn r .finish))
      (hcall : get c.calls r = some call) :
      Step c .holderFinish { c.dropConn r call 0 with mu := none }
  | offlineWrite {c peerIDs written} (hmu : c.mu = some (.closeConnsByPeerID peerIDs .write)) :
      Step c (.holderWrite written)
        { c.send written (.unsubscribe peerIDs) with
          mu := some (.closeConnsByPeerID peerIDs .state) }
  | offlineState {c peerIDs} (hmu : c.mu = some (.closeConnsByPeerID peerIDs .state)) :
      Step c .holderState { c.forget peerIDs with mu := none, reader := .idle }
  | arrive {c key payload} (hmu : c.mu = none) (hreader : c.reader = .idle) :
      Step c (.arrive key payload)
        { c with
          reader := .transport key (get c.conns key) ⟨c.received, payload⟩
          received := c.received + 1 }
  | deliverWrite {c key r m call} (hreader : c.reader = .transport key (some r) m)
      (hcall : get c.calls r = some call) :
      Step c .deliver { c.setCall r (call.writeMsg m) with reader := .idle }
  | deliverEarly {c key m} (hreader : c.reader = .transport key none m) :
      Step c .deliver { c with earlyMsgs := putKey c.earlyMsgs key m, reader := .idle }
  | peersOnline {c peersID} (hreader : c.reader = .idle) :
      Step c (.peersOnline peersID) (c.onPeersOnline peersID)
  | peersWentOffline {c peersID} (hreader : c.reader = .idle) :
      Step c (.peersWentOffline peersID)
        { c with
          reader :=
            if peersID.filter (· ∈ c.listenForOfflinePeers) = [] then .idle
            else .offline (peersID.filter (· ∈ c.listenForOfflinePeers)) }
  | offlineClose {c peerIDs} (hmu : c.mu = none) (hreader : c.reader = .offline peerIDs) :
      Step c .offlineClose
        { c.closeConnsOf peerIDs with mu := some (.closeConnsByPeerID peerIDs .write) }
  | expire {c n} : Step c (.expire n) { c with earlyMsgs := c.earlyMsgs.drop n }
  | read {c r call m rest} (hcall : get c.calls r = some call) (hmsgs : call.messages = m :: rest) :
      Step c (.read r) (c.setCall r { call with messages := rest })

/-- No call is in progress. -/
structure Client.Quiet (c : Client) : Prop where
  calls : ∀ e ∈ c.calls, e.2.phase = .opened ∨ e.2.phase = .failed
  reader : c.reader = .idle
  mu : c.mu = none

end RelayClient
