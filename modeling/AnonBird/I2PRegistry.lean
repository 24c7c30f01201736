/-
# The registry of I2P datagram sessions

Model of the registry and the managers of `client/internal/peer/i2p_datagram_conn.go`.  A manager
owns one SAM session, shared by the peer connections of one key; the registry counts the references
to it and closes it with the last one, and its receive loop marks it closed when it ends.

Each lock-protected section is one function on the `Registry`, and so are the creation and the
closing of a session.  A `Call` is the place where a call of `OpenPeerConn` or `PeerConn.Close`
stands between two sections.  Managers and connections are numbers here.  What a call checks before
it reaches the registry, and the queues and deadlines of a connection, are left out.
-/
import AnonBird.GoMap

namespace I2PRegistry

export GoMap (get set)

/-- The goroutine of a manager: not started, receiving, past `closePeers`, ended. -/
inductive Loop where
  | idle
  | running
  | closing
  | done
  deriving DecidableEq

/-- `i2pDatagramManager`, with the state of its session. -/
structure Manager (K D : Type) where
  key : K
  refs : ℕ
  closed : Bool
  sessionClosed : Bool
  loop : Loop
  peers : List (D × ℕ)

/-- `i2pDatagramPeerConn`; `released` tells whether its `releaseOnce` has run. -/
structure PeerConn (D : Type) where
  manager : ℕ
  remoteDestination : D
  released : Bool

/-- `i2pDatagramRegistry`, with the managers and connections that were ever made. -/
structure Registry (K D : Type) where
  heap : ℕ → Manager K D
  created : ℕ
  managers : List (K × ℕ)
  conns : List (PeerConn D)

/-- Where a call stands: the section it runs next. -/
inductive Call (K D : Type) where
  /-- The first section of `retainManager`. -/
  | retaining (key : K) (destination : D)
  /-- The creation of a session, between the two sections. -/
  | creating (key : K) (destination : D)
  /-- The second section, with a manager that is not shared yet. -/
  | publishing (m : ℕ) (destination : D)
  /-- Closing the session of a manager that lost against `existing`. -/
  | discarding (m existing : ℕ) (destination : D)
  | starting (m : ℕ) (destination : D)
  | registering (m : ℕ) (destination : D)
  /-- The body of `releaseOnce`. -/
  | unregistering (conn m : ℕ) (destination : D)
  | releasing (m : ℕ)
  /-- The section at the head of `manager.close`. -/
  | closing (m : ℕ)
  | closingSession (m : ℕ)
  /-- `wg.Wait` in `manager.close`. -/
  | waiting (m : ℕ)

variable {K D : Type} [DecidableEq K] [DecidableEq D]

/-! ## The sections -/

variable (r : Registry K D) (m : ℕ)

/-- `newI2PDatagramManager`. -/
def newManager (key : K) : Manager K D := ⟨key, 0, false, false, .idle, []⟩

namespace Registry

/-- Change one manager. -/
def modify (f : Manager K D → Manager K D) : Registry K D :=
  { r with heap := Function.update r.heap m (f (r.heap m)) }

/-- The manager in the map, unless it is closed. -/
def live (key : K) : Option ℕ :=
  (get r.managers key).filter fun m => !(r.heap m).closed

/-- `refs++`. -/
def addRef : Registry K D :=
  r.modify m fun manager => { manager with refs := manager.refs + 1 }

/-- The first section of `retainManager`. -/
def retain (key : K) (destination : D) : Registry K D × Call K D :=
  match r.live key with
  | some m => (r.addRef m, .registering m destination)
  | none => (r, .creating key destination)

/-- A session was created, and a manager for it. -/
def newSession (key : K) (destination : D) : Registry K D × Call K D :=
  ({ r with heap := Function.update r.heap r.created (newManager key), created := r.created + 1 },
    .publishing r.created destination)

/-- The second section of `retainManager`. -/
def publish (destination : D) : Registry K D × Call K D :=
  let key := (r.heap m).key
  match r.live key with
  | some existing => (r.addRef existing, .discarding m existing destination)
  | none =>
    -- a closed manager under the key is replaced, whether or not its session is closed
    ({ r.modify m fun manager => { manager with refs := 1 } with
        managers := set r.managers key m },
      .starting m destination)

/-- `session.Close`. -/
def closeSession : Registry K D :=
  r.modify m fun manager => { manager with sessionClosed := true }

/-- The reader of a manager is started. -/
def start : Registry K D :=
  r.modify m fun manager => { manager with loop := .running }

/-- `register`, and the way on after an error. -/
def register (destination : D) : Registry K D × Option (Call K D) :=
  let manager := r.heap m
  if manager.closed then (r, some (.releasing m))
  else if (get manager.peers destination).isSome then (r, some (.releasing m))
  else
    ({ r.modify m fun manager =>
          { manager with peers := set manager.peers destination r.conns.length } with
        conns := r.conns ++ [⟨m, destination, false⟩] },
      none)

/-- `unregister`: a connection only removes itself. -/
def unregister (conn m : ℕ) (destination : D) : Registry K D :=
  r.modify m fun manager =>
    if get manager.peers destination = some conn then
      { manager with peers := GoMap.erase manager.peers destination }
    else manager

/-- `releaseManager`: the last reference takes the manager out of the map. -/
def release : Registry K D × Option (Call K D) :=
  let key := (r.heap m).key
  let refs := (r.heap m).refs - 1
  let r' := r.modify m fun manager => { manager with refs := refs }
  -- a manager that was replaced in the map is not closed here
  if refs = 0 ∧ get r.managers key = some m then
    ({ r' with managers := GoMap.erase r.managers key }, some (.closing m))
  else (r', none)

/-- The first section of `close`: it returns when the manager is closed already. -/
def beginClose : Registry K D × Option (Call K D) :=
  if (r.heap m).closed then (r, none)
  else (r.modify m fun manager => { manager with closed := true }, some (.closingSession m))

/-- The section of `closePeers`. -/
def closePeers : Registry K D :=
  r.modify m fun manager => { manager with closed := true }

end Registry

/-! ## Calls and the system -/

/-- The next section of a call, with the way on; nothing while it has to wait. -/
def Call.next : Call K D → Option (Registry K D × Option (Call K D))
  | .retaining key destination =>
    some ((r.retain key destination).1, some (r.retain key destination).2)
  | .creating key destination =>
    some ((r.newSession key destination).1, some (r.newSession key destination).2)
  | .publishing m destination =>
    some ((r.publish m destination).1, some (r.publish m destination).2)
  | .discarding m existing destination =>
    some (r.closeSession m, some (.registering existing destination))
  | .starting m destination => some (r.start m, some (.registering m destination))
  | .registering m destination => some (r.register m destination)
  | .unregistering conn m destination =>
    some (r.unregister conn m destination, some (.releasing m))
  | .releasing m => some (r.release m)
  | .closing m => some (r.beginClose m)
  | .closingSession m => some (r.closeSession m, some (.waiting m))
  | .waiting m =>
    -- a loop that has not started yet is not waited for
    if (r.heap m).loop = .running ∨ (r.heap m).loop = .closing then none
    else some (r.closePeers m, none)

/-- The registry and the calls in progress. -/
structure System (K D : Type) where
  registry : Registry K D
  calls : List (Call K D)

/-- What happens next; calls are named by their position. -/
inductive Label (K D : Type) where
  | openPeerConn (key : K) (destination : D)
  | closeConn (conn : ℕ)
  | advance (call : ℕ)
  | sessionFails (call : ℕ)
  | receiveEnds (m : ℕ)
  | loopDone (m : ℕ)

/-- One atomic step of the system. -/
inductive Step : System K D → Label K D → System K D → Prop
  | openPeerConn {s key destination} :
      Step s (.openPeerConn key destination)
        { s with calls := s.calls ++ [.retaining key destination] }
  /-- The first `Close` of a connection. -/
  | closeConn {r calls before after m destination} :
      r.conns = before ++ ⟨m, destination, false⟩ :: after →
      Step ⟨r, calls⟩ (.closeConn before.length)
        ⟨{ r with conns := before ++ ⟨m, destination, true⟩ :: after },
          calls ++ [.unregistering before.length m destination]⟩
  /-- Every later one does nothing. -/
  | closeAgain {s conn c} :
      s.registry.conns[conn]? = some c → c.released = true → Step s (.closeConn conn) s
  | advance {r r' before after c c'} :
      c.next r = some (r', c') →
      Step ⟨r, before ++ c :: after⟩ (.advance before.length) ⟨r', before ++ c'.toList ++ after⟩
  /-- The creation of a session fails, and the call with it. -/
  | sessionFails {r before after key destination} :
      Step ⟨r, before ++ .creating key destination :: after⟩ (.sessionFails before.length)
        ⟨r, before ++ after⟩
  /-- The receive loop ends and closes the peers of its manager. -/
  | receiveEnds {s m} :
      (s.registry.heap m).loop = .running →
      Step s (.receiveEnds m)
        { s with registry :=
            (s.registry.closePeers m).modify m fun manager => { manager with loop := .closing } }
  | loopDone {s m} :
      (s.registry.heap m).loop = .closing →
      Step s (.loopDone m)
        { s with registry :=
            s.registry.modify m fun manager => { manager with loop := .done } }

/-- An empty registry; the unused cells of the heap hold the zero value of the key. -/
def System.init [Inhabited K] : System K D := ⟨⟨fun _ => newManager default, 0, [], []⟩, []⟩

end I2PRegistry
