/-
# Flow events of tracked TCP connections

The tracker of `conntrack/tcp.go` reports every flow to a flow logger.  Three of the places that
remove an entry send nothing, because the end was sent when the entry changed its state.

The model is the one of `TCPTracker` with the id of the flow in every entry and with the log of
events (`toTracker_apply`).  Ids are numbers in the order of their creation.
-/
import AnonBird.GoStrings
import AnonBird.TCPTracker

open NetIP List
open Bool (false_eq_true noConfusion)
open GoStrings (Bytes)
open GoMap hiding get set
open Option

namespace Conntrack

/-! ## Events -/

/-- `nftypes.Type`, as far as the tracker uses it. -/
inductive EventType where
  | typeStart
  | typeEnd
  deriving DecidableEq, Repr

/-- `nftypes.EventFields`, of the protocol TCP. -/
structure EventFields where
  flowID : ℕ
  type : EventType
  ruleID : Bytes
  direction : Direction
  sourceIP : Option Addr
  destIP : Option Addr
  sourcePort : UInt16
  destPort : UInt16
  rxPackets : UInt64
  txPackets : UInt64
  rxBytes : UInt64
  txBytes : UInt64
  deriving DecidableEq, Repr

/-- An entry of the table with the id of its flow. -/
structure Flow where
  flowId : ℕ
  conn : TCPConnTrack
  deriving DecidableEq, Repr

/-- The event that `sendEvent` stores; a nil rule id is the empty one. -/
def sendEvent (typ : EventType) (flow : Flow) (ruleID : Bytes) : EventFields where
  flowID := flow.flowId
  type := typ
  ruleID := ruleID
  direction := flow.conn.direction
  sourceIP := flow.conn.sourceIP
  destIP := flow.conn.destIP
  sourcePort := flow.conn.sourcePort
  destPort := flow.conn.destPort
  rxPackets := flow.conn.packetsRx
  txPackets := flow.conn.packetsTx
  rxBytes := flow.conn.bytesRx
  txBytes := flow.conn.bytesTx

namespace TCPConnTrack

variable (conn : TCPConnTrack)

/-- Whether `handleRst` sends an end. -/
def handleRstEnds (packetDir : Direction) : Bool :=
  if conn.state = .timeWait then false
  else if conn.state = .synSent ∧ packetDir = conn.direction then false
  else true

/-- Whether `onTransition` sends an end. -/
def onTransitionEnds (newState : TCPState) : Bool :=
  match newState with
  | .timeWait => true
  | .closed => true
  | _ => false

/-- Whether `updateState` sends an end. -/
def updateStateEnds (flags : UInt8) (packetDir : Direction) : Bool :=
  if !isValidFlagCombination flags then false
  else if hasFlag flags tcpRst then conn.handleRstEnds packetDir
  else
    let newState := nextState conn.state conn.direction packetDir flags
    if newState = .new then false else onTransitionEnds newState

/-- The end of the flow has been sent. -/
def ended : Bool := conn.state = .timeWait || conn.tombstone

end TCPConnTrack

/-- `updateState`, with the events it sends. -/
def Flow.updateState (flow : Flow) (now : ℤ) (flags : UInt8) (packetDir : Direction) (size : ℤ) :
    Flow × List EventFields :=
  let updated : Flow := { flow with conn := flow.conn.updateState now flags packetDir size }
  (updated,
    if flow.conn.updateStateEnds flags packetDir then [sendEvent .typeEnd updated []] else [])

/-! ## The tracker with its flows -/

/-- `TCPTracker` with the ids of its flows; `created` of them have been made. -/
structure FlowTracker where
  connections : List (ConnKey × Flow) := []
  timeout : ℤ
  waitTimeout : ℤ
  finWaitTimeout : ℤ
  closeWaitTimeout : ℤ
  lastAckTimeout : ℤ
  maxEntries : ℤ
  created : ℕ := 0
  log : List EventFields := []

/-- `NewTCPTracker`. -/
def newFlowTracker (timeout finWaitTimeout closeWaitTimeout lastAckTimeout maxEntries : ℤ) :
    FlowTracker where
  timeout := if timeout = 0 then defaultTCPTimeout else timeout
  waitTimeout := if timeout = 0 then timeWaitTimeout else timeout.tdiv 45
  finWaitTimeout := finWaitTimeout
  closeWaitTimeout := closeWaitTimeout
  lastAckTimeout := lastAckTimeout
  maxEntries := maxEntries

open Conntrack.Flow

namespace FlowTracker

variable (t : FlowTracker)

/-- The tracker without ids and events. -/
def toTracker : TCPTracker where
  connections := mapValues conn t.connections
  timeout := t.timeout
  waitTimeout := t.waitTimeout
  finWaitTimeout := t.finWaitTimeout
  closeWaitTimeout := t.closeWaitTimeout
  lastAckTimeout := t.lastAckTimeout
  maxEntries := t.maxEntries

/-- The table after a segment of a tracked connection, with the events it sends. -/
def update (key : ConnKey) (flow : Flow) (now : ℤ) (flags : UInt8) (direction : Direction)
    (size : ℤ) : FlowTracker :=
  { t with
    connections := set t.connections key (flow.updateState now flags direction size).1
    log := t.log ++ (flow.updateState now flags direction size).2 }

variable (now : ℤ) (ord : RangeOrder ConnKey)

/-- A packet of a known connection is counted. -/
def updateIfExists (key : ConnKey) (flags : UInt8) (direction : Direction) (size : ℤ) :
    FlowTracker × Option UInt16 :=
  match get t.connections key with
  | none => (t, none)
  | some flow =>
    if flow.conn.isSupersededBy flags then (t, none)
    else
      (t.update key flow now flags direction size,
        some (flow.conn.updateState now flags direction size).dnatOrigPort.toUInt16)

/-- The end that an eviction or the cleanup sends for an entry that was not marked. -/
def endOf (flow : Flow) : List EventFields :=
  if flow.conn.state ≠ .timeWait ∧ flow.conn.tombstone = false then
    [sendEvent .typeEnd flow []]
  else []

/-- `evictOneLocked`: a marked entry goes without an event, any other with its end unless it
is in TIME-WAIT. -/
def evictOneLocked : FlowTracker :=
  match evictLoop (range ord (mapValues conn t.connections)) none 0 with
  | none => t
  | some key =>
    { t with
      connections := erase t.connections key
      log := t.log ++ (match get t.connections key with
        | none => []
        | some evicted => endOf evicted) }

/-- A full table evicts an entry. -/
def makeRoom : FlowTracker :=
  if 0 < t.maxEntries ∧ t.maxEntries ≤ t.connections.length then t.evictOneLocked ord else t

/-- The entry of a new flow, whose start is sent. -/
def insertFlow (key : ConnKey) (flow : Flow) (ruleID : Bytes) : FlowTracker :=
  { t with
    connections := set t.connections key flow
    created := t.created + 1
    log := t.log ++ [sendEvent .typeStart flow ruleID] }

/-- A packet is counted, or its connection begun and its start reported. -/
def track (key : ConnKey) (flags : UInt8) (direction : Direction) (ruleID : Bytes) (size : ℤ)
    (origPort : UInt16) : FlowTracker :=
  match t.updateIfExists now key flags direction size with
  | (t, some _) => t
  | (t, none) =>
    if !hasFlag flags tcpSyn then t
    else if !isValidFlagCombination flags then t
    else
      let (flow, events) := updateState ⟨t.created, newConn key direction origPort⟩
        now flags direction size
      ({ t with log := t.log ++ events }.makeRoom ord).insertFlow key flow ruleID

/-- A packet is sent; the port is that of a DNAT rule to undo. -/
def trackOutbound (packet : ConnKey) (flags : UInt8) (size : ℤ) : FlowTracker × UInt16 :=
  match t.updateIfExists now packet.reversed flags .egress size with
  | (t, some origPort) => (t, origPort)
  | (t, none) => (t.track now ord packet flags .egress [] size 0, 0)

/-- A packet is received. -/
def trackInbound (packet : ConnKey) (flags : UInt8) (ruleID : Bytes) (size : ℤ)
    (dnatOrigPort : UInt16) : FlowTracker :=
  t.track now ord packet flags .ingress ruleID size dnatOrigPort

/-- A packet belongs to a connection that was opened from here. -/
def isValidInbound (packet : ConnKey) (flags : UInt8) (size : ℤ) : FlowTracker × Bool :=
  match get t.connections packet.reversed with
  | none => (t, false)
  | some flow =>
    if flow.conn.isSupersededBy flags then (t, false)
    else if !isValidFlagCombination flags then (t, false)
    else if !isValidStateForFlags flow.conn.state flags then (t, false)
    else (t.update packet.reversed flow now flags .ingress size, true)

/-- The cleanup deletes the entry. -/
def cleansUp (now : ConnKey → ℤ) (key : ConnKey) (flow : Flow) : Bool :=
  flow.conn.tombstone ||
    decide (now key - flow.conn.lastSeen > t.toTracker.timeoutFor flow.conn.state)

/-- `cleanup`, which visits the entries in any order and reads the clock at each of them. -/
def cleanup (now : ConnKey → ℤ) (ord : RangeOrder ConnKey) : FlowTracker :=
  { t with
    connections := mapEntries (fun key flow =>
      if t.cleansUp now key flow then none else some flow) t.connections
    log := t.log ++ (range ord t.connections).flatMap fun e =>
      if t.cleansUp now e.1 e.2 then endOf e.2 else [] }

end FlowTracker

/-! ## Runs -/

/-- A call on the tracker. -/
inductive FlowCall where
  | trackOutbound (now : ℤ) (ord : RangeOrder ConnKey) (packet : ConnKey) (flags : UInt8)
      (size : ℤ)
  | trackInbound (now : ℤ) (ord : RangeOrder ConnKey) (packet : ConnKey) (flags : UInt8)
      (ruleID : Bytes) (size : ℤ) (dnatOrigPort : UInt16)
  | isValidInbound (now : ℤ) (packet : ConnKey) (flags : UInt8) (size : ℤ)
  | cleanup (now : ConnKey → ℤ) (ord : RangeOrder ConnKey)

/-- The call without what only the events depend on. -/
def FlowCall.toCall : FlowCall → Call
  | .trackOutbound now ord packet flags size => .trackOutbound now ord packet flags size
  | .trackInbound now ord packet flags _ size dnatOrigPort =>
    .trackInbound now ord packet flags size dnatOrigPort
  | .isValidInbound now packet flags size => .isValidInbound now packet flags size
  | .cleanup now _ => .cleanup now

namespace FlowTracker

/-- The tracker after a call. -/
def apply (t : FlowTracker) : FlowCall → FlowTracker
  | .trackOutbound now ord packet flags size => (t.trackOutbound now ord packet flags size).1
  | .trackInbound now ord packet flags ruleID size dnatOrigPort =>
    t.trackInbound now ord packet flags ruleID size dnatOrigPort
  | .isValidInbound now packet flags size => (t.isValidInbound now packet flags size).1
  | .cleanup now ord => t.cleanup now ord

/-- The tracker after a sequence of calls. -/
def after (t : FlowTracker) (calls : List FlowCall) : FlowTracker := calls.foldl apply t

end FlowTracker

/-! ## Without ids and events -/

variable (flow : Flow)

namespace FlowTracker

variable {t : FlowTracker} (key : ConnKey) (now : ℤ) (ord : RangeOrder ConnKey)

theorem toTracker_update (flags : UInt8) (direction : Direction) (size : ℤ) :
    (t.update key flow now flags direction size).toTracker =
      { t.toTracker with
        connections := set t.toTracker.connections key
          (flow.conn.updateState now flags direction size) } := by
  rw [toTracker, update]
  congr 1
  exact (set_mapValues conn t.connections key _).symm

theorem get_toTracker :
    get t.toTracker.connections key = (get t.connections key).map conn := get_mapValues ..

theorem updateIfExists_toTracker (key : ConnKey) (flags : UInt8) (direction : Direction)
    (size : ℤ) : t.toTracker.updateIfExists now key flags direction size =
      ((t.updateIfExists now key flags direction size).1.toTracker,
        (t.updateIfExists now key flags direction size).2) := by
  rw [updateIfExists, TCPTracker.updateIfExists, get_toTracker]
  cases get t.connections key with
  | none => rfl
  | some flow =>
    dsimp only [map_some]
    split
    · rfl
    · dsimp only
      rw [toTracker_update]

theorem toTracker_evictOneLocked : (t.evictOneLocked ord).toTracker =
      { t.toTracker with
        connections := Conntrack.evictOneLocked ord t.toTracker.connections } := by
  rw [evictOneLocked, Conntrack.evictOneLocked]
  show _ = TCPTracker.mk (match evictLoop (range ord (mapValues Flow.conn
    t.connections)) none 0 with | none => _ | some key => _) _ _ _ _ _ _
  cases evictLoop (range ord (mapValues conn t.connections)) none 0 with
  | none => rfl
  | some key =>
    rw [toTracker]
    congr 1
    exact (erase_mapValues conn t.connections key).symm

theorem toTracker_makeRoom : (t.makeRoom ord).toTracker =
      { t.toTracker with
        connections :=
          if 0 < t.toTracker.maxEntries ∧
              t.toTracker.maxEntries ≤ t.toTracker.connections.length then
            Conntrack.evictOneLocked ord t.toTracker.connections
          else t.toTracker.connections } := by
  have hlength : t.toTracker.connections.length = t.connections.length := length_map _
  rw [makeRoom, hlength]
  show _ = TCPTracker.mk (if 0 < t.maxEntries ∧ t.maxEntries ≤ t.connections.length then _
    else _) _ _ _ _ _ _
  split
  · exact toTracker_evictOneLocked ord
  · rfl

theorem toTracker_insertFlow (ruleID : Bytes) :
    (t.insertFlow key flow ruleID).toTracker = { t.toTracker with
        connections := set t.toTracker.connections key flow.conn } := by
  rw [toTracker, insertFlow]
  congr 1
  exact (set_mapValues conn t.connections key flow).symm

theorem toTracker_track (key : ConnKey) (flags : UInt8) (direction : Direction) (ruleID : Bytes)
    (size : ℤ) (origPort : UInt16) :
    (t.track now ord key flags direction ruleID size origPort).toTracker =
      t.toTracker.track now ord key flags direction size origPort := by
  rw [track, TCPTracker.track, updateIfExists_toTracker]
  obtain ⟨u, port⟩ := t.updateIfExists now key flags direction size
  cases port with
  | some origPort => rfl
  | none =>
    dsimp only
    split
    · rfl
    · split
      · rfl
      · rw [toTracker_insertFlow, toTracker_makeRoom]
        rfl

/-- **The tracker without ids and events** does what the tracker of `TCPTracker` does. -/
theorem toTracker_apply (t : FlowTracker) (call : FlowCall) :
    (t.apply call).toTracker = t.toTracker.apply call.toCall := by
  cases call with
  | trackOutbound now ord packet flags size =>
    show (t.trackOutbound now ord packet flags size).1.toTracker =
      (t.toTracker.trackOutbound now ord packet flags size).1
    rw [trackOutbound, TCPTracker.trackOutbound, updateIfExists_toTracker]
    obtain ⟨u, port⟩ := t.updateIfExists now packet.reversed flags .egress size
    cases port with
    | some origPort => rfl
    | none => exact toTracker_track ..
  | trackInbound now ord packet flags ruleID size dnatOrigPort => exact toTracker_track ..
  | isValidInbound now packet flags size =>
    show (t.isValidInbound now packet flags size).1.toTracker =
      (t.toTracker.isValidInbound now packet flags size).1
    rw [isValidInbound, TCPTracker.isValidInbound, get_toTracker]
    cases get t.connections packet.reversed with
    | none => rfl
    | some flow =>
      dsimp only [map_some]
      split_ifs
      · rfl
      · rfl
      · rfl
      · exact toTracker_update ..
  | cleanup now ord =>
    show (t.cleanup now ord).toTracker = t.toTracker.cleanup now
    rw [TCPTracker.cleanup, toTracker, cleanup]
    congr 1
    rw [mapValues_mapEntries, toTracker, mapEntries_mapValues]
    congr 1
    funext key flow
    rw [cleansUp, toTracker]
    cases flow.conn.tombstone with
    | true => rfl
    | false =>
      simp only [Bool.false_or, decide_eq_true_eq, false_eq_true, if_false]
      split <;> rfl

theorem toTracker_after (t : FlowTracker) (calls : List FlowCall) :
    (t.after calls).toTracker = t.toTracker.after (calls.map FlowCall.toCall) := by
  induction calls generalizing t with
  | nil => rfl
  | cons call calls ih =>
    show ((t.apply call).after calls).toTracker = (t.toTracker.apply call.toCall).after _
    rw [ih, toTracker_apply]

/-- **Rule ids and events do not touch the tracking**, neither the table nor a verdict. -/
theorem tracking_without_events (t : FlowTracker) (calls : List FlowCall) (packet : ConnKey)
    (flags : UInt8) (size : ℤ) :
    let plain := t.toTracker.after (calls.map FlowCall.toCall)
    (t.after calls).toTracker = plain ∧ ((t.after calls).isValidInbound now packet flags size).2 =
      (plain.isValidInbound now packet flags size).2 := by
  refine ⟨toTracker_after t calls, ?_⟩
  rw [← toTracker_after, isValidInbound, TCPTracker.isValidInbound, get_toTracker]
  cases get (t.after calls).connections packet.reversed with
  | none => rfl
  | some flow =>
    dsimp only [map_some]
    split_ifs <;> rfl

end FlowTracker

/-! ## When a segment ends a flow -/

namespace TCPConnTrack

variable {conn : TCPConnTrack} {now size : ℤ} {flags : UInt8} {packetDir : Direction}

/-- **The end is sent exactly when a flow ends**: a segment leaves an entry whose end has been sent
if it was so before, or if it sends it. -/
theorem ended_updateState : (conn.updateState now flags packetDir size).ended =
    (conn.ended || conn.updateStateEnds flags packetDir) := by
  simp only [ended, updateState, updateStateEnds, handleRst, handleRstEnds, onTransition,
    state_updateCounters, direction_updateCounters]
  split
  · simp
  · split
    · split
      · simp_all
      · split <;> simp_all
    · split
      · simp_all
      · cases hnext : nextState conn.state conn.direction packetDir flags <;>
          cases hst : conn.state <;> simp_all [onTransitionEnds, nextState, stateTable]

/-- Nothing more is sent for an entry in TIME-WAIT. -/
theorem updateStateEnds_of_timeWait (h : conn.state = .timeWait) :
    conn.updateStateEnds flags packetDir = false := by
  rw [updateStateEnds, handleRstEnds, h]
  split
  · rfl
  · split <;> rfl

end TCPConnTrack

/-! ## Accounts -/

/-- The events of a flow, in the order of the log. -/
def eventsOf (log : List EventFields) (id : ℕ) : List EventType :=
  (log.filter fun e => e.flowID = id).map EventFields.type

@[simp] theorem eventsOf_nil (id : ℕ) : eventsOf [] id = [] := rfl

@[simp] theorem eventsOf_append (log log' : List EventFields) (id : ℕ) :
    eventsOf (log ++ log') id = eventsOf log id ++ eventsOf log' id := by
  rw [eventsOf, filter_append, map_append, eventsOf, eventsOf]

theorem eventsOf_flatMap {α : Type*} (xs : List α) (events : α → List EventFields) (id : ℕ) :
    eventsOf (xs.flatMap events) id = xs.flatMap fun x => eventsOf (events x) id := by
  induction xs with
  | nil => rfl
  | cons x xs ih => rw [flatMap_cons, eventsOf_append, ih, flatMap_cons]

/-- A loop over distinct elements of which only one adds something. -/
theorem flatMap_eq_of_unique {α β : Type*} {xs : List α} (hnodup : xs.Nodup) {a : α}
    (hmem : a ∈ xs) {f : α → List β} (h : ∀ b ∈ xs, b ≠ a → f b = []) : xs.flatMap f = f a := by
  obtain ⟨pre, post, rfl⟩ := append_of_mem hmem
  have hnot := (nodup_middle.mp hnodup).notMem
  rw [mem_append, not_or] at hnot
  have hpre : pre.flatMap f = [] := flatMap_eq_nil_iff.mpr fun b hb =>
    h b (by simp [hb]) fun he => hnot.1 (he ▸ hb)
  have hpost : post.flatMap f = [] := flatMap_eq_nil_iff.mpr fun b hb =>
    h b (by simp [hb]) fun he => hnot.2 (he ▸ hb)
  rw [flatMap_append, flatMap_cons, hpre, hpost, nil_append, append_nil]

theorem eventsOf_sendEvent (typ : EventType) (flow : Flow) (ruleID : Bytes) (id : ℕ) :
    eventsOf [sendEvent typ flow ruleID] id = if id = flow.flowId then [typ] else [] := by
  rw [eventsOf, filter_singleton]
  by_cases h : id = flow.flowId
  · subst h
    simp [sendEvent]
  · have hne : ¬ flow.flowId = id := fun he => h he.symm
    simp [sendEvent, h, hne]

theorem eventsOf_endOf (id : ℕ) : eventsOf (FlowTracker.endOf flow) id =
      if id = flow.flowId ∧ flow.conn.ended = false then [.typeEnd] else [] := by
  have hiff : (flow.conn.state ≠ .timeWait ∧ flow.conn.tombstone = false) ↔
      flow.conn.ended = false := by
    rw [TCPConnTrack.ended, Bool.or_eq_false_iff, decide_eq_false_iff_not]
  rw [FlowTracker.endOf]
  by_cases hended : flow.conn.ended = false
  · rw [if_pos (hiff.mpr hended), eventsOf_sendEvent]
    simp [hended]
  · rw [if_neg (mt hiff.mp hended), if_neg fun hc => hended hc.2, eventsOf_nil]

/-- A table in which every flow has one entry. -/
structure Distinct (m : List (ConnKey × Flow)) : Prop where
  nodup : (keys m).Nodup
  unique : ∀ {k k' : ConnKey} {flow flow' : Flow}, get m k = some flow →
    get m k' = some flow' → flow.flowId = flow'.flowId → k = k'

/-- The flow has an entry. -/
def InTable (m : List (ConnKey × Flow)) (id : ℕ) : Prop :=
  ∃ key flow, get m key = some flow ∧ flow.flowId = id

/-- The flow has an entry, and its end has not been sent. -/
def IsOpen (m : List (ConnKey × Flow)) (id : ℕ) : Prop :=
  ∃ key flow, get m key = some flow ∧ flow.flowId = id ∧ flow.conn.ended = false

variable {m : List (ConnKey × Flow)} {key : ConnKey}

theorem Distinct.isOpen_iff (h : Distinct m) {flow : Flow} (hget : get m key = some flow) :
    IsOpen m flow.flowId ↔ flow.conn.ended = false := by
  constructor
  · rintro ⟨key', flow', hget', hid, hended⟩
    obtain rfl := h.unique hget' hget hid
    rw [hget] at hget'
    rwa [some.inj hget']
  · exact fun hended => ⟨key, flow, hget, rfl, hended⟩

/-- The entries of two tables that stand for flows other than `id₀` are the same. -/
def SameExcept (id₀ : ℕ) (m m' : List (ConnKey × Flow)) : Prop :=
  ∀ key flow, flow.flowId ≠ id₀ → (get m' key = some flow ↔ get m key = some flow)

theorem SameExcept.isOpen_iff {m m' : List (ConnKey × Flow)} {id₀ id : ℕ}
    (h : SameExcept id₀ m m') (hne : id ≠ id₀) : IsOpen m' id ↔ IsOpen m id := by
  refine exists_congr fun key => exists_congr fun flow => and_congr_left ?_
  rintro ⟨rfl, -⟩
  exact h key flow hne

theorem sameExcept_set {flow : Flow} (h : ∀ old, get m key = some old → old.flowId = flow.flowId) :
    SameExcept flow.flowId m (set m key flow) := by
  intro key' flow' hne
  rw [get_set]
  split
  next hk =>
    subst hk
    constructor
    · intro he
      exact absurd (congrArg flowId (some.inj he)).symm hne
    · exact fun hget => absurd (h flow' hget) hne
  · rfl

theorem sameExcept_erase {flow : Flow}
    (hget : get m key = some flow) : SameExcept flow.flowId m (erase m key) := by
  intro key' flow' hne
  by_cases hk : key' = key
  · subst hk
    rw [get_erase_self, hget]
    constructor
    · exact fun he => absurd he.symm (some_ne_none flow')
    · exact fun he => absurd (congrArg flowId (some.inj he)).symm hne
  · rw [get_erase_of_ne hk]

/-- **The accounts of a tracker**: the flows are numbered, every flow has one entry, an open flow
has been started, any other has been started and ended. -/
structure Accounted (t : FlowTracker) : Prop where
  distinct : Distinct t.connections
  fresh : ∀ {key : ConnKey} {flow : Flow}, get t.connections key = some flow →
    flow.flowId < t.created
  opened : ∀ {id : ℕ}, IsOpen t.connections id → eventsOf t.log id = [.typeStart]
  closed : ∀ {id : ℕ}, id < t.created → ¬ IsOpen t.connections id →
    eventsOf t.log id = [.typeStart, .typeEnd]
  unborn : ∀ {id : ℕ}, t.created ≤ id → eventsOf t.log id = []

/-- What a call can do to the account of a flow. -/
inductive Account (t u : FlowTracker) (id : ℕ) : Prop
  | kept (hopen : IsOpen u.connections id ↔ IsOpen t.connections id)
      (hlog : eventsOf u.log id = eventsOf t.log id)
  | ended (hopen : IsOpen t.connections id) (hclosed : ¬ IsOpen u.connections id)
      (hlog : eventsOf u.log id = eventsOf t.log id ++ [.typeEnd])

/-- A step without new flows keeps the accounts if it does so flow by flow. -/
theorem Accounted.of_account {t u : FlowTracker} (h : Accounted t)
    (hdistinct : Distinct u.connections)
    (hids : ∀ {key flow}, get u.connections key = some flow → InTable t.connections flow.flowId)
    (hcreated : u.created = t.created) (haccount : ∀ id, Account t u id) : Accounted u where
  distinct := hdistinct
  fresh hget := by
    obtain ⟨key', flow', hget', hid⟩ := hids hget
    rw [hcreated, ← hid]
    exact h.fresh hget'
  opened {id} hopen := by
    cases haccount id with
    | kept hiff hlog => rw [hlog, h.opened (hiff.mp hopen)]
    | ended _ hclosed _ => exact absurd hopen hclosed
  closed {id} hid hclosed := by
    rw [hcreated] at hid
    cases haccount id with
    | kept hiff hlog => rw [hlog, h.closed hid (mt hiff.mpr hclosed)]
    | ended hopen _ hlog => rw [hlog, h.opened hopen]; rfl
  unborn {id} hid := by
    rw [hcreated] at hid
    cases haccount id with
    | kept _ hlog => rw [hlog, h.unborn hid]
    | ended hopen _ _ =>
      obtain ⟨key, flow, hget, rfl, -⟩ := hopen
      exact absurd (h.fresh hget) (Nat.not_lt.mpr hid)

theorem Distinct.of_sub {m m' : List (ConnKey × Flow)} (h : Distinct m) (hnodup : (keys m').Nodup)
    (hsub : ∀ {key flow}, get m' key = some flow → get m key = some flow) : Distinct m' where
  nodup := hnodup
  unique hget hget' := h.unique (hsub hget) (hsub hget')

theorem Distinct.set (h : Distinct m) {flow : Flow}
    (hfree : ∀ {k f}, get m k = some f → f.flowId = flow.flowId → k = key) :
    Distinct (set m key flow) where
  nodup := nodup_keys_set h.nodup key flow
  unique {k k' f f'} hget hget' hid := by
    obtain ⟨rfl, rfl⟩ | ⟨-, hold⟩ := get_set_eq_some.mp hget
    · obtain ⟨rfl, -⟩ | ⟨-, hold'⟩ := get_set_eq_some.mp hget'
      · rfl
      · rw [hfree hold' hid.symm]
    · obtain ⟨rfl, rfl⟩ | ⟨-, hold'⟩ := get_set_eq_some.mp hget'
      · exact hfree hold hid
      · exact h.unique hold hold' hid

/-- An entry that leaves the table is no longer open, and its end is sent if it was. -/
theorem Accounted.account_removed {t u : FlowTracker} (h : Accounted t) {flow : Flow}
    (hget : get t.connections key = some flow) (hgone : ¬ IsOpen u.connections flow.flowId)
    (hlog : eventsOf u.log flow.flowId = eventsOf t.log flow.flowId ++
      if flow.conn.ended = false then [.typeEnd] else []) : Account t u flow.flowId := by
  have hopen := h.distinct.isOpen_iff hget
  by_cases hended : flow.conn.ended = false
  · rw [if_pos hended] at hlog
    exact .ended (hopen.mpr hended) hgone hlog
  · rw [if_neg hended, append_nil] at hlog
    exact .kept (iff_of_false hgone (mt hopen.mp hended)) hlog

/-! ### What the parts of a call do -/

open TCPConnTrack

namespace Accounted

variable {t : FlowTracker} {now size : ℤ} {key : ConnKey} {flow : Flow} {flags : UInt8}
  {direction : Direction} {ord : RangeOrder ConnKey}

section

variable (h : Accounted t)

include h

/-- A segment of a tracked connection sends the end of its flow as it ends it. -/
theorem update (hget : get t.connections key = some flow)
    (hnot : flow.conn.isSupersededBy flags = false) :
    Accounted (t.update key flow now flags direction size) := by
  have hsame : SameExcept flow.flowId t.connections
      (t.update key flow now flags direction size).connections := by
    refine @sameExcept_set _ key (flow.updateState now flags direction size).1 fun old hold => ?_
    rw [hget] at hold
    rw [← some.inj hold]
    rfl
  have hdistinct : Distinct (t.update key flow now flags direction size).connections :=
    h.distinct.set fun hget' hid => h.distinct.unique hget' hget hid
  have hgot : get (t.update key flow now flags direction size).connections key =
      some (flow.updateState now flags direction size).1 := get_set_self
  refine h.of_account hdistinct (fun {k f} hf => ?_) rfl fun id => ?_
  · by_cases hid : f.flowId = flow.flowId
    · exact ⟨key, flow, hget, hid.symm⟩
    · exact ⟨k, f, (hsame k f hid).mp hf, rfl⟩
  · have hlog : eventsOf (t.update key flow now flags direction size).log id =
        eventsOf t.log id ++ eventsOf (flow.updateState now flags direction size).2 id :=
      eventsOf_append ..
    by_cases hid : id = flow.flowId
    · subst hid
      have hopen := h.distinct.isOpen_iff hget
      have hopen' := hdistinct.isOpen_iff hgot
      have hended : (flow.updateState now flags direction size).1.conn.ended =
          (flow.conn.ended || flow.conn.updateStateEnds flags direction) :=
        ended_updateState
      rw [hended] at hopen'
      rw [Flow.updateState] at hlog
      cases hends : flow.conn.updateStateEnds flags direction with
      | false =>
        rw [hends, Bool.or_false] at hopen'
        simp only [hends, false_eq_true, if_false, eventsOf_nil, append_nil] at hlog
        exact .kept (hopen'.trans hopen.symm) hlog
      | true =>
        have hactive : flow.conn.ended = false := by
          rw [TCPConnTrack.ended, tombstone_of_not_superseded hnot, Bool.or_false,
            decide_eq_false_iff_not]
          intro hwait
          rw [updateStateEnds_of_timeWait hwait] at hends
          exact noConfusion hends
        simp only [hends, if_true, eventsOf_sendEvent] at hlog
        rw [hends, Bool.or_true] at hopen'
        exact .ended (hopen.mpr hactive) (fun hop => noConfusion (hopen'.mp hop)) hlog
    · refine .kept (hsame.isOpen_iff hid) ?_
      rw [hlog, Flow.updateState]
      split
      · rw [eventsOf_sendEvent, if_neg hid, append_nil]
      · rw [eventsOf_nil, append_nil]

theorem updateIfExists :
    Accounted (t.updateIfExists now key flags direction size).1 := by
  rw [FlowTracker.updateIfExists]
  cases hget : get t.connections key with
  | none => exact h
  | some flow =>
    dsimp only
    split
    · exact h
    next hnot =>
      exact h.update hget (by simpa using hnot)

theorem evictOneLocked : Accounted (t.evictOneLocked ord) := by
  rw [FlowTracker.evictOneLocked]
  split
  · exact h
  next key _ =>
    cases hget : get t.connections key with
    | none =>
      rw [erase_of_get_none hget, append_nil]
      exact h
    | some flow =>
      have hsame := sameExcept_erase hget
      have hsub : ∀ {k f}, get (erase t.connections key) k = some f →
          get t.connections k = some f := fun hf => (get_of_get_erase hf).2
      refine h.of_account (h.distinct.of_sub (nodup_keys_filter h.distinct.nodup _) hsub)
        (fun {k f} hf => ⟨k, f, hsub hf, rfl⟩) rfl fun id => ?_
      by_cases hid : id = flow.flowId
      · subst hid
        refine h.account_removed hget ?_ ?_
        · rintro ⟨k, f, hf, hid, -⟩
          obtain rfl := h.distinct.unique (hsub hf) hget hid
          rw [get_erase_self] at hf
          cases hf
        · simp only [eventsOf_append, eventsOf_endOf, true_and]
      · refine .kept (hsame.isOpen_iff hid) ?_
        rw [eventsOf_append, eventsOf_endOf, if_neg (fun hc => hid hc.1), append_nil]

theorem makeRoom : Accounted (t.makeRoom ord) := by
  rw [FlowTracker.makeRoom]
  split
  · exact h.evictOneLocked
  · exact h

/-- A new flow is started, in the place of none or of one that has ended. -/
theorem insertFlow (ruleID : Bytes)
    (hfree : ∀ old, get t.connections key = some old → old.conn.ended)
    (hid : flow.flowId = t.created) (hactive : flow.conn.ended = false) :
    Accounted (t.insertFlow key flow ruleID) := by
  have hne : ∀ {k f}, get t.connections k = some f → f.flowId ≠ flow.flowId := by
    intro k f hf
    rw [hid]
    exact Nat.ne_of_lt (h.fresh hf)
  have hopen : ∀ id, IsOpen (set t.connections key flow) id ↔
      id = flow.flowId ∨ IsOpen t.connections id := by
    intro id
    constructor
    · rintro ⟨k, f, hf, rfl, hended⟩
      obtain ⟨-, rfl⟩ | ⟨-, hf⟩ := get_set_eq_some.mp hf
      · exact .inl rfl
      · exact .inr ⟨k, f, hf, rfl, hended⟩
    · rintro (rfl | ⟨k, f, hf, rfl, hended⟩)
      · exact ⟨key, flow, get_set_self, rfl, hactive⟩
      · refine ⟨k, f, ?_, rfl, hended⟩
        rw [get_set, if_neg, hf]
        rintro rfl
        rw [hfree f hf] at hended
        exact noConfusion hended
  have hlog : ∀ id, eventsOf (t.insertFlow key flow ruleID).log id =
      eventsOf t.log id ++ if id = flow.flowId then [.typeStart] else [] := by
    intro id
    rw [← eventsOf_sendEvent .typeStart flow ruleID id]
    exact eventsOf_append ..
  refine ⟨h.distinct.set fun hf he => absurd he (hne hf), ?_, ?_, ?_, ?_⟩
  · intro k f hf
    obtain ⟨-, rfl⟩ | ⟨-, hf⟩ := get_set_eq_some.mp hf
    · rw [hid]
      exact Nat.lt_succ_self _
    · exact Nat.lt_succ_of_lt (h.fresh hf)
  · intro id hop
    rw [hlog]
    rcases (hopen id).mp hop with rfl | hold
    · rw [if_pos rfl, h.unborn hid.ge]
      rfl
    · have hevents := h.opened hold
      obtain ⟨k, f, hf, rfl, -⟩ := hold
      rw [if_neg (hne hf), append_nil, hevents]
  · intro id hlt hclosed
    have hnew : id ≠ flow.flowId := fun he => hclosed ((hopen id).mpr (.inl he))
    have hlt' : id < t.created + 1 := hlt
    rw [hlog, if_neg hnew, append_nil]
    refine h.closed (by omega) fun hold => hclosed ((hopen id).mpr (.inr hold))
  · intro id hge
    have hge' : t.created + 1 ≤ id := hge
    rw [hlog, if_neg (by omega), append_nil]
    exact h.unborn (by omega)

end

/-- The entry that `track` makes is open, and no event is sent before its start. -/
theorem updateState_newConn (id : ℕ) (origPort : UInt16) (hsyn : hasFlag flags tcpSyn)
    (hlegal : isValidFlagCombination flags) :
    (updateState ⟨id, newConn key direction origPort⟩ now flags direction size).2 = [] ∧
      (updateState ⟨id, newConn key direction origPort⟩ now flags direction
        size).1.conn.ended = false := by
  have hends : (newConn key direction origPort).updateStateEnds flags direction = false := by
    have hrst : hasFlag flags tcpRst = false := by
      rw [isValidFlagCombination, hsyn] at hlegal
      cases hrst : hasFlag flags tcpRst with
      | false => rfl
      | true => simp [hrst] at hlegal
    rw [updateStateEnds, hlegal, hrst]
    simp only [Bool.not_true, false_eq_true, if_false]
    split
    · rfl
    · simp only [newConn, nextState, stateTable, transNew]
      cases direction <;> split <;> rfl
  constructor
  · rw [Flow.updateState, hends]
    rfl
  · rw [Flow.updateState, TCPConnTrack.ended_updateState, hends]
    rfl

/-- `updateIfExists` finds no entry, or one whose end has been sent. -/
theorem ended_of_updateIfExists {old : Flow}
    (hnone : (t.updateIfExists now key flags direction size).2 = none)
    (hget : get t.connections key = some old) : old.conn.ended := by
  rw [FlowTracker.updateIfExists, hget] at hnone
  dsimp only at hnone
  split at hnone
  next hsup =>
    rw [isSupersededBy] at hsup
    rw [ended]
    split at hsup
    next hmark =>
      rw [hmark, Bool.or_true]
    · simp only [Bool.and_eq_true, decide_eq_true_eq] at hsup
      rw [hsup.2]
      rfl
  · cases hnone

theorem updateIfExists_eq_self (hnone : (t.updateIfExists now key flags direction size).2 = none) :
    (t.updateIfExists now key flags direction size).1 = t := by
  rw [FlowTracker.updateIfExists] at hnone ⊢
  split
  · rfl
  next flow hget =>
    rw [hget] at hnone
    dsimp only at hnone ⊢
    split at hnone
    next hsup =>
      rw [if_pos hsup]
    · cases hnone

theorem ended_of_get_makeRoom {old : Flow}
    (hfree : ∀ old, get t.connections key = some old → old.conn.ended)
    (hget : get (t.makeRoom ord).connections key = some old) : old.conn.ended := by
  rw [FlowTracker.makeRoom] at hget
  split at hget
  · rw [FlowTracker.evictOneLocked] at hget
    split at hget
    · exact hfree old hget
    · exact hfree old (get_of_get_erase hget).2
  · exact hfree old hget

theorem created_makeRoom : (t.makeRoom ord).created = t.created := by
  rw [FlowTracker.makeRoom, FlowTracker.evictOneLocked]
  repeat' split
  all_goals rfl

theorem track (h : Accounted t) (ruleID : Bytes) (origPort : UInt16) :
    Accounted (t.track now ord key flags direction ruleID size origPort) := by
  have hkept : Accounted (t.updateIfExists now key flags direction size).1 := h.updateIfExists
  rw [FlowTracker.track]
  cases hupdate : t.updateIfExists now key flags direction size with
  | mk u port =>
    rw [hupdate] at hkept
    cases port with
    | some _ => exact hkept
    | none =>
      have hnone : (t.updateIfExists now key flags direction size).2 = none := by rw [hupdate]
      have hself : t = u := by
        rw [← updateIfExists_eq_self hnone, hupdate]
      subst hself
      cases hsyn : hasFlag flags tcpSyn with
      | false => exact h
      | true =>
        cases hlegal : isValidFlagCombination flags with
        | false => exact h
        | true =>
          obtain ⟨hevents, hactive⟩ := @updateState_newConn now size key flags direction
            t.created origPort hsyn hlegal
          simp only [Bool.not_true, false_eq_true, if_false, hevents, append_nil]
          refine h.makeRoom.insertFlow ruleID (fun old hold => ?_) ?_ hactive
          · exact ended_of_get_makeRoom (fun old hget => ended_of_updateIfExists hnone hget) hold
          · rw [created_makeRoom]
            rfl

theorem isValidInbound (h : Accounted t) (packet : ConnKey) :
    Accounted (t.isValidInbound now packet flags size).1 := by
  rw [FlowTracker.isValidInbound]
  cases hget : get t.connections packet.reversed with
  | none => exact h
  | some flow =>
    dsimp only
    split_ifs with hsup
    · exact h
    · exact h
    · exact h
    · exact h.update hget (Bool.eq_false_iff.mpr hsup)

theorem get_cleanup (now : ConnKey → ℤ) (key : ConnKey) :
    get (t.cleanup now ord).connections key = (get t.connections key).bind fun flow =>
        if t.cleansUp now key flow then none else some flow := by
  rw [FlowTracker.cleanup, get_mapEntries]

theorem of_get_cleanup {now : ConnKey → ℤ}
    (hget : get (t.cleanup now ord).connections key = some flow) :
    get t.connections key = some flow ∧ t.cleansUp now key flow = false := by
  rw [get_cleanup, bind_eq_some_iff] at hget
  obtain ⟨flow', hget', hkept⟩ := hget
  split at hkept
  · cases hkept
  next hclean =>
    cases hkept
    exact ⟨hget', by simpa using hclean⟩

theorem eventsOf_cleanup (now : ConnKey → ℤ) (id : ℕ) :
    eventsOf (t.cleanup now ord).log id = eventsOf t.log id ++
      (range ord t.connections).flatMap fun e =>
        if t.cleansUp now e.1 e.2 ∧ id = e.2.flowId ∧ e.2.conn.ended = false
          then [.typeEnd] else [] := by
  rw [FlowTracker.cleanup, eventsOf_append, eventsOf_flatMap]
  congr 2
  funext e
  cases t.cleansUp now e.1 e.2 with
  | false => simp
  | true => simp [eventsOf_endOf]

/-- The cleanup sends one end for each open entry it deletes. -/
theorem cleanup (h : Accounted t) (now : ConnKey → ℤ) : Accounted (t.cleanup now ord) := by
  have hdistinct : Distinct (t.cleanup now ord).connections := by
    refine h.distinct.of_sub ?_ fun hget => (of_get_cleanup hget).1
    rw [FlowTracker.cleanup]
    dsimp only
    exact nodup_keys_mapEntries h.distinct.nodup _
  refine h.of_account hdistinct (fun {key flow} hget => ⟨key, flow, (of_get_cleanup hget).1, rfl⟩)
    rfl fun id => ?_
  by_cases hin : InTable t.connections id
  · obtain ⟨key, flow, hget, rfl⟩ := hin
    -- the only entry of the flow decides what is sent for it
    have hevents := @eventsOf_cleanup t ord now flow.flowId
    rw [flatMap_eq_of_unique (List.Nodup.of_map Prod.fst
      (nodup_keys_range h.distinct.nodup ord)) (mem_range.mpr hget)] at hevents
    · cases hclean : t.cleansUp now key flow with
      | false =>
        have hget' : get (t.cleanup now ord).connections key = some flow := by
          rw [get_cleanup, hget, bind_some, hclean]
          rfl
        refine .kept ((hdistinct.isOpen_iff hget').trans (h.distinct.isOpen_iff hget).symm) ?_
        rw [hevents, hclean, if_neg fun hc => noConfusion hc.1, append_nil]
      | true =>
        refine h.account_removed hget ?_ ?_
        · rintro ⟨key', flow', hget', hid, -⟩
          obtain ⟨hold, hkept⟩ := of_get_cleanup hget'
          obtain rfl := h.distinct.unique hold hget hid
          rw [hget] at hold
          rw [← some.inj hold, hclean] at hkept
          exact noConfusion hkept
        · simp only [hevents, hclean, true_and]
    · rintro ⟨key', flow'⟩ hmem hne
      refine if_neg fun hc => hne ?_
      have hget' := mem_range.mp hmem
      obtain rfl := h.distinct.unique hget' hget hc.2.1.symm
      rw [hget] at hget'
      rw [some.inj hget']
  · refine .kept (iff_of_false ?_ ?_) ?_
    · rintro ⟨key, flow, hget, hid, -⟩
      exact hin ⟨key, flow, (of_get_cleanup hget).1, hid⟩
    · rintro ⟨key, flow, hget, hid, -⟩
      exact hin ⟨key, flow, hget, hid⟩
    · rw [eventsOf_cleanup, flatMap_eq_nil_iff.mpr, append_nil]
      rintro ⟨key, flow⟩ hmem
      exact if_neg fun hc => hin ⟨key, flow, mem_range.mp hmem, hc.2.1.symm⟩

/-- **One call** keeps the accounts. -/
theorem apply (h : Accounted t) (call : FlowCall) : Accounted (t.apply call) := by
  cases call with
  | trackOutbound now ord packet flags size =>
    show Accounted (t.trackOutbound now ord packet flags size).1
    rw [FlowTracker.trackOutbound]
    have hkept : Accounted (t.updateIfExists now packet.reversed flags .egress size).1 :=
      h.updateIfExists
    cases hupdate : t.updateIfExists now packet.reversed flags .egress size with
    | mk u port =>
      rw [hupdate] at hkept
      cases port with
      | some _ => exact hkept
      | none => exact hkept.track [] 0
  | trackInbound now ord packet flags ruleID size dnatOrigPort => exact h.track ruleID dnatOrigPort
  | isValidInbound now packet flags size => exact h.isValidInbound packet
  | cleanup now ord => exact h.cleanup now

theorem after (h : Accounted t) (calls : List FlowCall) : Accounted (t.after calls) := by
  induction calls generalizing t with
  | nil => exact h
  | cons call calls ih => exact ih (h.apply call)

theorem of_empty (hconns : t.connections = []) (hcreated : t.created = 0) (hlog : t.log = []) :
    Accounted t where
  distinct := by
    rw [hconns]
    exact ⟨nodup_nil, fun hget => by cases hget⟩
  fresh hget := by
    rw [hconns] at hget
    cases hget
  opened {id} hopen := by
    rw [hconns] at hopen
    obtain ⟨_, _, hget, -⟩ := hopen
    cases hget
  closed {id} hid := by
    rw [hcreated] at hid
    exact absurd hid (Nat.not_lt_zero id)
  unborn {id} _ := by
    rw [hlog, eventsOf_nil]

end Accounted

/-- **Flow accounting**: every flow id has exactly one start and at most one end, which comes after
it, and exactly one end if the flow is no longer in the table; no other id has an event. -/
theorem flow_accounting (timeout finWaitTimeout closeWaitTimeout lastAckTimeout maxEntries : ℤ)
    (calls : List FlowCall) (id : ℕ) :
    let t := (newFlowTracker timeout finWaitTimeout closeWaitTimeout lastAckTimeout
      maxEntries).after calls
    (id < t.created →
      (eventsOf t.log id = [.typeStart] ∨ eventsOf t.log id = [.typeStart, .typeEnd]) ∧
      (¬ InTable t.connections id → eventsOf t.log id = [.typeStart, .typeEnd])) ∧
    (t.created ≤ id → eventsOf t.log id = []) := by
  intro t
  have h : Accounted t := Accounted.after (.of_empty rfl rfl rfl) calls
  refine ⟨fun hid => ⟨?_, fun hout => ?_⟩, h.unborn⟩
  · by_cases hopen : IsOpen t.connections id
    · exact .inl (h.opened hopen)
    · exact .inr (h.closed hid hopen)
  · refine h.closed hid ?_
    rintro ⟨key, flow, hget, hflow, -⟩
    exact hout ⟨key, flow, hget, hflow⟩

end Conntrack
