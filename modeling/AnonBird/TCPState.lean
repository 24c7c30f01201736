/-
# The states of a tracked TCP connection

Model of the entries of `conntrack/tcp.go`.  The main result follows an entry through any sequence
of segments, legal or not, from either side: it ends gracefully only after it was established and
both sides have sent a legal FIN since.
-/
import AnonBird.NetIP

open NetIP List

namespace Conntrack

/-! ## Flags -/

/-- The FIN flag. -/
def tcpFin : UInt8 := 0x01
/-- The SYN flag. -/
def tcpSyn : UInt8 := 0x02
/-- The RST flag. -/
def tcpRst : UInt8 := 0x04
/-- The ACK flag. -/
def tcpAck : UInt8 := 0x10

/-- `flags&bit != 0`. -/
def hasFlag (flags bit : UInt8) : Bool := flags &&& bit ≠ 0

/-- SYN with FIN, and RST with either, are refused. -/
def isValidFlagCombination (flags : UInt8) : Bool :=
  if hasFlag flags tcpSyn && hasFlag flags tcpFin then false
  else if hasFlag flags tcpRst && (hasFlag flags tcpSyn || hasFlag flags tcpFin) then false
  else true

/-- `nftypes.Direction`, without the unknown one, which the tracker never passes. -/
inductive Direction where
  | ingress
  | egress
  deriving DecidableEq, Repr

/-- `TCPState`, in the order of the source. -/
inductive TCPState where
  | new
  | synSent
  | synReceived
  | established
  | finWait1
  | finWait2
  | closing
  | timeWait
  | closeWait
  | lastAck
  | closed
  deriving DecidableEq, Repr

/-! ## Entries -/

/-- `TCPConnTrack` with its `BaseConnTrack`; the id of the flow is left out. -/
structure TCPConnTrack where
  direction : Direction
  sourceIP : Option Addr
  destIP : Option Addr
  sourcePort : UInt16
  destPort : UInt16
  lastSeen : ℤ := 0
  packetsTx : UInt64 := 0
  packetsRx : UInt64 := 0
  bytesTx : UInt64 := 0
  bytesRx : UInt64 := 0
  dnatOrigPort : UInt32 := 0
  state : TCPState := .new
  tombstone : Bool := false
  deriving DecidableEq, Repr

/-- `ConnKey`: the four-tuple of a connection, and of a packet. -/
structure ConnKey where
  srcIP : Option Addr
  dstIP : Option Addr
  srcPort : UInt16
  dstPort : UInt16
  deriving DecidableEq, Repr

/-- The four-tuple of the other direction. -/
def ConnKey.reversed (key : ConnKey) : ConnKey := ⟨key.dstIP, key.srcIP, key.dstPort, key.srcPort⟩

/-- The entry that `track` makes. -/
def newConn (key : ConnKey) (direction : Direction) (origPort : UInt16) : TCPConnTrack where
  direction := direction
  sourceIP := key.srcIP
  destIP := key.dstIP
  sourcePort := key.srcPort
  destPort := key.dstPort
  dnatOrigPort := origPort.toUInt32

/-! ### Transitions -/

/-- A transition function of the source: the state to go to, where `new`, the zero of
`TCPState`, stands for no transition. -/
abbrev StateTransition := UInt8 → Direction → Bool → TCPState

/-- A SYN opens the connection. -/
def transNew : StateTransition := fun flags connDir _ =>
  if hasFlag flags tcpSyn && !hasFlag flags tcpAck then
    if connDir = .egress then .synSent else .synReceived
  else .new

/-- The reply to a SYN. -/
def transSynSent : StateTransition := fun flags _ same =>
  if hasFlag flags tcpSyn && hasFlag flags tcpAck then
    if same then .synReceived else .established
  else .new

/-- The last step of the handshake. -/
def transSynReceived : StateTransition := fun flags _ same =>
  if hasFlag flags tcpAck && !hasFlag flags tcpSyn && same then .established else .new

/-- The first FIN, from either side. -/
def transEstablished : StateTransition := fun flags _ same =>
  if !hasFlag flags tcpFin then .new
  else if same then .finWait1
  else .closeWait

/-- What answers the FIN of the opener. -/
def transFinWait1 : StateTransition := fun flags _ same =>
  if same then .new
  else if hasFlag flags tcpFin && hasFlag flags tcpAck then .timeWait
  else if hasFlag flags tcpFin then .closing
  else if hasFlag flags tcpAck then .finWait2
  else .new

/-- The FIN of the other side. -/
def transFinWait2 : StateTransition := fun flags _ same =>
  if hasFlag flags tcpFin && !same then .timeWait else .new

/-- The last acknowledgement of two crossing FINs. -/
def transClosing : StateTransition := fun flags _ same =>
  if hasFlag flags tcpAck && !same then .timeWait else .new

/-- The FIN of the side that was left. -/
def transCloseWait : StateTransition := fun flags _ same =>
  if hasFlag flags tcpFin && same then .lastAck else .new

/-- The last acknowledgement. -/
def transLastAck : StateTransition := fun flags _ same =>
  if hasFlag flags tcpAck && !same then .closed else .new

/-- `stateTable`; the terminal states have no entry. -/
def stateTable : TCPState → Option StateTransition
  | .new => some transNew
  | .synSent => some transSynSent
  | .synReceived => some transSynReceived
  | .established => some transEstablished
  | .finWait1 => some transFinWait1
  | .finWait2 => some transFinWait2
  | .closing => some transClosing
  | .closeWait => some transCloseWait
  | .lastAck => some transLastAck
  | .timeWait => none
  | .closed => none

/-- The state after a packet, `new` where nothing changes. -/
def nextState (currentState : TCPState) (connDir packetDir : Direction) (flags : UInt8) :
    TCPState :=
  match stateTable currentState with
  | none => .new
  | some fn => fn flags connDir (packetDir = connDir)

namespace TCPConnTrack

variable (conn : TCPConnTrack)

/-- A packet is counted. -/
def updateCounters (direction : Direction) (bytes : ℤ) : TCPConnTrack :=
  if direction = .egress then
    { conn with packetsTx := conn.packetsTx + 1, bytesTx := conn.bytesTx + UInt64.ofInt bytes }
  else
    { conn with packetsRx := conn.packetsRx + 1, bytesRx := conn.bytesRx + UInt64.ofInt bytes }

/-- A packet starts a connection over. -/
def isSupersededBy (flags : UInt8) : Bool :=
  if conn.tombstone then true
  else hasFlag flags tcpSyn && !hasFlag flags tcpAck && conn.state = .timeWait

/-- `handleRst`: a late reset in TIME-WAIT and one from the side of the SYN are ignored. -/
def handleRst (packetDir : Direction) : TCPConnTrack :=
  if conn.state = .timeWait then conn
  else if conn.state = .synSent ∧ packetDir = conn.direction then conn
  else { conn with state := .closed, tombstone := true }

/-- `onTransition`, after the state has been set. -/
def onTransition (newState : TCPState) : TCPConnTrack :=
  if newState = .closed then { conn with tombstone := true } else conn

/-- `updateState`: the counters count every segment, and only a legal one does more. -/
def updateState (now : ℤ) (flags : UInt8) (packetDir : Direction) (size : ℤ) : TCPConnTrack :=
  let conn := conn.updateCounters packetDir size
  if !isValidFlagCombination flags then conn
  else
    let conn := { conn with lastSeen := now }
    if hasFlag flags tcpRst then conn.handleRst packetDir
    else
      let newState := nextState conn.state conn.direction packetDir flags
      if newState = .new then conn
      else { conn with state := newState }.onTransition newState

/-! ### What a segment does to the state -/

/-- The entry without its counters. -/
def core : TCPConnTrack := { conn with packetsTx := 0, packetsRx := 0, bytesTx := 0, bytesRx := 0 }

/-- The state after a segment. -/
def stateAfter (state : TCPState) (connDir : Direction) (flags : UInt8) (packetDir : Direction) :
    TCPState :=
  if !isValidFlagCombination flags then state
  else if hasFlag flags tcpRst then
    if state = .timeWait then state
    else if state = .synSent ∧ packetDir = connDir then state
    else .closed
  else if nextState state connDir packetDir flags = .new then state
  else nextState state connDir packetDir flags

variable {conn} {now size : ℤ} {flags : UInt8} {packetDir : Direction}

theorem core_updateCounters : (conn.updateCounters packetDir size).core = conn.core := by
  rw [updateCounters]
  split <;> rfl

@[simp] theorem state_updateCounters : (conn.updateCounters packetDir size).state = conn.state := by
  rw [updateCounters]
  split <;> rfl

@[simp] theorem direction_updateCounters :
    (conn.updateCounters packetDir size).direction = conn.direction := by
  rw [updateCounters]
  split <;> rfl

@[simp] theorem tombstone_updateCounters :
    (conn.updateCounters packetDir size).tombstone = conn.tombstone := by
  rw [updateCounters]
  split <;> rfl

theorem direction_updateState :
    (conn.updateState now flags packetDir size).direction = conn.direction := by
  simp only [updateState, handleRst, onTransition]
  repeat' split
  all_goals simp

theorem state_updateState : (conn.updateState now flags packetDir size).state =
    stateAfter conn.state conn.direction flags packetDir := by
  simp only [updateState, handleRst, onTransition, stateAfter, state_updateCounters,
    direction_updateCounters]
  repeat' split
  all_goals simp_all

/-- A segment marks an entry for deletion exactly as it closes it. -/
theorem tombstone_updateState (h : conn.state = .closed → conn.tombstone) :
    (conn.updateState now flags packetDir size).tombstone ↔ conn.tombstone ∨
        stateAfter conn.state conn.direction flags packetDir = .closed := by
  simp only [updateState, handleRst, onTransition, stateAfter, state_updateCounters,
    direction_updateCounters]
  repeat' split
  all_goals simp_all

end TCPConnTrack

/-! ## Sequences of segments -/

/-- A segment of a connection, with the time of its arrival. -/
structure Segment where
  now : ℤ
  flags : UInt8
  direction : Direction
  size : ℤ
  deriving DecidableEq, Repr

/-- A legal segment with FIN. -/
def Segment.legalFin (s : Segment) : Bool :=
  isValidFlagCombination s.flags && hasFlag s.flags tcpFin

/-- The entry after a sequence of segments. -/
def TCPConnTrack.segments (conn : TCPConnTrack) (segs : List Segment) : TCPConnTrack :=
  segs.foldl (fun conn s => conn.updateState s.now s.flags s.direction s.size) conn

namespace TCPConnTrack

variable {conn : TCPConnTrack} (segs : List Segment)

theorem segments_concat (s : Segment) : conn.segments (segs ++ [s]) =
      (conn.segments segs).updateState s.now s.flags s.direction s.size := by
  rw [segments, segments, foldl_concat]

theorem direction_segments :
    (conn.segments segs).direction = conn.direction := by
  induction segs using reverseRecOn with
  | nil => rfl
  | append_singleton segs s ih => rw [segments_concat, direction_updateState, ih]

theorem state_segments_concat (s : Segment) :
    (conn.segments (segs ++ [s])).state =
      stateAfter (conn.segments segs).state conn.direction s.flags s.direction := by
  rw [segments_concat, state_updateState, direction_segments]

end TCPConnTrack

/-! ## Teardown -/

/-- The changes of state that segments make, apart from those of the handshake, each with what
its segment must be. -/
inductive Change (connDir packetDir : Direction) (flags : UInt8) : TCPState → TCPState → Prop
  | reset {st : TCPState} (h : hasFlag flags tcpRst = true) :
      Change connDir packetDir flags st .closed
  | handshake {st st' : TCPState} (h : st' = .synSent ∨ st' = .synReceived ∨ st' = .established) :
      Change connDir packetDir flags st st'
  | ownFin (h : hasFlag flags tcpFin = true) (hdir : packetDir = connDir) :
      Change connDir packetDir flags .established .finWait1
  | peerFin (h : hasFlag flags tcpFin = true) (hdir : packetDir ≠ connDir) :
      Change connDir packetDir flags .established .closeWait
  | ownFinAcked (hdir : packetDir ≠ connDir) : Change connDir packetDir flags .finWait1 .finWait2
  | bothFins (h : hasFlag flags tcpFin = true) (hdir : packetDir ≠ connDir) :
      Change connDir packetDir flags .finWait1 .closing
  | peerFinLast {st : TCPState} (hst : st = .finWait1 ∨ st = .finWait2)
      (h : hasFlag flags tcpFin = true) (hdir : packetDir ≠ connDir) :
      Change connDir packetDir flags st .timeWait
  | closingAcked : Change connDir packetDir flags .closing .timeWait
  | ownFinLast (h : hasFlag flags tcpFin = true) (hdir : packetDir = connDir) :
      Change connDir packetDir flags .closeWait .lastAck
  | lastAcked (h : hasFlag flags tcpRst = false) : Change connDir packetDir flags .lastAck .closed

variable {st : TCPState} {connDir packetDir : Direction} {flags : UInt8}

/-- A row of the table that keeps a connection new unless its condition holds. -/
theorem Change.of_ite {c : Bool} {st' : TCPState} (h : (if c then st' else .new) ≠ .new)
    (hchange : c → Change connDir packetDir flags st st') :
    Change connDir packetDir flags st (if c then st' else .new) := by
  split at h
  next hc =>
    rw [if_pos hc]
    exact hchange hc
  · exact absurd rfl h

open Change

/-- The transition functions make these changes only. -/
theorem change_of_nextState
    (hrst : hasFlag flags tcpRst = false) (h : nextState st connDir packetDir flags ≠ .new) :
    Change connDir packetDir flags st (nextState st connDir packetDir flags) := by
  cases st with
  | new | synSent => exact .of_ite h fun _ => by split <;> exact .handshake (by simp)
  | synReceived => exact .of_ite h fun _ => .handshake (by simp)
  | established =>
    simp only [nextState, stateTable, transEstablished] at h ⊢
    cases hfin : hasFlag flags tcpFin with
    | false => simp [hfin] at h
    | true =>
      by_cases hdir : packetDir = connDir
      · simpa [hfin, hdir] using ownFin hfin hdir
      · simpa [hfin, hdir] using peerFin hfin hdir
  | finWait1 =>
    simp only [nextState, stateTable, transFinWait1] at h ⊢
    by_cases hdir : packetDir = connDir
    · simp [hdir] at h
    · cases hfin : hasFlag flags tcpFin with
      | true =>
        cases hack : hasFlag flags tcpAck with
        | true => simpa [hfin, hack, hdir] using peerFinLast (.inl rfl) hfin hdir
        | false => simpa [hfin, hack, hdir] using bothFins hfin hdir
      | false =>
        cases hack : hasFlag flags tcpAck with
        | true => simpa [hfin, hack, hdir] using ownFinAcked hdir
        | false => simp [hfin, hack, hdir] at h
  | finWait2 =>
    refine .of_ite h fun hcond => ?_
    rw [Bool.and_eq_true, Bool.not_eq_true', decide_eq_false_iff_not] at hcond
    exact .peerFinLast (.inr rfl) hcond.1 hcond.2
  | closing => exact .of_ite h fun _ => .closingAcked
  | closeWait =>
    refine .of_ite h fun hcond => ?_
    rw [Bool.and_eq_true, decide_eq_true_eq] at hcond
    exact .ownFinLast hcond.1 hcond.2
  | lastAck => exact .of_ite h fun _ => .lastAcked hrst
  | timeWait | closed => exact absurd rfl h

open TCPConnTrack

/-- **One segment**: an illegal one leaves the state, and a legal one leaves it or changes it in
one of these ways. -/
theorem change_of_stateAfter (st : TCPState) (connDir packetDir : Direction) (flags : UInt8) :
    stateAfter st connDir flags packetDir = st ∨ isValidFlagCombination flags ∧
        Change connDir packetDir flags st (stateAfter st connDir flags packetDir) := by
  rw [stateAfter]
  cases hlegal : isValidFlagCombination flags with
  | false => exact .inl rfl
  | true =>
    rw [if_neg (by simp)]
    cases hrst : hasFlag flags tcpRst with
    | true =>
      rw [if_pos rfl]
      split
      · exact .inl rfl
      · split
        · exact .inl rfl
        · exact .inr ⟨rfl, .reset hrst⟩
    | false =>
      rw [if_neg Bool.false_ne_true]
      split
      · exact .inl rfl
      next hmoves =>
        exact .inr ⟨rfl, change_of_nextState hrst hmoves⟩

/-! ### What has been seen -/

namespace TCPConnTrack

variable {conn : TCPConnTrack} {segs : List Segment} {own peer : Bool}

/-- The entry was established, and since then a legal FIN has come from its own side, if asked
for, and from the other side, if asked for. -/
def FinsSince (conn : TCPConnTrack) (segs : List Segment) (own peer : Bool) : Prop :=
  ∃ before since, segs = before ++ since ∧ (conn.segments before).state = .established ∧
    (own = true → ∃ f ∈ since, f.legalFin = true ∧ f.direction = conn.direction) ∧
    (peer = true → ∃ f ∈ since, f.legalFin = true ∧ f.direction ≠ conn.direction)

theorem FinsSince.concat (h : conn.FinsSince segs own peer) (s : Segment) :
    conn.FinsSince (segs ++ [s]) own peer := by
  obtain ⟨before, since, rfl, hest, hown, hpeer⟩ := h
  refine ⟨before, since ++ [s], append_assoc .., hest, fun ho => ?_, fun hp => ?_⟩
  · obtain ⟨f, hf, hfin⟩ := hown ho
    exact ⟨f, mem_append_left _ hf, hfin⟩
  · obtain ⟨f, hf, hfin⟩ := hpeer hp
    exact ⟨f, mem_append_left _ hf, hfin⟩

variable {s : Segment}

theorem FinsSince.withOwnFin (h : conn.FinsSince segs own peer)
    (hs : s.legalFin) (hdir : s.direction = conn.direction) :
    conn.FinsSince (segs ++ [s]) true peer := by
  obtain ⟨before, since, rfl, hest, -, hpeer⟩ := h
  refine ⟨before, since ++ [s], append_assoc .., hest, fun _ => ?_, fun hp => ?_⟩
  · exact ⟨s, by simp, hs, hdir⟩
  · obtain ⟨f, hf, hfin⟩ := hpeer hp
    exact ⟨f, mem_append_left _ hf, hfin⟩

theorem FinsSince.withPeerFin (h : conn.FinsSince segs own peer)
    (hs : s.legalFin) (hdir : s.direction ≠ conn.direction) :
    conn.FinsSince (segs ++ [s]) own true := by
  obtain ⟨before, since, rfl, hest, hown, -⟩ := h
  refine ⟨before, since ++ [s], append_assoc .., hest, fun ho => ?_, fun _ => ?_⟩
  · obtain ⟨f, hf, hfin⟩ := hown ho
    exact ⟨f, mem_append_left _ hf, hfin⟩
  · exact ⟨s, by simp, hs, hdir⟩

theorem FinsSince.of_established (h : (conn.segments segs).state = .established) :
    conn.FinsSince segs false false :=
  ⟨segs, [], by simp, h, by simp, by simp⟩

/-- What a state of the teardown says about the FINs that have been seen. -/
def Torn (conn : TCPConnTrack) (segs : List Segment) : TCPState → Prop
  | .finWait1 | .finWait2 => conn.FinsSince segs true false
  | .closeWait => conn.FinsSince segs false true
  | .closing | .timeWait | .lastAck => conn.FinsSince segs true true
  | .new | .synSent | .synReceived | .established | .closed => True

theorem Torn.concat (h : conn.Torn segs st) (s : Segment) :
    conn.Torn (segs ++ [s]) st := by
  cases st with
  | finWait1 | finWait2 | closeWait | closing | timeWait | lastAck => exact FinsSince.concat h s
  | new | synSent | synReceived | established | closed => trivial

variable (conn : TCPConnTrack)

/-- **The invariant of the teardown**: every state of a sequence of segments on a new entry says
the truth about the FINs. -/
theorem torn_segments (hnew : conn.state = .new) (segs : List Segment) :
    conn.Torn segs (conn.segments segs).state := by
  induction segs using reverseRecOn with
  | nil =>
    show conn.Torn [] conn.state
    rw [hnew]
    trivial
  | append_singleton segs s ih =>
    rw [state_segments_concat]
    rcases change_of_stateAfter (conn.segments segs).state conn.direction s.direction s.flags
      with hsame | ⟨hlegal, hchange⟩
    · rw [hsame]
      exact ih.concat s
    · have hfin : hasFlag s.flags tcpFin → s.legalFin := fun hf => by
        rw [Segment.legalFin, hlegal, hf]
        rfl
      generalize hst : (conn.segments segs).state = st at ih hchange
      generalize stateAfter st conn.direction s.flags s.direction = st' at hchange
      cases hchange with
      | reset => trivial
      | handshake h => rcases h with rfl | rfl | rfl <;> trivial
      | ownFin h hdir => exact (FinsSince.of_established hst).withOwnFin (hfin h) hdir
      | peerFin h hdir => exact (FinsSince.of_established hst).withPeerFin (hfin h) hdir
      | ownFinAcked | closingAcked => exact FinsSince.concat ih s
      | bothFins h hdir => exact FinsSince.withPeerFin ih (hfin h) hdir
      | peerFinLast hfrom h hdir =>
        rcases hfrom with rfl | rfl <;> exact FinsSince.withPeerFin ih (hfin h) hdir
      | ownFinLast h hdir => exact FinsSince.withOwnFin ih (hfin h) hdir
      | lastAcked => trivial

/-- An entry that ends gracefully has seen both FINs. -/
theorem finsSince_of_end (hnew : conn.state = .new) {segs : List Segment}
    (hends : (conn.segments (segs ++ [s])).state = .timeWait ∨
      ((conn.segments segs).state ≠ .closed ∧ (conn.segments (segs ++ [s])).state = .closed ∧
        hasFlag s.flags tcpRst = false)) : conn.FinsSince (segs ++ [s]) true true := by
  rcases hends with hwait | ⟨hopen, hclosed, hrst⟩
  · have htorn := conn.torn_segments hnew (segs ++ [s])
    rw [hwait] at htorn
    exact htorn
  · have htorn := conn.torn_segments hnew segs
    rw [state_segments_concat] at hclosed
    rcases change_of_stateAfter (conn.segments segs).state conn.direction s.direction s.flags
      with hsame | ⟨-, hchange⟩
    · rw [hsame] at hclosed
      exact absurd hclosed hopen
    · rw [hclosed] at hchange
      generalize (conn.segments segs).state = st at htorn hchange
      cases hchange with
      | reset hflag => rw [hrst] at hflag; exact Bool.noConfusion hflag
      | handshake hst => simp at hst
      | lastAcked => exact FinsSince.concat htorn s

/-! ### One side alone -/

/-- The states before the teardown, and the one to which a FIN from one side alone leads. -/
def OneSided (own : Bool) (st : TCPState) : Prop :=
  st = .new ∨ st = .synSent ∨ st = .synReceived ∨ st = .established ∨
    st = if own then .finWait1 else .closeWait

theorem OneSided.segment
    (h : OneSided (packetDir = connDir) st) (hrst : hasFlag flags tcpRst = false) :
    OneSided (packetDir = connDir) (stateAfter st connDir flags packetDir) := by
  rcases change_of_stateAfter st connDir packetDir flags with hsame | ⟨-, hchange⟩
  · rw [hsame]
    exact h
  · generalize stateAfter st connDir flags packetDir = st' at hchange
    rw [OneSided] at h ⊢
    cases hchange with
    | reset hflag => rw [hrst] at hflag; exact Bool.noConfusion hflag
    | handshake hst =>
      rcases hst with rfl | rfl | rfl
      · exact .inr (.inl rfl)
      · exact .inr (.inr (.inl rfl))
      · exact .inr (.inr (.inr (.inl rfl)))
    | ownFin _ hdir | peerFin _ hdir => simp [hdir]
    | ownFinAcked hdir | bothFins _ hdir | ownFinLast _ hdir => simp [hdir] at h
    | peerFinLast hst _ hdir => rcases hst with rfl | rfl <;> simp [hdir] at h
    | closingAcked | lastAcked => by_cases hdir : packetDir = connDir <;> simp [hdir] at h

theorem OneSided.not_ended {own : Bool} (h : OneSided own st) :
    st ≠ .timeWait ∧ st ≠ .closed := by
  rcases h with rfl | rfl | rfl | rfl | rfl
  · simp
  · simp
  · simp
  · simp
  · cases own <;> simp

/-- Segments without RST from one side alone do not end a connection before its teardown. -/
theorem oneSided_segments (segs : List Segment) (dir : Direction)
    (h : OneSided (dir = conn.direction) (conn.segments segs).state) (rest : List Segment)
    (hrest : ∀ s ∈ rest, s.direction = dir ∧ hasFlag s.flags tcpRst = false) :
    OneSided (dir = conn.direction) (conn.segments (segs ++ rest)).state := by
  induction rest using reverseRecOn with
  | nil => rwa [append_nil]
  | append_singleton rest s ih =>
    obtain ⟨hdir, hrst⟩ := hrest s (by simp)
    have hprev := ih fun s hs => hrest s (mem_append_left _ hs)
    rw [← append_assoc, state_segments_concat]
    rw [← hdir] at hprev ⊢
    exact hprev.segment hrst

end TCPConnTrack

/-- **A graceful end needs a FIN from both sides**: an entry enters TIME-WAIT, or is closed without
RST, only after it was established and a legal FIN has since come from each side. -/
theorem graceful_end_needs_both_fins (key : ConnKey) (direction : Direction) (origPort : UInt16) :
    (∀ (segs : List Segment) (s : Segment),
      ((((newConn key direction origPort).segments segs).state ≠ .timeWait ∧
          ((newConn key direction origPort).segments (segs ++ [s])).state = .timeWait) ∨
        (((newConn key direction origPort).segments segs).state ≠ .closed ∧
          ((newConn key direction origPort).segments (segs ++ [s])).state = .closed ∧
          hasFlag s.flags tcpRst = false)) → ∃ before since, segs ++ [s] = before ++ since ∧
        ((newConn key direction origPort).segments before).state = .established ∧
        (∃ f ∈ since, f.legalFin = true ∧ f.direction = direction) ∧
        (∃ f ∈ since, f.legalFin = true ∧ f.direction ≠ direction)) ∧
    (∀ (segs rest : List Segment) (dir : Direction),
      ((newConn key direction origPort).segments segs).state ∈
        [.new, .synSent, .synReceived, .established] →
      (∀ s ∈ rest, s.direction = dir ∧ hasFlag s.flags tcpRst = false) →
      ((newConn key direction origPort).segments (segs ++ rest)).state ≠ .timeWait ∧
        ((newConn key direction origPort).segments (segs ++ rest)).state ≠ .closed) := by
  constructor
  · intro segs s hends
    have hfins : (newConn key direction origPort).FinsSince (segs ++ [s]) true true := by
      apply finsSince_of_end _ rfl
      rcases hends with ⟨-, hwait⟩ | hclosed
      · exact .inl hwait
      · exact .inr hclosed
    obtain ⟨before, since, hsegs, hest, hown, hpeer⟩ := hfins
    exact ⟨before, since, hsegs, hest, hown rfl, hpeer rfl⟩
  · intro segs rest dir hstart hrest
    have hone : OneSided (dir = (newConn key direction origPort).direction)
        ((newConn key direction origPort).segments segs).state := by
      simp only [mem_cons, not_mem_nil, or_false] at hstart
      rcases hstart with h | h | h | h <;> simp [OneSided, h]
    exact (oneSided_segments _ segs dir hone rest hrest).not_ended

end Conntrack
