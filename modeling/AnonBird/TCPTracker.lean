/-
# The table of tracked TCP connections

Model of `TCPTracker`.  `IsValidInbound` lets an inbound packet pass without a look at the access
rules if it belongs to a tracked connection.  A run is a sequence of calls on an empty table, with
any clock readings and iteration orders.  What passes in a run belongs to an entry that a SYN made
and that has been in the table, unmarked, ever since.
-/
import AnonBird.GoMap
import AnonBird.TCPState

open NetIP
open GoMap hiding get set
open Option Bool

namespace Conntrack

open TCPConnTrack

export GoMap (get set)

/-! ## Durations, in nanoseconds -/

/-- A second in nanoseconds. -/
def second : ℤ := 1000000000
/-- How long a quiet connection is kept. -/
def defaultTCPTimeout : ℤ := 3 * 3600 * second
/-- How long a handshake may take. -/
def tcpHandshakeTimeout : ℤ := 60 * second
/-- How long a closed connection is kept. -/
def timeWaitTimeout : ℤ := 2 * (2 * 60 * second)

/-- How many entries an eviction looks at. -/
def evictSampleSize : ℕ := 8

/-! ## The tracker -/

/-- The TCP tracker. -/
structure TCPTracker where
  connections : List (ConnKey × TCPConnTrack) := []
  timeout : ℤ
  waitTimeout : ℤ
  finWaitTimeout : ℤ
  closeWaitTimeout : ℤ
  lastAckTimeout : ℤ
  maxEntries : ℤ

/-- `NewTCPTracker`, with the values that the environment variables or their defaults give. -/
def newTCPTracker (timeout finWaitTimeout closeWaitTimeout lastAckTimeout maxEntries : ℤ) :
    TCPTracker where
  timeout := if timeout = 0 then defaultTCPTimeout else timeout
  waitTimeout := if timeout = 0 then timeWaitTimeout else timeout.tdiv 45
  finWaitTimeout := finWaitTimeout
  closeWaitTimeout := closeWaitTimeout
  lastAckTimeout := lastAckTimeout
  maxEntries := maxEntries

/-- The loop of `evictOneLocked`: the key to delete is that of the first marked entry, or of the
one that was seen least recently. -/
def evictLoop : List (ConnKey × TCPConnTrack) → Option (ConnKey × ℤ) → ℕ → Option ConnKey
  | [], candidate, _ => candidate.map Prod.fst
  | (key, conn) :: rest, candidate, sampled =>
    if conn.tombstone then some key
    else
      let candidate :=
        match candidate with
        | none => some (key, conn.lastSeen)
        | some (candKey, candSeen) =>
          if conn.lastSeen < candSeen then some (key, conn.lastSeen) else some (candKey, candSeen)
      if sampled + 1 ≥ evictSampleSize then candidate.map Prod.fst
      else evictLoop rest candidate (sampled + 1)

/-- The oldest of the sampled entries is dropped. -/
def evictOneLocked (ord : RangeOrder ConnKey) (connections : List (ConnKey × TCPConnTrack)) :
    List (ConnKey × TCPConnTrack) :=
  match evictLoop (range ord connections) none 0 with
  | none => connections
  | some key => erase connections key

/-- The flags that a packet may have in a state. -/
def isValidStateForFlags (state : TCPState) (flags : UInt8) : Bool :=
  if hasFlag flags tcpRst then
    if state = .synSent then hasFlag flags tcpAck else true
  else
    match state with
    | .new => hasFlag flags tcpSyn && !hasFlag flags tcpAck
    | .synSent => hasFlag flags tcpSyn && hasFlag flags tcpAck
    | .synReceived => hasFlag flags tcpAck
    | .established => hasFlag flags tcpAck
    | .finWait1 => hasFlag flags tcpFin || hasFlag flags tcpAck
    | .finWait2 => hasFlag flags tcpFin || hasFlag flags tcpAck
    | .closing => hasFlag flags tcpAck
    | .timeWait => hasFlag flags tcpAck
    | .closeWait => hasFlag flags tcpFin || hasFlag flags tcpAck
    | .lastAck => hasFlag flags tcpAck
    | .closed => hasFlag flags tcpAck

namespace TCPTracker

variable (t : TCPTracker) (now : ℤ) (ord : RangeOrder ConnKey)

/-- `updateIfExists`: the port to reverse, if the connection is tracked and not superseded. -/
def updateIfExists (key : ConnKey) (flags : UInt8) (direction : Direction) (size : ℤ) :
    TCPTracker × Option UInt16 :=
  match get t.connections key with
  | none => (t, none)
  | some conn =>
    if conn.isSupersededBy flags then (t, none)
    else
      let conn := conn.updateState now flags direction size
      ({ t with connections := set t.connections key conn }, some conn.dnatOrigPort.toUInt16)

/-- A packet is counted, or its connection begun. -/
def track (key : ConnKey) (flags : UInt8) (direction : Direction) (size : ℤ) (origPort : UInt16) :
    TCPTracker :=
  match t.updateIfExists now key flags direction size with
  | (t, some _) => t
  | (t, none) =>
    if !hasFlag flags tcpSyn then t
    else if !isValidFlagCombination flags then t
    else
      let conn := (newConn key direction origPort).updateState now flags direction size
      let connections :=
        if 0 < t.maxEntries ∧ t.maxEntries ≤ t.connections.length then
          evictOneLocked ord t.connections
        else t.connections
      { t with connections := set connections key conn }

/-- `TrackOutbound`: a packet of a connection that was tracked in the other direction updates
that entry. -/
def trackOutbound (packet : ConnKey) (flags : UInt8) (size : ℤ) : TCPTracker × UInt16 :=
  match t.updateIfExists now packet.reversed flags .egress size with
  | (t, some origPort) => (t, origPort)
  | (t, none) => (t.track now ord packet flags .egress size 0, 0)

/-- A packet is received. -/
def trackInbound (packet : ConnKey) (flags : UInt8) (size : ℤ) (dnatOrigPort : UInt16) :
    TCPTracker :=
  t.track now ord packet flags .ingress size dnatOrigPort

/-- A packet belongs to a connection that was opened from here. -/
def isValidInbound (packet : ConnKey) (flags : UInt8) (size : ℤ) : TCPTracker × Bool :=
  match get t.connections packet.reversed with
  | none => (t, false)
  | some conn =>
    if conn.isSupersededBy flags then (t, false)
    else if !isValidFlagCombination flags then (t, false)
    else if !isValidStateForFlags conn.state flags then (t, false)
    else
      ({ t with
        connections :=
          set t.connections packet.reversed (conn.updateState now flags .ingress size) },
        true)

/-- The timeout of a state in `cleanup`. -/
def timeoutFor (state : TCPState) : ℤ :=
  match state with
  | .timeWait => t.waitTimeout
  | .established => t.timeout
  | .finWait1 | .finWait2 | .closing => t.finWaitTimeout
  | .closeWait => t.closeWaitTimeout
  | .lastAck => t.lastAckTimeout
  | .new | .synSent | .synReceived | .closed => tcpHandshakeTimeout

/-- `cleanup`, which reads the clock at every entry. -/
def cleanup (now : ConnKey → ℤ) : TCPTracker :=
  { t with
    connections := mapEntries (fun key conn =>
      if conn.tombstone then none
      else if now key - conn.lastSeen > t.timeoutFor conn.state then none
      else some conn) t.connections }

end TCPTracker

/-! ## Runs -/

/-- A call on the tracker. -/
inductive Call where
  | trackOutbound (now : ℤ) (ord : RangeOrder ConnKey) (packet : ConnKey) (flags : UInt8)
      (size : ℤ)
  | trackInbound (now : ℤ) (ord : RangeOrder ConnKey) (packet : ConnKey) (flags : UInt8)
      (size : ℤ) (dnatOrigPort : UInt16)
  | isValidInbound (now : ℤ) (packet : ConnKey) (flags : UInt8) (size : ℤ)
  | cleanup (now : ConnKey → ℤ)

/-- The flags of the packet that a call is about. -/
def Call.flags? : Call → Option UInt8
  | .trackOutbound _ _ _ flags _ => some flags
  | .trackInbound _ _ _ flags _ _ => some flags
  | .isValidInbound _ _ flags _ => some flags
  | .cleanup _ => none

namespace TCPTracker

/-- The tracker after a call. -/
def apply (t : TCPTracker) : Call → TCPTracker
  | .trackOutbound now ord packet flags size => (t.trackOutbound now ord packet flags size).1
  | .trackInbound now ord packet flags size dnatOrigPort =>
    t.trackInbound now ord packet flags size dnatOrigPort
  | .isValidInbound now packet flags size => (t.isValidInbound now packet flags size).1
  | .cleanup now => t.cleanup now

/-- The tracker after a sequence of calls. -/
def after (t : TCPTracker) (calls : List Call) : TCPTracker := calls.foldl apply t

/-- A packet with these flags finds a connection that it does not supersede. -/
def tracked (t : TCPTracker) (key : ConnKey) (flags : UInt8) : Bool :=
  match get t.connections key with
  | none => false
  | some conn => !conn.isSupersededBy flags

/-- The call makes a new entry for the connection: it is a `Track` call with a legal SYN of a
connection that is not tracked. -/
def Creates (t : TCPTracker) (call : Call) (key : ConnKey) : Prop :=
  match call with
  | .trackOutbound _ _ packet flags _ => key = packet ∧ hasFlag flags tcpSyn = true ∧
      isValidFlagCombination flags = true ∧ t.tracked packet.reversed flags = false ∧
      t.tracked packet flags = false
  | .trackInbound _ _ packet flags _ _ => key = packet ∧ hasFlag flags tcpSyn = true ∧
      isValidFlagCombination flags = true ∧ t.tracked packet flags = false
  | .isValidInbound .. => False
  | .cleanup _ => False

end TCPTracker

/-! ### One call -/

open TCPTracker

section Step

variable {t : TCPTracker} {now size : ℤ} {key k : ConnKey} {flags : UInt8} {direction : Direction}

/-- What `updateIfExists` does to the entry of a key. -/
theorem updateIfExists_of_tracked (h : t.tracked key flags) :
    ∃ conn, get t.connections key = some conn ∧ conn.isSupersededBy flags = false ∧
      t.updateIfExists now key flags direction size = ({ t with
            connections := set t.connections key (conn.updateState now flags direction size) },
          some (conn.updateState now flags direction size).dnatOrigPort.toUInt16) := by
  rw [tracked] at h
  rw [updateIfExists]
  cases hget : get t.connections key with
  | none => simp [hget] at h
  | some conn =>
    rw [hget] at h
    have hnot : conn.isSupersededBy flags = false := by simpa using h
    exact ⟨conn, rfl, hnot, by simp [hnot]⟩

theorem updateIfExists_of_not_tracked (h : t.tracked key flags = false) :
    t.updateIfExists now key flags direction size = (t, none) := by
  rw [tracked] at h
  rw [updateIfExists]
  cases hget : get t.connections key with
  | none => rfl
  | some conn =>
    rw [hget] at h
    have hsup : conn.isSupersededBy flags := by simpa using h
    simp [hsup]

theorem get_evictOneLocked (ord : RangeOrder ConnKey)
    (connections : List (ConnKey × TCPConnTrack)) (k : ConnKey) :
    get (evictOneLocked ord connections) k = get connections k ∨
      get (evictOneLocked ord connections) k = none := by
  rw [evictOneLocked]
  split
  · exact .inl rfl
  next key _ =>
    by_cases hk : k = key
    · subst hk
      exact .inr get_erase_self
    · exact .inl (get_erase_of_ne hk)

end Step

/-- What a packet with these flags, or none, can do to an entry that stays the same one. -/
inductive Effect (flags? : Option UInt8) : Option TCPConnTrack → Option TCPConnTrack → Prop
  | kept (entry : Option TCPConnTrack) : Effect flags? entry entry
  | removed (entry : Option TCPConnTrack)
      (h : ∀ flags, flags? = some flags → isValidFlagCombination flags = true) :
      Effect flags? entry none
  | updated {conn : TCPConnTrack} {flags : UInt8} (hflags : flags? = some flags)
      (h : conn.isSupersededBy flags = false) (now : ℤ) (direction : Direction) (size : ℤ) :
      Effect flags? (some conn) (some (conn.updateState now flags direction size))

/-- The entry is the one that a packet with these flags has made. -/
def MadeBy (flags? : Option UInt8) (key : ConnKey) (entry : Option TCPConnTrack) : Prop :=
  ∃ flags now direction size origPort, flags? = some flags ∧
    entry = some ((newConn key direction origPort).updateState now flags direction size)

variable {conn : TCPConnTrack}

section Step

variable {t : TCPTracker} {now size : ℤ} {key k : ConnKey} {flags : UInt8} {direction : Direction}
  {ord : RangeOrder ConnKey} {origPort : UInt16}

/-- A write to the entry of a connection is an update of it, and keeps the others. -/
theorem effect_set (hget : get t.connections key = some conn)
    (h : conn.isSupersededBy flags = false) : Effect (some flags) (get t.connections k)
      (get (set t.connections key (conn.updateState now flags direction size)) k) := by
  rw [get_set]
  split
  next hk =>
    rw [hk, hget]
    exact .updated rfl h now direction size
  · exact .kept _

theorem effect_updateIfExists : Effect (some flags) (get t.connections k)
      (get (t.updateIfExists now key flags direction size).1.connections k) := by
  cases htracked : t.tracked key flags with
  | true =>
    obtain ⟨conn, hget, hnot, heq⟩ := updateIfExists_of_tracked htracked
    rw [heq]
    exact effect_set hget hnot
  | false =>
    rw [updateIfExists_of_not_tracked htracked]
    exact .kept _

/-- **One `track`** makes an entry, or has an effect on an entry that stays. -/
theorem get_track : (k = key ∧ hasFlag flags tcpSyn ∧ isValidFlagCombination flags ∧
      t.tracked key flags = false ∧ MadeBy (some flags) k
        (get (t.track now ord key flags direction size origPort).connections k)) ∨
    (¬ (k = key ∧ hasFlag flags tcpSyn ∧ isValidFlagCombination flags ∧
      t.tracked key flags = false) ∧ Effect (some flags) (get t.connections k)
        (get (t.track now ord key flags direction size origPort).connections k)) := by
  rw [track]
  cases htracked : t.tracked key flags with
  | true =>
    have heffect := @effect_updateIfExists t now size key k flags direction
    obtain ⟨conn, -, -, heq⟩ :=
      @updateIfExists_of_tracked t now size key flags direction htracked
    rw [heq] at heffect ⊢
    exact .inr ⟨by simp, heffect⟩
  | false =>
    rw [updateIfExists_of_not_tracked htracked]
    cases hsyn : hasFlag flags tcpSyn with
    | false => exact .inr ⟨by simp, .kept _⟩
    | true =>
      cases hlegal : isValidFlagCombination flags with
      | false => exact .inr ⟨by simp, .kept _⟩
      | true =>
        simp only [Bool.not_true, Bool.false_eq_true, if_false, get_set]
        by_cases hk : k = key
        · subst hk
          rw [if_pos rfl]
          exact .inl
            ⟨rfl, trivial, trivial, trivial, flags, now, direction, size, origPort, rfl, rfl⟩
        · rw [if_neg hk]
          refine .inr ⟨fun h => hk h.1, ?_⟩
          split
          · rcases get_evictOneLocked ord t.connections k with hsame | hnone
            · rw [hsame]
              exact .kept _
            · rw [hnone]
              refine .removed _ fun flags' hflags => ?_
              rwa [← some.inj hflags]
          · exact .kept _

/-- **One call** makes the entry of a connection, or has an effect on one that stays. -/
theorem get_apply (t : TCPTracker) (call : Call) (k : ConnKey) :
    (t.Creates call k ∧ MadeBy call.flags? k (get (t.apply call).connections k)) ∨
    (¬ t.Creates call k ∧ Effect call.flags? (get t.connections k)
      (get (t.apply call).connections k)) := by
  cases call with
  | trackOutbound now ord packet flags size =>
    show (_ ∧ MadeBy (some flags) k
      (get (t.trackOutbound now ord packet flags size).1.connections k)) ∨
      (_ ∧ Effect (some flags) _ (get (t.trackOutbound now ord packet flags size).1.connections k))
    rw [trackOutbound, Creates]
    cases htracked : t.tracked packet.reversed flags with
    | true =>
      have heffect := @effect_updateIfExists t now size packet.reversed k flags .egress
      obtain ⟨conn, -, -, heq⟩ :=
        @updateIfExists_of_tracked t now size packet.reversed flags .egress htracked
      rw [heq] at heffect ⊢
      exact .inr ⟨by simp, heffect⟩
    | false =>
      rw [updateIfExists_of_not_tracked htracked]
      rcases @get_track t now size packet k flags .egress ord 0 with
        ⟨hk, hsyn, hlegal, hfree, hmade⟩ | ⟨hnot, heffect⟩
      · exact .inl ⟨⟨hk, hsyn, hlegal, rfl, hfree⟩, hmade⟩
      · exact .inr ⟨fun ⟨hk, hsyn, hlegal, _, hfree⟩ => hnot ⟨hk, hsyn, hlegal, hfree⟩, heffect⟩
  | trackInbound now ord packet flags size dnatOrigPort =>
    rcases @get_track t now size packet k flags .ingress ord dnatOrigPort with
      ⟨hk, hsyn, hlegal, hfree, hmade⟩ | ⟨hnot, heffect⟩
    · exact .inl ⟨⟨hk, hsyn, hlegal, hfree⟩, hmade⟩
    · exact .inr ⟨hnot, heffect⟩
  | isValidInbound now packet flags size =>
    refine .inr ⟨id, ?_⟩
    show Effect (some flags) _ (get (t.isValidInbound now packet flags size).1.connections k)
    rw [isValidInbound]
    cases hget : get t.connections packet.reversed with
    | none => exact .kept _
    | some conn =>
      dsimp only
      split_ifs with hsup
      · exact .kept _
      · exact .kept _
      · exact .kept _
      · exact effect_set hget (Bool.eq_false_iff.mpr hsup)
  | cleanup now =>
    refine .inr ⟨id, ?_⟩
    show Effect none _ (get (t.cleanup now).connections k)
    rw [cleanup, get_mapEntries]
    cases get t.connections k with
    | none => exact .kept _
    | some conn =>
      rw [bind_some]
      split_ifs
      · exact .removed _ (by simp)
      · exact .removed _ (by simp)
      · exact .kept _

end Step

theorem syn_of_creates {t : TCPTracker} {call : Call} {k : ConnKey} (h : t.Creates call k) :
    ∃ flags, call.flags? = some flags ∧ hasFlag flags tcpSyn ∧ isValidFlagCombination flags := by
  cases call with
  | trackOutbound now ord packet flags size
  | trackInbound now ord packet flags size dnatOrigPort => exact ⟨flags, rfl, h.2.1, h.2.2.1⟩
  | isValidInbound now packet flags size | cleanup now => exact h.elim

variable {flags : UInt8}

/-- **An illegal packet** makes no entry and leaves all but the counters of every entry. -/
theorem core_apply_of_illegal (t : TCPTracker) {call : Call}
    (hflags : call.flags? = some flags) (hillegal : isValidFlagCombination flags = false)
    (k : ConnKey) : (get (t.apply call).connections k).map core =
      (get t.connections k).map core := by
  rcases get_apply t call k with ⟨hcreates, -⟩ | ⟨-, heffect⟩
  · obtain ⟨flags', hflags', -, hlegal⟩ := syn_of_creates hcreates
    rw [hflags] at hflags'
    rw [← some.inj hflags', hillegal] at hlegal
    exact Bool.noConfusion hlegal
  · generalize get t.connections k = before at heffect ⊢
    generalize get (t.apply call).connections k = after at heffect ⊢
    cases heffect with
    | kept => rfl
    | removed _ h =>
      rw [h flags hflags] at hillegal
      exact Bool.noConfusion hillegal
    | updated hflags' _ now direction size =>
      rw [hflags] at hflags'
      rw [← some.inj hflags', map_some, map_some,
        updateState, hillegal]
      exact congrArg some core_updateCounters

/-! ## What a run leaves in the table -/

namespace TCPTracker

theorem after_concat (t : TCPTracker) (calls : List Call) (call : Call) :
    t.after (calls ++ [call]) = (t.after calls).apply call := by
  rw [after, after, List.foldl_concat]

/-- The connection has an entry that is neither closed nor marked for deletion. -/
def Live (t : TCPTracker) (key : ConnKey) : Prop :=
  ∃ conn, get t.connections key = some conn ∧ conn.tombstone = false ∧ conn.state ≠ .closed

/-- A `Track` call with SYN has made the entry, and since then no call has superseded, reset, closed
or evicted it, or let it expire. -/
inductive TrackedSince (t : TCPTracker) (key : ConnKey) : List Call → Prop
  | created {calls call} (h : (t.after calls).Creates call key) :
      TrackedSince t key (calls ++ [call])
  | kept {calls call} (hprev : TrackedSince t key calls) (hnot : ¬ (t.after calls).Creates call key)
      (hlive : (t.after (calls ++ [call])).Live key) : TrackedSince t key (calls ++ [call])

end TCPTracker

/-- Closed entries are marked for deletion. -/
def TCPConnTrack.Marked (conn : TCPConnTrack) : Prop :=
  conn.state = .closed → conn.tombstone = true

variable {now size : ℤ} {direction : Direction}

theorem TCPConnTrack.Marked.updateState (h : conn.Marked) :
    (conn.updateState now flags direction size).Marked := by
  intro hclosed
  rw [state_updateState] at hclosed
  exact (tombstone_updateState h).mpr (.inr hclosed)

section Runs

variable {t : TCPTracker} {conn : TCPConnTrack} {key : ConnKey}

theorem get_after_nil (hempty : t.connections = []) :
    get (t.after []).connections key ≠ some conn := by
  show get t.connections key ≠ some conn
  rw [hempty]
  exact (some_ne_none conn).symm

/-- **The invariant rule for entries**: what holds of a new entry, and what segments keep, holds of
every entry of a run. -/
theorem entries_invariant (hempty : t.connections = []) {P : ConnKey → TCPConnTrack → Prop}
    (hnew : ∀ key direction origPort, P key (newConn key direction origPort))
    (hstep : ∀ key conn now flags direction size, P key conn →
      P key (conn.updateState now flags direction size)) (calls : List Call)
    (hget : get (t.after calls).connections key = some conn) : P key conn := by
  induction calls using List.reverseRecOn generalizing conn with
  | nil => exact absurd hget (get_after_nil hempty)
  | append_singleton calls call ih =>
    rw [after_concat] at hget
    rcases get_apply (t.after calls) call key with ⟨-, hmade⟩ | ⟨-, heffect⟩
    · obtain ⟨flags, now, direction, size, origPort, -, he⟩ := hmade
      rw [he] at hget
      rw [← some.inj hget]
      exact hstep _ _ _ _ _ _ (hnew key direction origPort)
    · rw [hget] at heffect
      generalize hold : get (t.after calls).connections key = before at heffect
      cases heffect with
      | kept => exact ih hold
      | updated _ _ now direction size => exact hstep _ _ _ _ _ _ (ih hold)

theorem marked_after (hempty : t.connections = []) (calls : List Call)
    (hget : get (t.after calls).connections key = some conn) : conn.Marked := by
  refine entries_invariant hempty (P := fun _ conn => conn.Marked) ?_ ?_ calls hget
  · intro key direction origPort hclosed
    exact absurd hclosed (by simp [newConn])
  · intro key conn now flags direction size h
    exact h.updateState

theorem tombstone_of_updateState (hmarked : conn.Marked)
    (h : (conn.updateState now flags direction size).tombstone = false) :
    conn.tombstone = false := by
  rw [← not_eq_true]
  intro hmark
  rw [(tombstone_updateState hmarked).mpr (.inl hmark)] at h
  exact Bool.noConfusion h

/-- An entry that is not marked for deletion has been tracked since a SYN made it. -/
theorem trackedSince_of_get (hempty : t.connections = []) (calls : List Call)
    (hget : get (t.after calls).connections key = some conn)
    (hmark : conn.tombstone = false) : t.TrackedSince key calls := by
  induction calls using List.reverseRecOn generalizing conn with
  | nil => exact absurd hget (get_after_nil hempty)
  | append_singleton calls call ih =>
    have hlive : (t.after (calls ++ [call])).Live key := by
      refine ⟨conn, hget, hmark, fun hclosed => ?_⟩
      rw [marked_after hempty _ hget hclosed] at hmark
      exact Bool.noConfusion hmark
    rw [TCPTracker.after_concat] at hget
    rcases get_apply (t.after calls) call key with ⟨hcreates, -⟩ | ⟨hnot, heffect⟩
    · exact .created hcreates
    · refine .kept ?_ hnot hlive
      rw [hget] at heffect
      generalize hold : get (t.after calls).connections key = before at heffect
      cases heffect with
      | kept => exact ih hold hmark
      | updated _ _ now direction size =>
        exact ih hold (tombstone_of_updateState (marked_after hempty _ hold) hmark)

theorem isValidInbound_eq_true {packet : ConnKey} :
    (t.isValidInbound now packet flags size).2 ↔
      ∃ conn, get t.connections packet.reversed = some conn ∧
        conn.isSupersededBy flags = false ∧ isValidFlagCombination flags ∧
        isValidStateForFlags conn.state flags := by
  rw [isValidInbound]
  cases get t.connections packet.reversed with
  | none => simp
  | some conn =>
    cases hsup : conn.isSupersededBy flags <;> cases hlegal : isValidFlagCombination flags <;>
      cases hvalid : isValidStateForFlags conn.state flags <;> simp_all

theorem tombstone_of_not_superseded (h : conn.isSupersededBy flags = false) :
    conn.tombstone = false := by
  rw [isSupersededBy] at h
  split at h
  · exact Bool.noConfusion h
  next hmark =>
    simpa using hmark

end Runs

/-- **What passes belongs to a tracked connection**: an inbound packet passes only if its flags are
legal and the entry of the reversed four-tuple was made by a SYN and has been live since. Illegal
flags make no entry, and change nothing but counters. -/
theorem isValidInbound_sound
    (timeout finWaitTimeout closeWaitTimeout lastAckTimeout maxEntries : ℤ) (calls : List Call) :
    let start := newTCPTracker timeout finWaitTimeout closeWaitTimeout lastAckTimeout maxEntries
    (∀ now packet flags size, ((start.after calls).isValidInbound now packet flags size).2 = true →
      isValidFlagCombination flags = true ∧ start.TrackedSince packet.reversed calls) ∧
    (∀ call flags, call.flags? = some flags → isValidFlagCombination flags = false →
      ∀ key, (get ((start.after calls).apply call).connections key).map core =
        (get (start.after calls).connections key).map core) := by
  intro start
  refine ⟨fun now packet flags size hpass => ?_, fun call flags hflags hillegal key => ?_⟩
  · obtain ⟨conn, hget, hsup, hlegal, -⟩ := isValidInbound_eq_true.mp hpass
    exact ⟨hlegal, trackedSince_of_get rfl calls hget (tombstone_of_not_superseded hsup)⟩
  · exact core_apply_of_illegal _ hflags hillegal key

/-! ## Connection requests -/

/-- A `Track` call with SYN and ACK has made the entry, and since then it has been live in its first
state. -/
inductive TCPTracker.OrphanSynAck (t : TCPTracker) (key : ConnKey) : List Call → Prop
  | created {calls : List Call} {call : Call} {flags : UInt8}
      (h : (t.after calls).Creates call key) (hflags : call.flags? = some flags)
      (hack : hasFlag flags tcpAck = true) : OrphanSynAck t key (calls ++ [call])
  | kept {calls : List Call} {call : Call} (hprev : OrphanSynAck t key calls)
      (hnot : ¬ (t.after calls).Creates call key)
      (hnew : ∃ conn, get (t.after (calls ++ [call])).connections key = some conn ∧
        conn.tombstone = false ∧ conn.state = .new) : OrphanSynAck t key (calls ++ [call])

section Requests

variable {t : TCPTracker} {key : ConnKey} {flags : UInt8}

/-- A SYN comes with neither RST nor FIN. -/
theorem of_legalSyn (hsyn : hasFlag flags tcpSyn) (hlegal : isValidFlagCombination flags) :
    hasFlag flags tcpRst = false ∧ hasFlag flags tcpFin = false := by
  rw [isValidFlagCombination, hsyn] at hlegal
  cases hfin : hasFlag flags tcpFin <;> cases hr : hasFlag flags tcpRst <;> simp_all

theorem state_made (key : ConnKey) (direction : Direction) (origPort : UInt16) (now size : ℤ)
    (hsyn : hasFlag flags tcpSyn) (hlegal : isValidFlagCombination flags) :
    ((newConn key direction origPort).updateState now flags direction size).state = .new ↔
      hasFlag flags tcpAck := by
  have hrst := (of_legalSyn hsyn hlegal).1
  rw [state_updateState]
  cases hack : hasFlag flags tcpAck <;> cases direction <;>
    simp [stateAfter, hlegal, hrst, nextState, stateTable, transNew, newConn, hsyn,
      hack]

/-- No segment takes an entry back to its first state. -/
theorem new_of_stateAfter {state : TCPState} {connDir packetDir : Direction}
    (h : stateAfter state connDir flags packetDir = .new) : state = .new := by
  rcases change_of_stateAfter state connDir packetDir flags with hsame | ⟨-, hchange⟩
  · exact hsame.symm.trans h
  · rw [h] at hchange
    cases hchange with
    | handshake hst => simp at hst

/-- An entry of a run is in its first state, and not marked, exactly if a SYN with ACK has made
it and it has been so ever since. -/
theorem orphanSynAck_iff (hempty : t.connections = []) (calls : List Call) :
    t.OrphanSynAck key calls ↔ ∃ conn, get (t.after calls).connections key = some conn ∧
      conn.tombstone = false ∧ conn.state = .new := by
  constructor
  · intro h
    cases h with
    | @created calls call flags hcreates hflags hack =>
      obtain ⟨flags', hflags', hsyn, hlegal⟩ := syn_of_creates hcreates
      rw [hflags] at hflags'
      cases hflags'
      rcases get_apply (t.after calls) call key with ⟨-, hmade⟩ | ⟨hnot, -⟩
      · obtain ⟨flags', now, direction, size, origPort, hflags', hget⟩ := hmade
        rw [hflags] at hflags'
        cases hflags'
        rw [after_concat]
        have hstate := (state_made key direction origPort now size hsyn hlegal).mpr hack
        refine ⟨_, hget, ?_, hstate⟩
        rw [state_updateState] at hstate
        rw [← not_eq_true, tombstone_updateState (by simp [newConn]), hstate]
        simp [newConn]
      · exact absurd hcreates hnot
    | kept _ _ hnew => exact hnew
  · induction calls using List.reverseRecOn with
    | nil =>
      rintro ⟨conn, hget, -, -⟩
      exact absurd hget (get_after_nil hempty)
    | append_singleton calls call ih =>
      rintro ⟨conn, hget, hmark, hstate⟩
      have hnew : ∃ conn, get (t.after (calls ++ [call])).connections key = some conn ∧
          conn.tombstone = false ∧ conn.state = .new := ⟨conn, hget, hmark, hstate⟩
      rw [after_concat] at hget
      rcases get_apply (t.after calls) call key with ⟨hcreates, hmade⟩ | ⟨hnot, heffect⟩
      · obtain ⟨flags, hflags, hsyn, hlegal⟩ := syn_of_creates hcreates
        obtain ⟨flags', now, direction, size, origPort, hflags', hmade⟩ := hmade
        rw [hflags] at hflags'
        cases hflags'
        rw [hmade] at hget
        rw [← some.inj hget, state_made key direction origPort now size hsyn hlegal]
          at hstate
        exact .created hcreates hflags hstate
      · refine .kept (ih ?_) hnot hnew
        rw [hget] at heffect
        generalize hold : get (t.after calls).connections key = before at heffect
        cases heffect with
        | kept => exact ⟨conn, rfl, hmark, hstate⟩
        | @updated conn₀ _ _ _ now direction size =>
          refine ⟨conn₀, rfl, tombstone_of_updateState (marked_after hempty _ hold) hmark, ?_⟩
          rw [state_updateState] at hstate
          exact new_of_stateAfter hstate

end Requests

/-- **Connection requests bypass the access rules exactly for orphan SYN-ACKs**: a SYN without ACK
is refused exactly if no SYN with ACK has made the entry of the reversed four-tuple and left it in
its first state. -/
theorem bareSyn_refused_iff
    (timeout finWaitTimeout closeWaitTimeout lastAckTimeout maxEntries : ℤ) (calls : List Call)
    (packet : ConnKey) :
    let start := newTCPTracker timeout finWaitTimeout closeWaitTimeout lastAckTimeout maxEntries
    (∀ now flags size, hasFlag flags tcpSyn = true → hasFlag flags tcpAck = false →
      ((start.after calls).isValidInbound now packet flags size).2 = false) ↔
    ¬ start.OrphanSynAck packet.reversed calls := by
  intro start
  rw [orphanSynAck_iff rfl]
  constructor
  · rintro hrefused ⟨conn, hget, hmark, hstate⟩
    have hpass : ((start.after calls).isValidInbound 0 packet tcpSyn 0).2 = true := by
      refine isValidInbound_eq_true.mpr ⟨conn, hget, ?_, by decide, ?_⟩
      · rw [isSupersededBy, hmark, hstate]
        rfl
      · rw [hstate]
        decide
    rw [hrefused 0 tcpSyn 0 (by decide) (by decide)] at hpass
    exact Bool.noConfusion hpass
  · intro hnone now flags size hsyn hack
    rw [← not_eq_true]
    intro hpass
    obtain ⟨conn, hget, hsup, hlegal, hvalid⟩ := isValidInbound_eq_true.mp hpass
    refine hnone ⟨conn, hget, tombstone_of_not_superseded hsup, ?_⟩
    obtain ⟨hrst, hfin⟩ := of_legalSyn hsyn hlegal
    cases hstate : conn.state <;> simp_all [isValidStateForFlags]

/-- An outbound SYN with ACK of an untracked connection makes an entry that lets an inbound SYN
without ACK pass. -/
theorem bareSyn_accepted : (((newTCPTracker 0 60000000000 60000000000 30000000000 65536).after
      [.trackOutbound 0 .kept
        ⟨some (.v4 0x64400001#32), some (.v4 0x64400002#32), 22, 40000⟩ (tcpSyn ||| tcpAck) 0]
      ).isValidInbound 1 ⟨some (.v4 0x64400002#32), some (.v4 0x64400001#32), 40000, 22⟩
        tcpSyn 0).2 = true := by
  decide +kernel

end Conntrack
