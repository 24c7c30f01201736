/-
# The tables of tracked UDP and ICMP exchanges

Model of `UDPTracker` and `ICMPTracker` in `client/firewall/uspfilter/conntrack`.  Both keep a
table of entries with the time they were last seen; a full table evicts the oldest of a sample, and
entries that have timed out let no inbound packet pass.  They differ in their keys and in that
only echo requests make ICMP entries.
-/
import AnonBird.TCPTracker

open NetIP Option
open GoMap hiding get set

namespace Conntrack

/-! ## Entries -/

/-- `BaseConnTrack`; the id of the flow and the addresses, which are those of the key, are left
out. -/
structure BaseConnTrack where
  direction : Direction
  lastSeen : ℤ := 0
  packetsTx : UInt64 := 0
  packetsRx : UInt64 := 0
  bytesTx : UInt64 := 0
  bytesRx : UInt64 := 0
  dnatOrigPort : UInt32 := 0
  deriving DecidableEq, Repr

namespace BaseConnTrack

variable (conn : BaseConnTrack)

/-- A packet was seen now. -/
def updateLastSeen (now : ℤ) : BaseConnTrack := { conn with lastSeen := now }

/-- A packet is counted. -/
def updateCounters (direction : Direction) (bytes : ℤ) : BaseConnTrack :=
  if direction = .egress then
    { conn with packetsTx := conn.packetsTx + 1, bytesTx := conn.bytesTx + UInt64.ofInt bytes }
  else
    { conn with packetsRx := conn.packetsRx + 1, bytesRx := conn.bytesRx + UInt64.ofInt bytes }

/-- No packet for longer than the timeout. -/
def timeoutExceeded (now timeout : ℤ) : Bool := now - conn.lastSeen > timeout

@[simp] theorem dnatOrigPort_updateLastSeen (now : ℤ) :
    (conn.updateLastSeen now).dnatOrigPort = conn.dnatOrigPort := rfl

@[simp] theorem dnatOrigPort_updateCounters (direction : Direction) (bytes : ℤ) :
    (conn.updateCounters direction bytes).dnatOrigPort = conn.dnatOrigPort := by
  rw [updateCounters]
  split <;> rfl

end BaseConnTrack

/-! ## Tables -/

/-- What the two trackers share. -/
structure BaseTracker (κ : Type) where
  connections : List (κ × BaseConnTrack) := []
  timeout : ℤ
  maxEntries : ℤ

namespace BaseTracker

variable {κ : Type} [DecidableEq κ] (t : BaseTracker κ)

/-- The loop of `evictOneLocked`: the key that was seen least recently in a sample. -/
def evictLoop : List (κ × BaseConnTrack) → Option (κ × ℤ) → ℕ → Option κ
  | [], candidate, _ => candidate.map Prod.fst
  | (key, conn) :: rest, candidate, sampled =>
    let candidate :=
      match candidate with
      | none => some (key, conn.lastSeen)
      | some (candKey, candSeen) =>
        if conn.lastSeen < candSeen then some (key, conn.lastSeen) else some (candKey, candSeen)
    if sampled + 1 ≥ evictSampleSize then candidate.map Prod.fst
    else evictLoop rest candidate (sampled + 1)

variable (now : ℤ) (ord : RangeOrder κ)

/-- The oldest of the sampled entries is dropped. -/
def evictOneLocked (connections : List (κ × BaseConnTrack)) :
    List (κ × BaseConnTrack) :=
  match evictLoop (range ord connections) none 0 with
  | none => connections
  | some key => erase connections key

/-- The new state of an entry that a packet belongs to. -/
def touch (key : κ) (conn : BaseConnTrack) (direction : Direction) (size : ℤ) :
    BaseTracker κ :=
  { t with
    connections :=
      set t.connections key ((conn.updateLastSeen now).updateCounters direction size) }

/-- `updateIfExists`: the port to reverse, if the exchange is tracked. -/
def updateIfExists (key : κ) (direction : Direction) (size : ℤ) :
    BaseTracker κ × Option UInt16 :=
  match get t.connections key with
  | none => (t, none)
  | some conn => (t.touch now key conn direction size, some conn.dnatOrigPort.toUInt16)

/-- The end of `track`, which makes an entry. -/
def insert (key : κ) (direction : Direction) (size : ℤ) (origPort : UInt16) : BaseTracker κ :=
  let conn : BaseConnTrack := { direction := direction, dnatOrigPort := origPort.toUInt32 }
  let conn := (conn.updateLastSeen now).updateCounters direction size
  let connections :=
    if 0 < t.maxEntries ∧ t.maxEntries ≤ t.connections.length then evictOneLocked ord t.connections
    else t.connections
  { t with connections := set connections key conn }

/-- The end of `IsValidInbound`: the entry of the other direction exists and has not timed out. -/
def checkInbound (seen : ℤ) (key : κ) (size : ℤ) : BaseTracker κ × Bool :=
  match get t.connections key with
  | none => (t, false)
  | some conn =>
    if conn.timeoutExceeded now t.timeout then (t, false)
    else (t.touch seen key conn .ingress size, true)

/-- `cleanup`, which reads the clock at every entry. -/
def cleanup (now : κ → ℤ) : BaseTracker κ :=
  { t with
    connections := mapEntries (fun key conn =>
      if conn.timeoutExceeded (now key) t.timeout then none else some conn) t.connections }

end BaseTracker

/-! ## UDP -/

/-- The UDP tracker. -/
abbrev UDPTracker := BaseTracker ConnKey

namespace UDPTracker

variable (t : UDPTracker) (now : ℤ) (ord : RangeOrder ConnKey)

/-- A packet is counted, or its connection begun. -/
def track (key : ConnKey) (direction : Direction) (size : ℤ) (origPort : UInt16) : UDPTracker :=
  match t.updateIfExists now key direction size with
  | (t, some _) => t
  | (t, none) => t.insert now ord key direction size origPort

/-- A packet is sent; the port is that of a DNAT rule to undo. -/
def trackOutbound (packet : ConnKey) (size : ℤ) :
    UDPTracker × UInt16 :=
  match t.updateIfExists now packet.reversed .egress size with
  | (t, some origPort) => (t, origPort)
  | (t, none) => (track t now ord packet .egress size 0, 0)

/-- A packet is received. -/
def trackInbound (packet : ConnKey) (size : ℤ) (dnatOrigPort : UInt16) : UDPTracker :=
  track t now ord packet .ingress size dnatOrigPort

/-- A packet answers one that was sent. -/
def isValidInbound (seen : ℤ) (packet : ConnKey) (size : ℤ) : UDPTracker × Bool :=
  t.checkInbound now seen packet.reversed size

end UDPTracker

/-! ## ICMP -/

/-- The key of an ICMP exchange. -/
structure ICMPConnKey where
  srcIP : Option Addr
  dstIP : Option Addr
  id : UInt16
  deriving DecidableEq, Repr

/-- The exchange of the other direction. -/
def ICMPConnKey.reversed (key : ICMPConnKey) : ICMPConnKey := ⟨key.dstIP, key.srcIP, key.id⟩

/-- The ICMP tracker. -/
abbrev ICMPTracker := BaseTracker ICMPConnKey

namespace ICMPTracker

variable (t : ICMPTracker) (now : ℤ) (ord : RangeOrder ICMPConnKey)

/-- `track`; only echo requests make entries. -/
def track (key : ICMPConnKey) (typ : UInt8) (direction : Direction) (size : ℤ) : ICMPTracker :=
  match t.updateIfExists now key direction size with
  | (t, some _) => t
  | (t, none) => if typ ≠ 8 then t else t.insert now ord key direction size 0

/-- A message is sent. -/
def trackOutbound (packet : ICMPConnKey) (typ : UInt8) (size : ℤ) : ICMPTracker :=
  match t.updateIfExists now packet.reversed .egress size with
  | (t, some _) => t
  | (t, none) => track t now ord packet typ .egress size

/-- A message is received. -/
def trackInbound (packet : ICMPConnKey) (typ : UInt8) (size : ℤ) : ICMPTracker :=
  track t now ord packet typ .ingress size

/-- `IsValidInbound`: echo replies of both families. -/
def isValidInbound (seen : ℤ) (packet : ICMPConnKey) (icmpType : UInt8) (size : ℤ) :
    ICMPTracker × Bool :=
  if icmpType ≠ 0 && icmpType ≠ 129 then (t, false)
  else t.checkInbound now seen packet.reversed size

end ICMPTracker

/-! ## The port of an entry

An entry keeps the port that it was made with for as long as it is in the table. -/

/-- What can become of a recorded port. -/
def PortKept (before after : Option UInt32) : Prop := after = before ∨ after = none

theorem PortKept.refl (port : Option UInt32) : PortKept port port := .inl rfl

open BaseConnTrack

namespace BaseTracker

variable {κ : Type} [DecidableEq κ] {t : BaseTracker κ}

/-- The port recorded in the entry of a key. -/
def origPort (t : BaseTracker κ) (key : κ) : Option UInt32 :=
  (get t.connections key).map dnatOrigPort

variable {now size : ℤ} {key : κ} {direction : Direction} {ord : RangeOrder κ} {port : UInt16}

/-- A touched entry keeps its port. -/
theorem origPort_touch {conn : BaseConnTrack} (hget : get t.connections key = some conn) (k : κ) :
    (t.touch now key conn direction size).origPort k = t.origPort k := by
  rw [origPort, touch, origPort, get_set]
  split
  next hk =>
    rw [hk, hget, map_some, map_some, dnatOrigPort_updateCounters,
      dnatOrigPort_updateLastSeen]
  · rfl

/-- Counting a packet changes no port. -/
theorem origPort_updateIfExists (k : κ) :
    (t.updateIfExists now key direction size).1.origPort k = t.origPort k := by
  rw [updateIfExists]
  split
  · rfl
  next conn hget =>
    exact origPort_touch hget k

/-- The port of a known connection. -/
theorem updateIfExists_snd : (t.updateIfExists now key direction size).2 =
    (t.origPort key).map UInt32.toUInt16 := by
  rw [updateIfExists, origPort]
  split <;> simp [*]

/-- Eviction changes no port. -/
theorem origPort_evictOneLocked (ord : RangeOrder κ) (k : κ) : PortKept (t.origPort k)
      ((get (evictOneLocked ord t.connections) k).map dnatOrigPort) := by
  rw [evictOneLocked]
  split
  · exact .refl _
  next key _ =>
    by_cases hk : k = key
    · rw [hk, get_erase_self]
      exact .inr rfl
    · rw [get_erase_of_ne hk]
      exact .refl _

/-- A new entry has the port it is made with. -/
theorem origPort_insert_self :
    (t.insert now ord key direction size port).origPort key = some port.toUInt32 := by
  rw [origPort, insert]
  rw [get_set_self, map_some, dnatOrigPort_updateCounters,
    dnatOrigPort_updateLastSeen]

/-- The other entries keep theirs. -/
theorem origPort_insert_of_ne {k : κ} (hk : k ≠ key) :
    PortKept (t.origPort k) ((t.insert now ord key direction size port).origPort k) := by
  rw [origPort, origPort, insert]
  rw [get_set_of_ne hk]
  split
  · exact origPort_evictOneLocked ord k
  · exact .refl _

/-- A check changes no port. -/
theorem origPort_checkInbound {seen : ℤ} (k : κ) :
    (t.checkInbound now seen key size).1.origPort k = t.origPort k := by
  rw [checkInbound]
  split
  · rfl
  next conn hget =>
    split
    · rfl
    · exact origPort_touch hget k

/-- Cleaning up changes no port. -/
theorem origPort_cleanup {now : κ → ℤ} (k : κ) :
    PortKept (t.origPort k) ((t.cleanup now).origPort k) := by
  rw [origPort, origPort, cleanup]
  rw [get_mapEntries]
  cases get t.connections k with
  | none => exact .refl _
  | some conn =>
    rw [bind_some]
    split
    · exact .inr rfl
    · exact .refl _

end BaseTracker

open BaseTracker

namespace UDPTracker

variable {t : UDPTracker} {now size : ℤ} {ord : RangeOrder ConnKey} {key k : ConnKey}
  {direction : Direction} {port : UInt16}

theorem origPort_track_of_none (h : t.origPort key = none) :
    (track t now ord key direction size port).origPort key = some port.toUInt32 := by
  have hsnd : (t.updateIfExists now key direction size).2 = none := by
    rw [updateIfExists_snd, h]
    rfl
  rw [track]
  split
  next heq =>
    rw [heq] at hsnd
    cases hsnd
  · exact origPort_insert_self

/-- A known entry keeps its port. -/
theorem origPort_track (h : k = key → t.origPort key ≠ none) :
    PortKept (t.origPort k) ((track t now ord key direction size port).origPort k) := by
  have hupdate := @origPort_updateIfExists _ _ t now size key direction k
  have hsnd := @updateIfExists_snd _ _ t now size key direction
  rw [track]
  split
  next heq =>
    rw [heq] at hupdate
    rw [hupdate]
    exact .refl _
  next heq =>
    rw [heq] at hupdate hsnd
    have hne : k ≠ key := by
      intro hk
      exact h hk (map_eq_none_iff.mp hsnd.symm)
    rw [← hupdate]
    exact origPort_insert_of_ne hne

/-- An outbound packet gets the port of the entry of the other direction; the entry that it makes
itself has none. -/
theorem trackOutbound_snd : (trackOutbound t now ord key size).2 =
      ((t.origPort key.reversed).map UInt32.toUInt16).getD 0 := by
  have hsnd := @updateIfExists_snd _ _ t now size key.reversed .egress
  rw [trackOutbound]
  split
  all_goals
    rename_i heq
    rw [heq] at hsnd
    rw [← hsnd]
    rfl

/-- A sent packet never brings a port of a rule. -/
theorem origPort_trackOutbound :
    PortKept (t.origPort k) ((trackOutbound t now ord key size).1.origPort k) ∨
      (trackOutbound t now ord key size).1.origPort k = some 0 := by
  have hupdate := @origPort_updateIfExists _ _ t now size key.reversed .egress
  rw [trackOutbound]
  split
  next t' _ heq =>
    rw [heq] at hupdate
    rw [← hupdate k]
    exact .inl (.refl _)
  next t' heq =>
    rw [heq] at hupdate
    rw [← hupdate k]
    by_cases hmake : k = key ∧ t'.origPort key = none
    · rw [hmake.1]
      exact .inr (origPort_track_of_none hmake.2)
    · refine .inl (origPort_track fun hk hnone => hmake ⟨hk, hnone⟩)

end UDPTracker

/-! ### TCP -/

@[simp] theorem TCPConnTrack.dnatOrigPort_updateCounters (conn : TCPConnTrack)
    (direction : Direction) (bytes : ℤ) :
    (conn.updateCounters direction bytes).dnatOrigPort = conn.dnatOrigPort := by
  rw [updateCounters]
  split <;> rfl

theorem TCPConnTrack.dnatOrigPort_updateState (conn : TCPConnTrack) (now : ℤ) (flags : UInt8)
    (direction : Direction) (size : ℤ) :
    (conn.updateState now flags direction size).dnatOrigPort = conn.dnatOrigPort := by
  simp only [updateState, handleRst, onTransition]
  repeat' split
  all_goals simp

namespace TCPTracker

variable {t : TCPTracker} {now size : ℤ} {ord : RangeOrder ConnKey} {key k : ConnKey}
  {flags : UInt8} {direction : Direction} {port : UInt16}

/-- The port recorded in the entry of a key. -/
def origPort (t : TCPTracker) (key : ConnKey) : Option UInt32 :=
  (get t.connections key).map TCPConnTrack.dnatOrigPort

/-- Only the call that creates an entry sets its port. -/
theorem origPort_apply (call : Call) (h : ¬ t.Creates call k) :
    PortKept (t.origPort k) ((t.apply call).origPort k) := by
  rcases get_apply t call k with ⟨hcreates, -⟩ | ⟨-, heffect⟩
  · exact absurd hcreates h
  · rw [origPort, origPort]
    generalize get t.connections k = before at heffect ⊢
    generalize get (t.apply call).connections k = after at heffect ⊢
    cases heffect with
    | kept => exact .refl _
    | removed => exact .inr rfl
    | updated =>
      rw [map_some, map_some, TCPConnTrack.dnatOrigPort_updateState]
      exact .refl _

theorem origPort_track_of_syn (hsyn : hasFlag flags tcpSyn)
    (hlegal : isValidFlagCombination flags) (hfree : t.tracked key flags = false) :
    (t.track now ord key flags direction size port).origPort key = some port.toUInt32 := by
  rw [origPort, track, updateIfExists_of_not_tracked hfree]
  simp only [hsyn, hlegal, Bool.not_true, Bool.false_eq_true, if_false]
  rw [get_set_self, map_some, TCPConnTrack.dnatOrigPort_updateState]
  rfl

/-- An outbound packet gets the port of the entry of the other direction, or none. -/
theorem trackOutbound_snd : (t.trackOutbound now ord key flags size).2 = 0 ∨
      (t.origPort key.reversed).map UInt32.toUInt16 =
        some (t.trackOutbound now ord key flags size).2 := by
  rw [trackOutbound]
  cases htracked : t.tracked key.reversed flags with
  | false =>
    rw [updateIfExists_of_not_tracked htracked]
    exact .inl rfl
  | true =>
    obtain ⟨conn, hget, -, heq⟩ :=
      @updateIfExists_of_tracked t now size key.reversed flags .egress htracked
    rw [heq, origPort, hget, TCPConnTrack.dnatOrigPort_updateState]
    exact .inr rfl

theorem origPort_trackOutbound :
    PortKept (t.origPort k) ((t.trackOutbound now ord key flags size).1.origPort k) ∨
      (t.trackOutbound now ord key flags size).1.origPort k = some 0 := by
  by_cases hcreates : t.Creates (.trackOutbound now ord key flags size) k
  · obtain ⟨hk, hsyn, hlegal, hreversed, hfree⟩ := hcreates
    rw [hk, trackOutbound, updateIfExists_of_not_tracked hreversed]
    exact .inr (origPort_track_of_syn hsyn hlegal hfree)
  · exact .inl (origPort_apply _ hcreates)

end TCPTracker

end Conntrack
