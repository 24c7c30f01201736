/-
# The peers of a relay server

Model of `relay/server/store/store.go`: the connections of the relay server by peer and channel.
A connection is an object of its own, so deleting one leaves a newer connection of the same peer and
channel in place.  The table of a peer exists only while it has an entry; this is a field of the
store.
-/
import AnonBird.GoMap
import AnonBird.RelayMessages

open RelayMessages Option
open GoMap hiding get set

namespace Relay

export GoMap (get set)

/-! ## The store -/

/-- A connection of a peer to the server; `ref` is the identity of the object. -/
structure Peer where
  ref : ℕ
  id : PeerID
  channelID : UInt32
  deriving DecidableEq

/-- `Store`: the channels of each connected peer. -/
structure Store where
  peers : List (PeerID × List (UInt32 × Peer))
  inhabited : ∀ id channels, get peers id = some channels → channels ≠ []

/-- The store without peers. -/
def newStore : Store := ⟨[], fun _ _ h => by cases h⟩

variable (s : Store)

/-- `AddPeer`: the connection it replaced, which was closed, and the store. -/
def Store.addPeer (peer : Peer) : Option Peer × Store :=
  let channels := (get s.peers peer.id).getD []
  (get channels peer.channelID,
    { peers := set s.peers peer.id (set channels peer.channelID peer)
      inhabited := by
        intro id cs h
        obtain ⟨-, rfl⟩ | ⟨-, h⟩ := get_set_eq_some.mp h
        · exact List.cons_ne_nil _ _
        · exact s.inhabited id cs h })

/-- The entries that stay when a connection is deleted; without any the peer goes too. -/
def Store.dropChannel (id : PeerID) (rest : List (UInt32 × Peer)) : Store where
  peers := if rest = [] then erase s.peers id else set s.peers id rest
  inhabited := by
    intro id' cs h
    split at h
    · exact s.inhabited id' cs (get_of_get_erase h).2
    next hrest =>
      obtain ⟨-, rfl⟩ | ⟨-, h⟩ := get_set_eq_some.mp h
      · exact hrest
      · exact s.inhabited id' cs h

/-- A channel is removed if it is still the one stored. -/
def Store.deletePeer (peer : Peer) : Bool × Store :=
  match get s.peers peer.id with
  | none => (false, s)
  | some channels =>
    match get channels peer.channelID with
    | none => (false, s)
    | some dp =>
      if dp ≠ peer then (false, s)
      else (true, s.dropChannel peer.id (erase channels peer.channelID))

/-- The channel of a peer. -/
def Store.peerChannel (id : PeerID) (channelID : UInt32) : Option Peer :=
  (get s.peers id).bind fun channels => get channels channelID

/-- A peer has a channel. -/
def Store.hasPeer (id : PeerID) : Bool :=
  0 < ((get s.peers id).getD []).length

/-- The test of `GetOnlinePeersAndRegisterInterest`: the peer has a table. -/
def Store.knows (id : PeerID) : Bool := (get s.peers id).isSome

/-! ## The store through its lookups -/

variable (s : Store) (q : Peer) (id : PeerID) (c : UInt32)

open Store

theorem Store.hasPeer_eq_knows : s.hasPeer id = s.knows id := by
  unfold hasPeer knows
  cases h : get s.peers id with
  | none => rfl
  | some channels =>
    have hpos : 0 < channels.length := List.length_pos_iff.mpr (s.inhabited id channels h)
    simp [hpos]

/-- A peer is there if it has a channel. -/
theorem Store.hasPeer_iff {s : Store} {id : PeerID} : s.hasPeer id ↔ ∃ c q, s.peerChannel id c =
    some q := by
  rw [hasPeer_eq_knows]
  unfold knows peerChannel
  cases h : get s.peers id with
  | none => simp
  | some channels =>
    obtain ⟨⟨c, q⟩, rest, rfl⟩ := List.exists_cons_of_ne_nil (s.inhabited id channels h)
    simp only [isSome_some, bind_some, true_iff]
    exact ⟨c, q, by simp [get]⟩

/-- A channel is added. -/
theorem Store.peerChannel_addPeer :
    (s.addPeer q).2.peerChannel id c =
      if id = q.id ∧ c = q.channelID then some q else s.peerChannel id c := by
  simp only [addPeer, peerChannel, get_set]
  by_cases hid : id = q.id
  · subst hid
    by_cases hc : c = q.channelID
    · subst hc
      simp
    · rw [if_pos rfl, bind_some, get_set_of_ne hc, if_neg (by simp [hc])]
      cases get s.peers q.id <;> rfl
  · simp [hid]

/-- A channel is deleted if it is the stored one. -/
theorem Store.deletePeer_fst :
    (s.deletePeer q).1 ↔ s.peerChannel q.id q.channelID = some q := by
  unfold deletePeer peerChannel
  cases get s.peers q.id with
  | none => simp
  | some channels =>
    simp only [bind_some]
    cases get channels q.channelID with
    | none => simp
    | some dp =>
      by_cases hdp : dp = q <;> simp [hdp]

/-- The channels of a peer are replaced. -/
theorem Store.peerChannel_dropChannel (id' : PeerID) (c : UInt32) (rest : List (UInt32 × Peer)) :
    (s.dropChannel id rest).peerChannel id' c =
      if id' = id then get rest c else s.peerChannel id' c := by
  unfold dropChannel peerChannel
  by_cases hid : id' = id
  · subst hid
    by_cases hrest : rest = []
    · simp only [if_pos hrest, get_erase_self, bind_none, if_true]
      rw [hrest]
      rfl
    · simp [hrest]
  · by_cases hrest : rest = []
    · simp only [if_pos hrest, if_neg hid, get_erase_of_ne hid]
    · simp only [if_neg hrest, if_neg hid, get_set_of_ne hid]

/-- **Deleting a connection** removes its entry, and no entry of another connection. -/
theorem Store.peerChannel_deletePeer :
    (s.deletePeer q).2.peerChannel id c =
      if s.peerChannel q.id q.channelID = some q ∧ id = q.id ∧ c = q.channelID then none
      else s.peerChannel id c := by
  by_cases hq : s.peerChannel q.id q.channelID = some q
  · obtain ⟨channels, hchannels, hget⟩ := bind_eq_some_iff.mp hq
    have hdelete : (s.deletePeer q).2 = s.dropChannel q.id (erase channels q.channelID) := by
      simp [deletePeer, hchannels, hget]
    rw [hdelete, peerChannel_dropChannel]
    by_cases hid : id = q.id
    · subst hid
      by_cases hc : c = q.channelID
      · simp [hc, hq]
      · rw [if_pos rfl, if_neg (by simp [hc]), get_erase_of_ne hc]
        simp [peerChannel, hchannels]
    · simp [hid]
  · have hkept : (s.deletePeer q).2 = s := by
      have hfalse : (s.deletePeer q).1 ≠ true := fun h => hq ((s.deletePeer_fst q).mp h)
      unfold deletePeer at hfalse ⊢
      split at hfalse
      · rfl
      · split at hfalse
        · rfl
        · split at hfalse <;> simp_all
    rw [hkept, if_neg (fun h => hq h.1)]

end Relay
