/-
# Relayed frames end to end

A client sends a payload to a peer on a channel (`shared/relay/client/client.go`); the server puts
the identifier of the sender in place of the destination and forwards the frame
(`relay/server/peer.go`).  The message with which a client authenticates is read back as it was
written, and there is one exactly if it fits into a handshake.
-/
import AnonBird.RelayStore

open GoStrings GoBuffer RelayMessages

namespace Relay

/-! ## The client -/

/-- A channel of a peer. -/
structure ConnKey where
  peerID : PeerID
  channelID : UInt32
  deriving DecidableEq

/-- The frame of a payload: the default channel uses the legacy frame. -/
def transportFrame (dstID : PeerID) (channelID : UInt32) (payload : Bytes) : Bytes :=
  if channelID = 0 then marshalTransportMsg dstID payload
  else marshalTransportChannelMsg dstID channelID payload

/-- `writeTo`: the frame it writes; `none` is `net.ErrClosed`, for a connection that is not the
registered one of its key. -/
def writeTo (conns : List (ConnKey × ℕ)) (containerRef : ℕ) (dstID : PeerID) (channelID : UInt32)
    (payload : Bytes) : Option Bytes :=
  match get conns ⟨dstID, channelID⟩ with
  | none => none
  | some current =>
    if current ≠ containerRef then none else some (transportFrame dstID channelID payload)

/-! ## The server -/

/-- The connection that receives what is sent to a peer and channel: without one on the
channel, the connection on the default channel. -/
def Store.receiver (s : Store) (id : PeerID) (channelID : UInt32) : Option Peer :=
  match s.peerChannel id channelID with
  | some item => some item
  | none => if channelID ≠ 0 then s.peerChannel id 0 else none

/-- `handleTransportMsg` of the connection `p`: the connection it writes to and the
message; `none` if an error was logged. -/
def Peer.handleTransportMsg (p : Peer) (store : Store) (msg : Bytes) : Option (Peer × Bytes) :=
  match unmarshalTransportChannelMsg msg with
  | .error _ => none
  | .ok (peerID, channelID, _) =>
    match store.receiver peerID channelID with
    | none => none
    | some dp =>
      match updateTransportMsg msg p.id with
      | .error _ => none
      | .ok msg => some (dp, msg)

/-! ## Frames -/

/-- The type of the frame of a channel. -/
def transportType (channelID : UInt32) : MsgType :=
  if channelID = 0 then msgTypeTransport else msgTypeTransportChannel

/-- The bytes of a channel in a frame: none for the default channel. -/
def channelBytes (channelID : UInt32) : Bytes :=
  if channelID = 0 then [] else uint32Bytes channelID

/-- Both kinds of frames: the header, the identifier, the channel and the payload. -/
theorem transportFrame_eq (d : PeerID) (c : UInt32) (x : Bytes) :
    transportFrame d c x = protoHeader (transportType c) ++ (d.bytes ++ (channelBytes c ++ x)) := by
  unfold transportFrame transportType channelBytes
  by_cases hc : c = 0
  · simp only [if_pos hc, List.nil_append, marshalTransportMsg_eq]
  · simp only [if_neg hc, marshalTransportChannelMsg_eq]

theorem unmarshalTransportChannelMsg_transportFrame (s : PeerID) (c : UInt32) (x : Bytes) :
    unmarshalTransportChannelMsg (transportFrame s c x) = .ok (s, c, x) := by
  rw [transportFrame_eq]
  unfold transportType channelBytes
  by_cases hc : c = 0
  · simp only [if_pos hc, List.nil_append]
    rw [hc, unmarshalTransportChannelMsg_legacy]
  · simp only [if_neg hc]
    rw [unmarshalTransportChannelMsg_channel]

/-- The rewritten frame is the frame for the new identifier. -/
theorem updateTransportMsg_transportFrame (d s : PeerID) (c : UInt32) (x : Bytes) :
    updateTransportMsg (transportFrame d c x) s = .ok (transportFrame s c x) := by
  rw [transportFrame_eq, updateTransportMsg_frame, transportFrame_eq]

/-- The size of the message that authenticates a connection of a channel. -/
def authFrameSize (channelID : UInt32) (authPayload : Bytes) : ℕ :=
  (if channelID = 0 then headerTotalSizeAuth else headerTotalSizeAuthChannel) + authPayload.length

variable {c : UInt32} {a : Bytes}

/-- An authentication message that fits is read back, and is as large as said. -/
theorem marshalAuthChannelMsg_fits (h : authFrameSize c a ≤ maxHandshakeSize) (id : PeerID) :
    ∃ msg, marshalAuthChannelMsg id c a = .ok msg ∧ msg.length = authFrameSize c a ∧
      unmarshalAuthChannelMsg msg = .ok (id, c, a) := by
  unfold authFrameSize at h ⊢
  by_cases hc : c = 0
  · rw [if_pos hc] at h ⊢
    refine ⟨_, ?_, (auth_parts msgTypeAuth id a).1, ?_⟩
    · unfold marshalAuthChannelMsg
      rw [if_pos hc, marshalAuthMsg_eq h]
    · rw [hc, unmarshalAuthChannelMsg_legacy]
  · rw [if_neg hc] at h ⊢
    refine ⟨_, marshalAuthChannelMsg_eq hc h id, ?_, unmarshalAuthChannelMsg_channel id c a⟩
    rw [(auth_parts msgTypeAuthChannel id (uint32Bytes c ++ a)).1, List.length_append,
      length_uint32Bytes, headerTotalSizeAuthChannel, channelIDSize, Nat.add_assoc]

theorem marshalAuthChannelMsg_too_large (h : maxHandshakeSize < authFrameSize c a) (id : PeerID) :
    marshalAuthChannelMsg id c a = .error .tooLargeAuthPayload := by
  unfold authFrameSize at h
  unfold marshalAuthChannelMsg
  by_cases hc : c = 0
  · rw [if_pos hc] at h ⊢
    unfold marshalAuthMsg
    rw [if_pos (by omega)]
  · rw [if_neg hc] at h ⊢
    rw [if_pos (by omega)]

/-- **Frames carry sender, channel and payload end to end.** What the client writes for `(d, c, x)`
is forwarded to the receiver of `d` and `c` and read there as `(s, c, x)`. The authentication
message is read back, unless it is larger than a handshake may be, which is an error. -/
theorem frames_end_to_end (s d : PeerID) (c : UInt32) (x : Bytes) (id : PeerID) (a : Bytes) :
    (∃ frame forwarded,
      (∀ conns ref, get conns ⟨d, c⟩ = some ref → writeTo conns ref d c x = some frame) ∧
      byteAt frame 1 = (if c = 0 then msgTypeTransport else msgTypeTransportChannel) ∧
      unmarshalTransportID frame = .ok d ∧ updateTransportMsg frame s = .ok forwarded ∧
      unmarshalTransportChannelMsg forwarded = .ok (s, c, x) ∧
      ∀ (store : Store) (p : Peer), p.id = s →
        p.handleTransportMsg store frame = (store.receiver d c).map fun dp => (dp, forwarded)) ∧
    (authFrameSize c a ≤ maxHandshakeSize →
      ∃ msg, marshalAuthChannelMsg id c a = .ok msg ∧ msg.length = authFrameSize c a ∧
        unmarshalAuthChannelMsg msg = .ok (id, c, a)) ∧ (maxHandshakeSize < authFrameSize c a →
      marshalAuthChannelMsg id c a = .error .tooLargeAuthPayload) := by
  refine ⟨⟨transportFrame d c x, transportFrame s c x, ?_, ?_, ?_,
    updateTransportMsg_transportFrame d s c x,
    unmarshalTransportChannelMsg_transportFrame s c x, ?_⟩,
    fun h => marshalAuthChannelMsg_fits h id, fun h => marshalAuthChannelMsg_too_large h id⟩
  · intro conns ref hget
    simp [writeTo, hget]
  · rw [transportFrame_eq, byteAt_type]
    rfl
  · rw [transportFrame_eq, unmarshalTransportID_frame]
  · intro store p hp
    simp only [Peer.handleTransportMsg, unmarshalTransportChannelMsg_transportFrame, hp,
      updateTransportMsg_transportFrame]
    cases store.receiver d c with
    | none => rfl
    | some dp => rfl

end Relay
