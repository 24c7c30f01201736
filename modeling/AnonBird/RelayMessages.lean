/-
# Messages of the relay protocol

Model of `shared/relay/messages/message.go` and `id.go`: the frames that relay clients and the relay
server exchange.  Every frame is built by copies into a buffer of its final size.  The lemmas of
this module say what was built as a concatenation, and read the frames back.
-/
import AnonBird.GoBuffer

open GoStrings GoBuffer List
open Nat (add_assoc)

namespace RelayMessages

/-! ## Sizes and offsets -/

/-- The size of the largest handshake message. -/
def maxHandshakeSize : ℕ := 212
/-- The first byte of every message. -/
def currentProtocolVersion : UInt8 := 1
/-- The version and the type. -/
def sizeOfProtoHeader : ℕ := 2
/-- The size of a channel id. -/
def channelIDSize : ℕ := 4
/-- The size of the magic header. -/
def sizeOfMagicByte : ℕ := 4

/-- `prefixLength` plus the size of a SHA-256 sum. -/
def peerIDSize : ℕ := 4 + 32

/-- Where the magic header starts. -/
def offsetMagicByte : ℕ := sizeOfProtoHeader
/-- Where the peer id of an auth message starts. -/
def offsetAuthPeerID : ℕ := sizeOfProtoHeader + sizeOfMagicByte
/-- What precedes the payload of an auth message. -/
def headerTotalSizeAuth : ℕ := sizeOfProtoHeader + (sizeOfMagicByte + peerIDSize)
/-- Where the channel id of an auth message starts. -/
def offsetAuthChannelID : ℕ := headerTotalSizeAuth
/-- What precedes the payload if there is a channel id. -/
def headerTotalSizeAuthChannel : ℕ := headerTotalSizeAuth + channelIDSize
/-- Where the peer id of a transport message starts. -/
def offsetTransportID : ℕ := sizeOfProtoHeader
/-- What precedes the payload of a transport message. -/
def headerTotalSizeTransport : ℕ := sizeOfProtoHeader + peerIDSize
/-- Where the channel id of a transport message starts. -/
def offsetTransportChannelID : ℕ := headerTotalSizeTransport
/-- What precedes the payload if there is a channel id. -/
def headerTotalSizeTransportChannel : ℕ := headerTotalSizeTransport + channelIDSize
/-- The magic header of a handshake. -/
def magicHeader : Bytes := [0x21, 0x12, 0xA4, 0x42]

/-! ## Message types and errors -/

/-- `MsgType`, a byte of which the protocol names some values. -/
abbrev MsgType := UInt8

/-- The hello of the old handshake. -/
def msgTypeHello : MsgType := 1
/-- The reply to a hello. -/
def msgTypeHelloResponse : MsgType := 2
/-- A packet for a peer. -/
def msgTypeTransport : MsgType := 3
/-- The end of a connection. -/
def msgTypeClose : MsgType := 4
/-- A sign of life. -/
def msgTypeHealthCheck : MsgType := 5
/-- The handshake. -/
def msgTypeAuth : MsgType := 6
/-- The reply to a handshake. -/
def msgTypeAuthResponse : MsgType := 7
/-- Interest in the state of peers. -/
def msgTypeSubscribePeerState : MsgType := 8
/-- The end of that interest. -/
def msgTypeUnsubscribePeerState : MsgType := 9
/-- Peers came online. -/
def msgTypePeersOnline : MsgType := 10
/-- Peers went offline. -/
def msgTypePeersWentOffline : MsgType := 11
/-- A packet for a peer on a channel. -/
def msgTypeTransportChannel : MsgType := 12
/-- The handshake of a channel. -/
def msgTypeAuthChannel : MsgType := 13

/-- `MsgType.String`; an `AuthChannel` message has a name as well. -/
def MsgType.string (m : MsgType) : Bytes :=
  if m = msgTypeHello then ascii "hello"
  else if m = msgTypeHelloResponse then ascii "hello response"
  else if m = msgTypeAuth then ascii "auth"
  else if m = msgTypeAuthResponse then ascii "auth response"
  else if m = msgTypeAuthChannel then ascii "auth channel"
  else if m = msgTypeTransport then ascii "transport"
  else if m = msgTypeClose then ascii "close"
  else if m = msgTypeHealthCheck then ascii "health check"
  else if m = msgTypeSubscribePeerState then ascii "subscribe peer state"
  else if m = msgTypeUnsubscribePeerState then ascii "unsubscribe peer state"
  else if m = msgTypePeersOnline then ascii "peers online"
  else if m = msgTypePeersWentOffline then ascii "peers went offline"
  else if m = msgTypeTransportChannel then ascii "transport channel"
  else ascii "unknown"

/-- The errors of the package. -/
inductive MsgError where
  | invalidMessageLength
  | unsupportedVersion (version : UInt8)
  | invalidMsgType (msgType : MsgType)
  | invalidMagicHeader
  | tooLargeAuthPayload
  | invalidAuthChannelType (msgType : MsgType)
  | unexpectedTransportType (msgType : MsgType)
  deriving DecidableEq, Repr

/-- The text of an error. -/
def MsgError.error : MsgError → Bytes
  | .invalidMessageLength => ascii "invalid message length"
  | .unsupportedVersion v => formatUint v.toNat ++ ascii ": unsupported version"
  | .invalidMsgType t => ascii "invalid msg type " ++ formatUint t.toNat
  | .invalidMagicHeader => ascii "invalid magic header"
  | .tooLargeAuthPayload => ascii "too large auth payload"
  | .invalidAuthChannelType t => ascii "invalid auth channel message type " ++ MsgType.string t
  | .unexpectedTransportType t => ascii "unexpected transport message type " ++ MsgType.string t

/-- The version of a message is checked. -/
def validateVersion (msg : Bytes) : Except MsgError UInt8 :=
  if msg.length < sizeOfProtoHeader then .error .invalidMessageLength
  else if byteAt msg 0 ≠ currentProtocolVersion then .error (.unsupportedVersion (byteAt msg 0))
  else .ok (byteAt msg 0)

/-- The types of messages that a client sends. -/
def clientMessageTypes : List MsgType :=
  [msgTypeHello, msgTypeAuth, msgTypeAuthChannel, msgTypeTransport, msgTypeTransportChannel,
    msgTypeClose, msgTypeHealthCheck, msgTypeSubscribePeerState, msgTypeUnsubscribePeerState]

/-- The type of a message, if a client may send it. -/
def determineClientMessageType (msg : Bytes) : Except MsgError MsgType :=
  if msg.length < sizeOfProtoHeader then .error .invalidMessageLength
  else if byteAt msg 1 ∈ clientMessageTypes then .ok (byteAt msg 1)
  else .error (.invalidMsgType (byteAt msg 1))

/-! ## Peer identifiers -/

/-- `PeerID`: an array of `peerIDSize` bytes. -/
@[ext] structure PeerID where
  bytes : Bytes
  size : bytes.length = peerIDSize
  deriving DecidableEq

/-- A new array into which the bytes are copied. -/
def PeerID.ofBytes (b : Bytes) : PeerID := ⟨copyAt (make peerIDSize) 0 b, by simp⟩

open PeerID

/-- A peer id is read back. -/
theorem PeerID.ofBytes_bytes (id : PeerID) : ofBytes id.bytes = id := by
  ext1
  exact copyAt_zero (by rw [length_make, id.size])

/-! ## Authentication -/

/-- The bytes of an auth message. -/
def marshalAuthMsg (peerID : PeerID) (authPayload : Bytes) : Except MsgError Bytes :=
  if headerTotalSizeAuth + authPayload.length > maxHandshakeSize then .error .tooLargeAuthPayload
  else
    let msg := make (headerTotalSizeAuth + authPayload.length)
    let msg := msg.set 0 currentProtocolVersion
    let msg := msg.set 1 msgTypeAuth
    let msg := copyAt msg sizeOfProtoHeader magicHeader
    let msg := copyAt msg offsetAuthPeerID peerID.bytes
    .ok (copyAt msg headerTotalSizeAuth authPayload)

/-- The peer id and the payload of an auth message. -/
def unmarshalAuthMsg (msg : Bytes) : Except MsgError (PeerID × Bytes) :=
  if msg.length < headerTotalSizeAuth then .error .invalidMessageLength
  else if slice msg offsetMagicByte (offsetMagicByte + sizeOfMagicByte) ≠ magicHeader then
    .error .invalidMagicHeader
  else
    .ok (ofBytes (slice msg offsetAuthPeerID headerTotalSizeAuth),
      msg.drop headerTotalSizeAuth)

/-- `MarshalAuthChannelMsg`: the default channel uses the legacy message. -/
def marshalAuthChannelMsg (peerID : PeerID) (channelID : UInt32) (authPayload : Bytes) :
    Except MsgError Bytes :=
  if channelID = 0 then marshalAuthMsg peerID authPayload
  else if headerTotalSizeAuthChannel + authPayload.length > maxHandshakeSize then
    .error .tooLargeAuthPayload
  else
    let msg := make (headerTotalSizeAuthChannel + authPayload.length)
    let msg := msg.set 0 currentProtocolVersion
    let msg := msg.set 1 msgTypeAuthChannel
    let msg := copyAt msg sizeOfProtoHeader magicHeader
    let msg := copyAt msg offsetAuthPeerID peerID.bytes
    let msg := putUint32 msg offsetAuthChannelID channelID
    .ok (copyAt msg headerTotalSizeAuthChannel authPayload)

/-- `UnmarshalAuthChannelMsg`: a legacy message is one of the default channel. -/
def unmarshalAuthChannelMsg (msg : Bytes) : Except MsgError (PeerID × UInt32 × Bytes) :=
  match determineClientMessageType msg with
  | .error err => .error err
  | .ok msgType =>
    if msgType = msgTypeAuth then
      (unmarshalAuthMsg msg).map fun (peerID, payload) => (peerID, 0, payload)
    else if msgType ≠ msgTypeAuthChannel then .error (.invalidAuthChannelType msgType)
    else if msg.length < headerTotalSizeAuthChannel then .error .invalidMessageLength
    else if slice msg offsetMagicByte (offsetMagicByte + sizeOfMagicByte) ≠ magicHeader then
      .error .invalidMagicHeader
    else
      .ok (ofBytes (slice msg offsetAuthPeerID headerTotalSizeAuth),
        readUint32 (slice msg offsetAuthChannelID headerTotalSizeAuthChannel),
        msg.drop headerTotalSizeAuthChannel)

/-! ## Transport -/

/-- `MarshalTransportMsg`; it has no error. -/
def marshalTransportMsg (peerID : PeerID) (payload : Bytes) : Bytes :=
  let msg := make (headerTotalSizeTransport + payload.length)
  let msg := msg.set 0 currentProtocolVersion
  let msg := msg.set 1 msgTypeTransport
  let msg := copyAt msg sizeOfProtoHeader peerID.bytes
  copyAt msg (sizeOfProtoHeader + peerIDSize) payload

/-- `MarshalTransportChannelMsg`; it has no error. -/
def marshalTransportChannelMsg (peerID : PeerID) (channelID : UInt32) (payload : Bytes) : Bytes :=
  let msg := make (headerTotalSizeTransportChannel + payload.length)
  let msg := msg.set 0 currentProtocolVersion
  let msg := msg.set 1 msgTypeTransportChannel
  let msg := copyAt msg sizeOfProtoHeader peerID.bytes
  let msg := putUint32 msg offsetTransportChannelID channelID
  copyAt msg headerTotalSizeTransportChannel payload

/-- The peer id and the payload of a transport message. -/
def unmarshalTransportMsg (buf : Bytes) : Except MsgError (PeerID × Bytes) :=
  if buf.length < headerTotalSizeTransport then .error .invalidMessageLength
  else
    .ok (ofBytes (slice buf offsetTransportID (offsetTransportID + peerIDSize)),
      buf.drop headerTotalSizeTransport)

/-- `UnmarshalTransportChannelMsg`, for both kinds of transport frames. -/
def unmarshalTransportChannelMsg (buf : Bytes) : Except MsgError (PeerID × UInt32 × Bytes) :=
  if buf.length < sizeOfProtoHeader then .error .invalidMessageLength
  else if byteAt buf 1 = msgTypeTransport then
    (unmarshalTransportMsg buf).map fun (peerID, payload) => (peerID, 0, payload)
  else if byteAt buf 1 = msgTypeTransportChannel then
    if buf.length < headerTotalSizeTransportChannel then .error .invalidMessageLength
    else
      .ok (ofBytes (slice buf offsetTransportID (offsetTransportID + peerIDSize)),
        readUint32 (buf.drop offsetTransportChannelID),
        buf.drop headerTotalSizeTransportChannel)
  else .error (.unexpectedTransportType (byteAt buf 1))

/-- The peer id of a transport message. -/
def unmarshalTransportID (buf : Bytes) : Except MsgError PeerID :=
  if buf.length < headerTotalSizeTransport then .error .invalidMessageLength
  else .ok (ofBytes (slice buf offsetTransportID (offsetTransportID + peerIDSize)))

/-- `UpdateTransportMsg`: the buffer after the identifier was overwritten. -/
def updateTransportMsg (msg : Bytes) (peerID : PeerID) : Except MsgError Bytes :=
  if msg.length < offsetTransportID + peerIDSize then .error .invalidMessageLength
  else .ok (copyAt msg offsetTransportID peerID.bytes)

/-! ## Frames as concatenations -/

/-- The version byte and the type byte. -/
def protoHeader (msgType : MsgType) : Bytes := [currentProtocolVersion, msgType]

variable (t : MsgType)

@[simp] theorem length_protoHeader : (protoHeader t).length = sizeOfProtoHeader := rfl

theorem byteAt_type (r : Bytes) : byteAt (protoHeader t ++ r) 1 = t := rfl

@[simp] theorem length_magicHeader : magicHeader.length = sizeOfMagicByte := rfl

/-- Storing the first two bytes of a new buffer. -/
theorem set_header (n : ℕ) : ((make (sizeOfProtoHeader + n)).set 0 currentProtocolVersion).set 1 t =
      protoHeader t ++ make n := by
  rw [make_add]
  rfl

/-- A transport message, field by field. -/
theorem marshalTransportMsg_eq (id : PeerID) (x : Bytes) :
    marshalTransportMsg id x = protoHeader msgTypeTransport ++ (id.bytes ++ x) := by
  unfold marshalTransportMsg headerTotalSizeTransport
  simp only
  rw [add_assoc, set_header, ← id.size, copyAt_fill (length_protoHeader _),
    copyAt_fill_last (by simp), append_assoc]

/-- A transport message with a channel, field by field. -/
theorem marshalTransportChannelMsg_eq (id : PeerID) (c : UInt32) (x : Bytes) :
    marshalTransportChannelMsg id c x =
      protoHeader msgTypeTransportChannel ++ (id.bytes ++ (uint32Bytes c ++ x)) := by
  unfold marshalTransportChannelMsg headerTotalSizeTransportChannel offsetTransportChannelID
    headerTotalSizeTransport channelIDSize
  simp only
  rw [add_assoc, add_assoc, set_header, ← id.size, copyAt_fill (length_protoHeader _),
    putUint32_fill (by simp), copyAt_fill_last (by simp [add_assoc])]
  simp only [append_assoc]

/-- An auth message, field by field. -/
theorem marshalAuthMsg_eq {a : Bytes} (h : headerTotalSizeAuth + a.length ≤ maxHandshakeSize)
    (id : PeerID) :
    marshalAuthMsg id a = .ok (protoHeader msgTypeAuth ++ (magicHeader ++ (id.bytes ++ a))) := by
  unfold marshalAuthMsg
  rw [if_neg (by omega)]
  unfold headerTotalSizeAuth offsetAuthPeerID
  simp only
  rw [add_assoc, add_assoc, set_header, ← id.size, ← length_magicHeader,
    copyAt_fill (length_protoHeader _), copyAt_fill (by simp), copyAt_fill_last (by simp)]
  simp only [append_assoc]

/-- An auth message with a channel, field by field. -/
theorem marshalAuthChannelMsg_eq {c : UInt32} (hc : c ≠ 0) {a : Bytes}
    (h : headerTotalSizeAuthChannel + a.length ≤ maxHandshakeSize) (id : PeerID) :
    marshalAuthChannelMsg id c a = .ok (protoHeader msgTypeAuthChannel ++
        (magicHeader ++ (id.bytes ++ (uint32Bytes c ++ a)))) := by
  unfold marshalAuthChannelMsg
  rw [if_neg hc, if_neg (by omega)]
  unfold headerTotalSizeAuthChannel offsetAuthChannelID headerTotalSizeAuth offsetAuthPeerID
    channelIDSize
  simp only
  rw [add_assoc, add_assoc, add_assoc, set_header, ← id.size, ← length_magicHeader,
    copyAt_fill (length_protoHeader _), copyAt_fill (by simp), putUint32_fill (by simp),
    copyAt_fill_last (by simp [add_assoc])]
  simp only [append_assoc]

/-! ## Reading frames back -/

/-- Every message has the version. -/
theorem validateVersion_frame (r : Bytes) :
    validateVersion (protoHeader t ++ r) = .ok currentProtocolVersion := by
  unfold validateVersion
  rfl

/-- The type of a message that a client may send. -/
theorem determineClientMessageType_frame {t : MsgType} (ht : t ∈ clientMessageTypes) (r : Bytes) :
    determineClientMessageType (protoHeader t ++ r) = .ok t := by
  unfold determineClientMessageType
  rw [if_neg (by simp), byteAt_type, if_pos ht]

theorem slice_transportID (id : PeerID) (r : Bytes) :
    slice (protoHeader t ++ (id.bytes ++ r)) offsetTransportID (offsetTransportID + peerIDSize) =
      id.bytes :=
  slice_append rfl (by rw [id.size])

theorem length_transport (id : PeerID) (r : Bytes) :
    (protoHeader t ++ (id.bytes ++ r)).length = headerTotalSizeTransport + r.length := by
  simp [headerTotalSizeTransport, id.size, add_assoc]

theorem drop_transport (id : PeerID) (r : Bytes) :
    (protoHeader t ++ (id.bytes ++ r)).drop headerTotalSizeTransport = r := by
  rw [← append_assoc]
  exact drop_left' (by simp [headerTotalSizeTransport, id.size])

/-- The peer id of a transport message. -/
theorem unmarshalTransportID_frame (id : PeerID) (r : Bytes) :
    unmarshalTransportID (protoHeader t ++ (id.bytes ++ r)) = .ok id := by
  unfold unmarshalTransportID
  rw [if_neg (by rw [length_transport]; omega), slice_transportID, ofBytes_bytes]

/-- **The server's rewrite** replaces the identifier and nothing else. -/
theorem updateTransportMsg_frame (d s : PeerID) (r : Bytes) :
    updateTransportMsg (protoHeader t ++ (d.bytes ++ r)) s =
      .ok (protoHeader t ++ (s.bytes ++ r)) := by
  unfold updateTransportMsg
  rw [if_neg (by rw [length_transport]; simp [headerTotalSizeTransport, offsetTransportID]),
    copyAt_append (i := offsetTransportID) rfl (by rw [d.size, s.size])]

section

variable (id : PeerID)

include id

/-- A message without a channel is on channel zero. -/
theorem unmarshalTransportChannelMsg_legacy (x : Bytes) :
    unmarshalTransportChannelMsg (protoHeader msgTypeTransport ++ (id.bytes ++ x)) =
      .ok (id, 0, x) := by
  have hmsg : unmarshalTransportMsg (protoHeader msgTypeTransport ++ (id.bytes ++ x)) =
      .ok (id, x) := by
    unfold unmarshalTransportMsg
    rw [if_neg (by rw [length_transport]; omega), slice_transportID, drop_transport,
      ofBytes_bytes]
  unfold unmarshalTransportChannelMsg
  rw [if_neg (by simp), byteAt_type, if_pos rfl, hmsg]
  rfl

/-- A message with a channel is read back. -/
theorem unmarshalTransportChannelMsg_channel (c : UInt32) (x : Bytes) :
    unmarshalTransportChannelMsg
        (protoHeader msgTypeTransportChannel ++ (id.bytes ++ (uint32Bytes c ++ x))) =
      .ok (id, c, x) := by
  have hdrop : (protoHeader msgTypeTransportChannel ++ (id.bytes ++ (uint32Bytes c ++ x))).drop
      headerTotalSizeTransportChannel = x := by
    unfold headerTotalSizeTransportChannel
    rw [← drop_drop, drop_transport]
    exact drop_left' rfl
  unfold unmarshalTransportChannelMsg
  rw [if_neg (by simp), byteAt_type, if_neg (by decide), if_pos rfl,
    if_neg (by rw [length_transport]; simp [headerTotalSizeTransportChannel, channelIDSize]),
    slice_transportID, ofBytes_bytes, hdrop, offsetTransportChannelID, drop_transport,
    readUint32_uint32Bytes]

/-- The parts of an authentication frame: the magic bytes, the identifier and the rest. -/
theorem auth_parts (r : Bytes) :
    let msg := protoHeader t ++ (magicHeader ++ (id.bytes ++ r))
    msg.length = headerTotalSizeAuth + r.length ∧
      slice msg offsetMagicByte (offsetMagicByte + sizeOfMagicByte) = magicHeader ∧
      slice msg offsetAuthPeerID headerTotalSizeAuth = id.bytes ∧
      msg.drop headerTotalSizeAuth = r := by
  refine ⟨by simp [headerTotalSizeAuth, id.size, add_assoc], slice_append rfl rfl, ?_, ?_⟩
  · rw [← append_assoc]
    exact slice_append rfl (by simp [offsetAuthPeerID, headerTotalSizeAuth, id.size, add_assoc])
  · rw [← append_assoc, ← append_assoc]
    exact drop_left' (by simp [headerTotalSizeAuth, id.size])

/-- An auth message is read back. -/
theorem unmarshalAuthMsg_frame (a : Bytes) :
    unmarshalAuthMsg (protoHeader t ++ (magicHeader ++ (id.bytes ++ a))) = .ok (id, a) := by
  obtain ⟨hlen, hmagic, hid, hrest⟩ := auth_parts t id a
  unfold unmarshalAuthMsg
  rw [if_neg (by rw [hlen]; omega), if_neg (by rw [hmagic]; simp), hid, hrest, ofBytes_bytes]

/-- A handshake without a channel is for channel zero. -/
theorem unmarshalAuthChannelMsg_legacy (a : Bytes) :
    unmarshalAuthChannelMsg (protoHeader msgTypeAuth ++ (magicHeader ++ (id.bytes ++ a))) =
      .ok (id, 0, a) := by
  have htype : msgTypeAuth ∈ clientMessageTypes := by decide
  simp only [unmarshalAuthChannelMsg, determineClientMessageType_frame htype, if_true,
    unmarshalAuthMsg_frame]
  rfl

/-- A handshake with a channel is read back. -/
theorem unmarshalAuthChannelMsg_channel (c : UInt32) (a : Bytes) :
    unmarshalAuthChannelMsg
        (protoHeader msgTypeAuthChannel ++ (magicHeader ++ (id.bytes ++ (uint32Bytes c ++ a)))) =
      .ok (id, c, a) := by
  obtain ⟨hlen, hmagic, hid, hrest⟩ := auth_parts msgTypeAuthChannel id (uint32Bytes c ++ a)
  have htype : msgTypeAuthChannel ∈ clientMessageTypes := by decide
  have hlong : ¬ (protoHeader msgTypeAuthChannel ++
      (magicHeader ++ (id.bytes ++ (uint32Bytes c ++ a)))).length < headerTotalSizeAuthChannel := by
    rw [hlen, length_append, length_uint32Bytes, headerTotalSizeAuthChannel, channelIDSize]
    omega
  have hchannel : slice (protoHeader msgTypeAuthChannel ++
      (magicHeader ++ (id.bytes ++ (uint32Bytes c ++ a)))) offsetAuthChannelID
        headerTotalSizeAuthChannel = uint32Bytes c := by
    rw [← append_assoc, ← append_assoc]
    exact slice_append (by simp [offsetAuthChannelID, headerTotalSizeAuth, id.size]) rfl
  have hpayload : (protoHeader msgTypeAuthChannel ++
      (magicHeader ++ (id.bytes ++ (uint32Bytes c ++ a)))).drop headerTotalSizeAuthChannel = a := by
    rw [headerTotalSizeAuthChannel, ← drop_drop, hrest]
    exact drop_left' rfl
  have hread : readUint32 (uint32Bytes c) = c := by
    simpa only [append_nil] using readUint32_uint32Bytes c []
  simp only [unmarshalAuthChannelMsg, determineClientMessageType_frame htype]
  rw [if_neg (by decide), if_neg (by simp), if_neg hlong, if_neg (by rw [hmagic]; simp), hid,
    hchannel, hpayload, hread, ofBytes_bytes]

end

end RelayMessages
