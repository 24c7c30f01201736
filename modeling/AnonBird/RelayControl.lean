/-
# Hello messages and lists of peers

Model of the hello message of `shared/relay/messages/message.go` and of `peer_state.go`: lists of
peers are sent in as many messages as their size asks for.
-/
import AnonBird.RelayMessages

open GoStrings GoBuffer List

namespace RelayMessages

open PeerID

/-! ## Hello -/

/-- `headerSizeHello`, without the bytes of the protocol header. -/
def headerSizeHello : ℕ := sizeOfMagicByte + peerIDSize

/-- `MarshalHelloMsg`; it has no error. -/
def marshalHelloMsg (peerID : PeerID) (additions : Bytes) : Bytes :=
  let msg := make (sizeOfProtoHeader + sizeOfMagicByte)
  let msg := msg.set 0 currentProtocolVersion
  let msg := msg.set 1 msgTypeHello
  let msg := copyAt msg sizeOfProtoHeader magicHeader
  msg ++ peerID.bytes ++ additions

/-- The peer id and the additional data of a hello. -/
def unmarshalHelloMsg (msg : Bytes) : Except MsgError (PeerID × Bytes) :=
  if msg.length < sizeOfProtoHeader + headerSizeHello then .error .invalidMessageLength
  else if slice msg sizeOfProtoHeader (sizeOfProtoHeader + sizeOfMagicByte) ≠ magicHeader then
    .error .invalidMagicHeader
  else
    .ok (ofBytes
      (slice msg (sizeOfProtoHeader + sizeOfMagicByte) (sizeOfProtoHeader + headerSizeHello)),
      -- the offset does not count the protocol header
      msg.drop headerSizeHello)

/-- A hello, with its header in front. -/
theorem marshalHelloMsg_eq (id : PeerID) (x : Bytes) : marshalHelloMsg id x =
    (protoHeader msgTypeHello ++ magicHeader) ++ (id.bytes ++ x) := append_assoc ..

/-- The data comes back behind the last two bytes of the identifier. -/
theorem unmarshalHelloMsg_frame (id : PeerID) (x : Bytes) :
    unmarshalHelloMsg (marshalHelloMsg id x) = .ok (id, id.bytes.drop 34 ++ x) := by
  have hlen : id.bytes.length = 36 := id.size
  rw [marshalHelloMsg_eq, unmarshalHelloMsg, if_neg, if_neg,
    slice_append (i := sizeOfProtoHeader + sizeOfMagicByte) rfl (by rw [hlen]; rfl),
    ofBytes_bytes]
  · show Except.ok (id, (id.bytes ++ x).drop 34) = _
    rw [drop_append_of_le_length (by omega)]
  · exact fun h => h rfl
  · simp [headerSizeHello, peerIDSize, hlen]

/-- **The data of a hello message never comes back unchanged.** -/
theorem hello_changed (id : PeerID) (data : Bytes) :
    unmarshalHelloMsg (marshalHelloMsg id data) ≠ .ok (id, data) := by
  rw [unmarshalHelloMsg_frame]
  intro h
  have hlen := congrArg length (Prod.mk.inj (Except.ok.inj h)).2
  rw [length_append, length_drop, id.size] at hlen
  exact absurd hlen (by simp [peerIDSize])

/-- A hello of which two bytes of the peer id are read as data. -/
theorem hello_with_trailing_identifier :
    unmarshalHelloMsg (marshalHelloMsg (.ofBytes []) [7]) = .ok (.ofBytes [], [0, 0, 7]) := by
  decide +kernel

/-! ## Lists of peers -/

/-- The size of the largest message. -/
def maxMessageSize : ℕ := 8820
/-- How many peer ids fit into a message. -/
def maxPeersPerMessage : ℕ := (maxMessageSize - sizeOfProtoHeader) / peerIDSize

/-- The errors of lists of peer ids. -/
inductive PeerListError where
  | noList
  | invalidFormat
  | invalidListSize (size : ℕ)

/-- The text of an error. -/
def PeerListError.error : PeerListError → Bytes
  | .noList => ascii "no list of peer ids provided"
  | .invalidFormat => ascii "invalid message format"
  | .invalidListSize n => ascii "invalid peer list size: " ++ formatUint n

/-- The message of one chunk. -/
def marshalChunk (msgType : UInt8) (chunk : List PeerID) : Bytes :=
  let buf := make (sizeOfProtoHeader + chunk.length * peerIDSize)
  let buf := buf.set 0 currentProtocolVersion
  let buf := buf.set 1 msgType
  (chunk.foldl (fun (buf, offset) id => (copyAt buf offset id.bytes, offset + peerIDSize))
    (buf, sizeOfProtoHeader)).1

/-- The loop of `marshalPeerIDs` from an index on. -/
def marshalFrom (ids : List PeerID) (msgType : UInt8) (i : ℕ) : List Bytes :=
  if i < ids.length then
    let stop := if i + maxPeersPerMessage > ids.length then ids.length else i + maxPeersPerMessage
    let chunk := (ids.take stop).drop i
    marshalChunk msgType chunk :: marshalFrom ids msgType (i + maxPeersPerMessage)
  else []
termination_by ids.length - i
decreasing_by exact Nat.sub_lt_sub_left ‹_› (Nat.lt_add_of_pos_right (by decide))

/-- The messages that carry a list of peer ids. -/
def marshalPeerIDs (ids : List PeerID) (msgType : UInt8) : Except PeerListError (List Bytes) :=
  if ids.length = 0 then .error .noList else .ok (marshalFrom ids msgType 0)

/-- The loop of `unmarshalPeerIDs`. -/
def readIDs (buf : Bytes) : ℕ → ℕ → List PeerID
  | 0, _ => []
  | n + 1, offset =>
    ofBytes (slice buf offset (offset + peerIDSize)) :: readIDs buf n (offset + peerIDSize)

/-- The peer ids that a message carries. -/
def unmarshalPeerIDs (buf : Bytes) : Except PeerListError (List PeerID) :=
  if buf.length < sizeOfProtoHeader then .error .invalidFormat
  else if (buf.length - sizeOfProtoHeader) % peerIDSize ≠ 0 then
    .error (.invalidListSize (buf.length - sizeOfProtoHeader))
  else .ok (readIDs buf ((buf.length - sizeOfProtoHeader) / peerIDSize) sizeOfProtoHeader)

variable (t : UInt8) (chunk ids : List PeerID)

/-- The loop of `marshalPeerIDs` copies the ids one after the other. -/
theorem foldl_copyAt (l : Bytes) :
    chunk.foldl (fun (buf, offset) id => (copyAt buf offset id.bytes, offset + peerIDSize))
      (l ++ make (chunk.length * peerIDSize), l.length) =
    (l ++ chunk.flatMap bytes, (l ++ chunk.flatMap bytes).length) := by
  induction chunk generalizing l with
  | nil => simp [make]
  | cons id chunk ih =>
    have hsize : (chunk.length + 1) * peerIDSize = id.bytes.length + chunk.length * peerIDSize := by
      rw [id.size]
      ring
    rw [foldl_cons, length_cons, hsize]
    dsimp only
    rw [copyAt_fill rfl, ← id.size, ← length_append, id.size, ih, flatMap_cons, append_assoc]

/-- A message is its header and its ids. -/
theorem marshalChunk_eq :
    marshalChunk t chunk = protoHeader t ++ chunk.flatMap bytes := by
  rw [marshalChunk]
  rw [set_header]
  exact congrArg Prod.fst (foldl_copyAt chunk (protoHeader t))

/-- The size of the ids of a message. -/
theorem length_flatMap_bytes : (chunk.flatMap bytes).length = chunk.length * peerIDSize := by
  induction chunk with
  | nil => simp
  | cons id chunk ih => rw [flatMap_cons, length_append, ih, id.size, length_cons]; ring

/-- The ids are read back behind any header. -/
theorem readIDs_append (l : Bytes) :
    readIDs (l ++ chunk.flatMap bytes) chunk.length l.length = chunk := by
  induction chunk generalizing l with
  | nil => rfl
  | cons id chunk ih =>
    rw [flatMap_cons, length_cons, readIDs, slice_append rfl (by rw [id.size]),
      ofBytes_bytes, ← append_assoc, ← id.size, ← length_append, ih]

/-- A message is read back. -/
theorem unmarshalPeerIDs_marshalChunk : unmarshalPeerIDs (marshalChunk t chunk) = .ok chunk := by
  have hpos : 0 < peerIDSize := by decide
  rw [marshalChunk_eq, unmarshalPeerIDs, length_append, length_protoHeader, Nat.add_sub_cancel_left,
    length_flatMap_bytes, if_neg (by omega), if_neg (by simp), Nat.mul_div_cancel _ hpos]
  exact congrArg _ (readIDs_append chunk (protoHeader t))

/-- What the loop sends from an index on are the peers from there on. -/
theorem marshalFrom_spec (i : ℕ) :
    (∀ m ∈ marshalFrom ids t i, sizeOfProtoHeader < m.length ∧ m.length ≤ maxMessageSize) ∧
    ∃ lists, (marshalFrom ids t i).mapM unmarshalPeerIDs = .ok lists ∧
      lists.flatten = ids.drop i := by
  fun_induction marshalFrom ids t i with
  | case2 i hi => exact ⟨by simp, [], rfl, (drop_eq_nil_of_le (by omega)).symm⟩
  | case1 i hi stop chunk ih =>
    obtain ⟨hsize, lists, hlists, hflat⟩ := ih
    have hmax : maxPeersPerMessage = 244 := by decide
    have hchunk : chunk = (ids.drop i).take maxPeersPerMessage := by
      have htake : ids.take stop = ids.take (i + maxPeersPerMessage) := by
        unfold stop
        split
        · rw [take_length, take_of_length_le (by omega)]
        · rfl
      rw [show chunk = (ids.take stop).drop i from rfl, htake, drop_take, Nat.add_sub_cancel_left]
    have hlen : chunk.length = min maxPeersPerMessage (ids.length - i) := by
      rw [hchunk, length_take, length_drop]
    refine ⟨fun m hm => ?_, chunk :: lists, ?_, ?_⟩
    · obtain rfl | hm := mem_cons.mp hm
      · rw [marshalChunk_eq, length_append, length_protoHeader, length_flatMap_bytes, hlen]
        simp only [sizeOfProtoHeader, peerIDSize, maxMessageSize]
        omega
      · exact hsize m hm
    · rw [mapM_cons, unmarshalPeerIDs_marshalChunk, hlists]
      rfl
    · rw [flatten_cons, hflat, hchunk, ← drop_drop, take_append_drop]

/-- **Lists of peers survive the chunking.** -/
theorem peerIDs_survive_chunking :
    ((∃ e, marshalPeerIDs ids t = .error e) ↔ ids = []) ∧
    ∀ messages, marshalPeerIDs ids t = .ok messages →
      (∀ m ∈ messages, m ≠ [] ∧ m.length ≤ maxMessageSize) ∧
      ∃ lists, messages.mapM unmarshalPeerIDs = .ok lists ∧ lists.flatten = ids := by
  constructor
  · unfold marshalPeerIDs
    split
    · rename_i h
      exact ⟨fun _ => length_eq_zero_iff.mp h, fun _ => ⟨_, rfl⟩⟩
    · rename_i h
      exact iff_of_false (by rintro ⟨e, ⟨⟩⟩) (h <| length_eq_zero_iff.mpr ·)
  · intro messages h
    unfold marshalPeerIDs at h
    split at h
    · cases h
    · obtain rfl := Except.ok.inj h
      obtain ⟨hsize, hlists⟩ := marshalFrom_spec t ids 0
      refine ⟨fun m hm => ⟨?_, (hsize m hm).2⟩, hlists⟩
      rintro rfl
      exact absurd (hsize [] hm).1 (by decide)

end RelayMessages
