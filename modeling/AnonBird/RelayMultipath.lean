/-
# The multipath relay connection

Model of `client/internal/peer/relay_multipath_conn.go`.  A connection spreads the WireGuard
messages of one peer over several relay channels.  Each plaintext packet leaves the channel chosen
for its flow in a queue of hints, and each WireGuard data message takes one hint.  A channel that
fails a read or a write is skipped from then on.

The channels `done` and `closed` of the source are set together, so one flag stands for both.  The
result of the one `conn.Write` inside a call of `Write` is an argument.
-/
import AnonBird.GoMap
import AnonBird.FlowKey

open GoStrings NetIP Multipath

namespace RelayMultipath

export GoMap (get)

/-- How many hints wait. -/
def relayMultipathHintQueueSize : ℕ := 256
/-- How many packets wait. -/
def relayMultipathReadQueueSize : ℕ := 64

/-- A relay channel as it is handed to the constructor. -/
structure RelayChannel (Conn : Type) where
  id : UInt32
  conn : Conn

/-- The state of a `relayMultipathConn`. -/
structure State (Conn Err : Type) where
  channels : List (UInt32 × Conn)
  selectorChannels : List Channel
  selectorIDToChannel : List (Bytes × UInt32)
  allowedIPs : List Prefix
  primaryChannelID : UInt32
  hintCh : List UInt32
  readCh : List (Except Err Bytes)
  closed : Bool
  observing : Bool
  readErr : Option Err
  closedConns : List Conn

variable {Conn Err : Type}

/-- `strconv.FormatUint(uint64(channelID), 10)`, the name of a channel for the selector. -/
def selectorID (channelID : UInt32) : Bytes := formatUint channelID.toNat

theorem selectorID_injective : Function.Injective selectorID := by
  intro a b h
  exact UInt32.toNat_inj.mp (formatUint_injective h)

/-- `newRelayMultipathConn`: all channels start healthy, the first one is primary. -/
def newRelayMultipathConn (channels : List (RelayChannel Conn)) (allowedIPs : List Prefix) :
    State Conn Err where
  channels := GoMap.build RelayChannel.id RelayChannel.conn channels
  selectorChannels := channels.map fun ch => ⟨selectorID ch.id, true⟩
  selectorIDToChannel := GoMap.build (fun ch => selectorID ch.id) RelayChannel.id channels
  allowedIPs := allowedIPs
  primaryChannelID := (channels.head?.map RelayChannel.id).getD 0
  hintCh := []
  readCh := []
  closed := false
  observing := true
  readErr := none
  closedConns := []

/-! ## Observing packets -/

/-- `isWireGuardDataPacket`: the message type field is 4. -/
def isWireGuardDataPacket (packet : Bytes) : Bool :=
  4 ≤ packet.length && byteAt packet 0 = 4 && byteAt packet 1 = 0 && byteAt packet 2 = 0 &&
    byteAt packet 3 = 0

variable (c : State Conn Err)

/-- A destination is in an allowed network. -/
def State.matchesAllowedDestination (dst : Addr) : Bool :=
  c.allowedIPs.any fun p => p.contains dst.unmap

/-- `enqueueHint`: a full queue loses its oldest hint. -/
def State.enqueueHint (channelID : UInt32) : State Conn Err :=
  if c.hintCh.length < relayMultipathHintQueueSize then
    { c with hintCh := c.hintCh ++ [channelID] }
  else { c with hintCh := c.hintCh.tail ++ [channelID] }

/-- The channel that the selector picks for a packet, when the packet is classified,
is destined to the peer and some channel is healthy. -/
def State.hintFor (data : Bytes) : Option UInt32 :=
  match classifyPacketInfo data with
  | .error _ => none
  | .ok info =>
    if !c.matchesAllowedDestination info.destination then none
    else
      match selectChannel info.flow c.selectorChannels with
      | .error _ => none
      | .ok selected => get c.selectorIDToChannel selected.id

/-- A packet to be sent leaves a hint for its channel. -/
def State.observePacket (data : Bytes) (outbound : Bool) : State Conn Err :=
  if !outbound || c.closed then c
  else
    match c.hintFor data with
    | none => c
    | some channelID => c.enqueueHint channelID

/-! ## Failure and closing -/

/-- `Close`: the body of `closeOnce`. -/
def State.close : State Conn Err :=
  if c.closed then c
  else
    { c with
      closed := true
      observing := false
      closedConns := c.closedConns ++ c.channels.map Prod.snd }

/-- `fail`: record the first error, offer it to a reader, and close. -/
def State.fail (err : Err) : State Conn Err :=
  State.close
    { c with
      readErr := c.readErr.or (some err)
      -- a full queue drops the error; a reader then finds it in `readErr`
      readCh := if c.readCh.length < relayMultipathReadQueueSize
        then c.readCh ++ [.error err] else c.readCh }

/-- The first loop of `markChannelUnhealthy`: it stops at the first match. -/
def markUnhealthy (id : Bytes) : List Channel → List Channel
  | [] => []
  | ch :: rest =>
    if ch.id = id then { ch with healthy := false } :: rest else ch :: markUnhealthy id rest

/-- `markChannelUnhealthy`: close the channel, and the connection with the last one. -/
def State.markChannelUnhealthy (channelID : UInt32) (err : Err) : State Conn Err :=
  let selectorChannels := markUnhealthy (selectorID channelID) c.selectorChannels
  let remaining := selectorChannels.countP (·.healthy)
  let c := { c with
    selectorChannels := selectorChannels
    closedConns := c.closedConns ++ (get c.channels channelID).toList }
  if remaining = 0 then c.fail err else c

/-! ## Reading and writing -/

/-- The error path of `readFrom`, the goroutine that reads one channel. -/
def State.readError (channelID : UInt32) (err : Err) : State Conn Err :=
  if c.closed then c else c.markChannelUnhealthy channelID err

/-- The delivery of `readFrom`; it waits while the queue is full and the connection open. -/
def State.deliver (payload : Bytes) : State Conn Err :=
  if c.closed || relayMultipathReadQueueSize ≤ c.readCh.length then c
  else { c with readCh := c.readCh ++ [.ok payload] }

/-- `channelHealthyLocked`: the flag of the first channel of that name. -/
def State.channelHealthyLocked (channelID : UInt32) : Bool :=
  match c.selectorChannels.find? (·.id = selectorID channelID) with
  | some channel => channel.healthy
  | none => false

/-- A channel with its connection, when it is healthy and known. -/
def State.usable (channelID : UInt32) : Option (Conn × UInt32) :=
  if c.channelHealthyLocked channelID then
    (get c.channels channelID).map fun conn => (conn, channelID)
  else none

/-- The last loop of `connForWrite`: the first healthy channel with a connection. -/
def State.firstUsable (c : State Conn Err) : List Channel → Option (Conn × UInt32)
  | [] => none
  | channel :: rest =>
    if !channel.healthy then c.firstUsable rest
    else
      match get c.selectorIDToChannel channel.id with
      | none => c.firstUsable rest
      | some channelID =>
        match get c.channels channelID with
        | none => c.firstUsable rest
        | some conn => some (conn, channelID)

/-- `connForWrite`: the preferred channel, else the primary one, else the first healthy. -/
def State.connForWrite (preferred : UInt32) : Option (Conn × UInt32) :=
  ((c.usable preferred).or (c.usable c.primaryChannelID)).or
    (c.firstUsable c.selectorChannels)

/-- What a call of `Write` did: it answered `net.ErrClosed`, or a channel's connection answered with
`err`. -/
inductive WriteResult (Conn Err : Type) where
  | errClosed
  | handed (channelID : UInt32) (conn : Conn) (err : Option Err)

/-- The channel that `Write` asks for and the hints that are left: a data message takes the oldest
hint, everything else the primary channel. -/
def State.takeHint (p : Bytes) : UInt32 × List UInt32 :=
  if isWireGuardDataPacket p then
    match c.hintCh with
    | [] => (c.primaryChannelID, [])
    | hint :: rest => (hint, rest)
  else (c.primaryChannelID, c.hintCh)

/-- `Write`, where `result` is the answer of the underlying connection. -/
def State.write (p : Bytes) (result : Option Err) : State Conn Err × WriteResult Conn Err :=
  if c.closed then (c, .errClosed)
  else
    let preferred := (c.takeHint p).1
    -- the hint is used up even when the message goes to another channel
    let c := { c with hintCh := (c.takeHint p).2 }
    match c.connForWrite preferred with
    | none => (c, .errClosed)
    | some (conn, channelID) =>
      match result with
      | none => (c, .handed channelID conn none)
      | some err => (c.markChannelUnhealthy channelID err, .handed channelID conn (some err))

end RelayMultipath
