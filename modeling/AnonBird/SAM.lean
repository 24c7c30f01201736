/-
# The SAM client: commands and replies

Model of `shared/anonymous/i2psam/sam.go`.  The client sends a command, reads a reply, and takes the
values of the reply from its fields.  A field ends at white space outside of quotes.

The bridge is the environment: a peer has an incoming side, any `Source`, and tells for every write
whether it succeeds.  Deadlines are left out: a timeout is an error of a read or a write.
-/
import AnonBird.GoMap
import AnonBird.GoIO
import AnonBird.HostPort

open GoStrings GoText GoIO

namespace SAM

/-- Where the bridge listens. -/
def defaultAddress : Bytes := ascii "127.0.0.1:7656"
/-- The length of tunnels if none is given. -/
def defaultTunnelLength : ℕ := 1
/-- The number of tunnels if none is given. -/
def defaultTunnelQuantity : ℕ := 3
/-- The longest tunnels. -/
def maxTunnelLength : ℕ := 7
/-- The most tunnels. -/
def maxTunnelQuantity : ℕ := 16

/-- The errors of the client, with what their texts mention. -/
inductive Error where
  /-- `dial i2p SAM bridge %s: %w` -/
  | dial (address : Bytes)
  /-- `send i2p SAM command: %w` -/
  | sendCommand
  /-- `read i2p SAM reply: %w` -/
  | readReply
  /-- `i2p SAM result %s: %s` -/
  | result (result message : Bytes)
  /-- `i2p SAM hello: %w` -/
  | hello (cause : Error)
  /-- `create i2p SAM stream session: %w` -/
  | createStream (cause : Error)
  /-- `connect i2p SAM stream to %s: %w` -/
  | connect (address : Bytes) (cause : Error)
  /-- `create i2p SAM %s datagram session: %w` -/
  | createDatagram (style : Bytes) (cause : Error)
  /-- `dial i2p SAM UDP bridge %s: %w` -/
  | dialUDP (address : Bytes)
  /-- `generate i2p SAM session id: %w` -/
  | sessionID
  /-- `i2p SAM lookup name is empty` -/
  | lookupNameEmpty
  /-- `i2p SAM naming lookup for %q returned empty destination` -/
  | lookupEmpty (name : Bytes)
  /-- `i2p SAM destination is empty` -/
  | destinationEmpty
  /-- `invalid i2p SAM destination port %q: %w` -/
  | invalidPort (port : Bytes)
  /-- `parse i2p SAM destination %q: %w` -/
  | parseDestination (address : Bytes) (cause : HostPort.AddrError)
  /-- `i2p SAM tunnel length %d is out of range 0..%d` -/
  | tunnelLength (length max : ℕ)
  /-- `i2p SAM tunnel quantity %d is out of range 1..%d` -/
  | tunnelQuantity (quantity max : ℕ)
  /-- `i2p SAM datagram destination is empty` -/
  | datagramDestinationEmpty
  /-- `i2p SAM datagram payload is empty` -/
  | payloadEmpty
  /-- `i2p SAM %s datagram payload is %d bytes, max %d` -/
  | payloadTooLong (style : Bytes) (length max : ℕ)
  /-- `i2p SAM raw datagram protocol %d is reserved and not allowed` -/
  | reservedProtocol (protocol : UInt8)
  /-- `i2p SAM datagram session id is empty` -/
  | sessionIDEmpty
  /-- `unsupported i2p SAM datagram style %q` -/
  | unsupportedStyle (style : Bytes)
  /-- `i2p SAM UDP address is empty` -/
  | udpAddressEmpty
  /-- `i2p SAM reply missing %s: %s` -/
  | missing (key raw : Bytes)
  /-- `parse i2p SAM reply %s=%q: %w` -/
  | parse (key value : Bytes)
  /-- `read i2p SAM datagram payload: %w` -/
  | readPayload
  /-- `send i2p SAM datagram: %w` -/
  | sendDatagram
  deriving DecidableEq

/-! ## Replies -/

/-- The variables of the loop of `splitFields`. -/
structure FieldState where
  fields : List Bytes
  current : Bytes
  quoted : Bool
  escaped : Bool

/-- End the current field, unless it is empty. -/
def FieldState.flush (st : FieldState) : FieldState :=
  if st.current ≠ [] then { st with fields := st.fields ++ [st.current], current := [] } else st

/-- `current.WriteRune`. -/
def FieldState.write (st : FieldState) (r : ℕ) : FieldState :=
  { st with current := st.current ++ encodeRune r }

/-- The body of the loop of `splitFields`. -/
def FieldState.step (st : FieldState) (r : ℕ) : FieldState :=
  if st.escaped then { st.write r with escaped := false }
  else if st.quoted && r = 92 then { st with escaped := true }
  else if r = 34 then { st with quoted := !st.quoted }
  else if isSpace r && !st.quoted then st.flush
  else st.write r

/-- The fields of a line, with blanks in quotes kept. -/
def splitFields (line : Bytes) : List Bytes :=
  ((runes line).foldl FieldState.step ⟨[], [], false, false⟩).flush.fields

/-- A reply of the bridge, as text and as its values. -/
structure Reply where
  raw : Bytes
  values : List (Bytes × Bytes)
  deriving DecidableEq

/-- The body of the loop of `readReply`: a later field overwrites an earlier one. -/
def addField (U : Unicode) (values : List (Bytes × Bytes)) (field : Bytes) :
    List (Bytes × Bytes) :=
  match cut 61 field with
  | some (key, value) => GoMap.set values (toUpper U key) value
  | none => values

/-- The reply on a line. -/
def parseReply (U : Unicode) (line : Bytes) : Reply :=
  let line := trimSpace line
  ⟨line, (splitFields line).foldl (addField U) []⟩

/-- `reply.Values[key]`, which is empty for a missing key. -/
def Reply.value (r : Reply) (key : String) : Bytes := (GoMap.get r.values (ascii key)).getD []

/-- The result of a reply is OK. -/
def Reply.ok (r : Reply) : Except Error Unit :=
  if equalFold (r.value "RESULT") (ascii "OK") then .ok ()
  else
    .error (.result
      (if r.value "RESULT" = [] then ascii "UNKNOWN" else r.value "RESULT")
      (if r.value "MESSAGE" = [] then r.raw else r.value "MESSAGE"))

/-! ## Connections -/

/-- The other end of a connection: what it sends, and which writes to it succeed. -/
structure Peer (σ : Type) where
  src : σ
  writeOK : ℕ → Bool

/-- A connection with the reader on it. -/
structure CommandConn (σ : Type) where
  reader : Bufio σ
  writeOK : ℕ → Bool
  written : List Bytes
  closed : Bool

variable {σ : Type} [Source σ]

/-- `openCommandConn`, after the dial. -/
def openCommandConn (peer : Peer σ) : CommandConn σ := ⟨newReader peer.src, peer.writeOK, [], false⟩

/-- The connection is closed. -/
def CommandConn.close (c : CommandConn σ) : CommandConn σ := { c with closed := true }

/-- A command is written as a line. -/
def sendCommand (c : CommandConn σ) (command : Bytes) : Except Error Unit × CommandConn σ :=
  if c.writeOK c.written.length then (.ok (), { c with written := c.written ++ [command ++ [10]] })
  else (.error .sendCommand, c)

/-- A line is read and parsed. -/
def readReply (U : Unicode) (c : CommandConn σ) : Except Error Reply × CommandConn σ :=
  match c.reader.readString 10 with
  | (some line, r) => (.ok (parseReply U line), { c with reader := r })
  | (none, r) => (.error .readReply, { c with reader := r })

/-- A command with its reply. -/
def exchange (U : Unicode) (c : CommandConn σ) (command : Bytes) :
    Except Error Reply × CommandConn σ :=
  match sendCommand c command with
  | (.error e, c) => (.error e, c)
  | (.ok _, c) => readReply U c

/-- A command with its reply, which has to be OK. -/
def request (U : Unicode) (c : CommandConn σ) (command : Bytes) (wrap : Error → Error) :
    Except Error Reply × CommandConn σ :=
  match exchange U c command with
  | (.error e, c) => (.error e, c)
  | (.ok reply, c) =>
    match reply.ok with
    | .error e => (.error (wrap e), c)
    | .ok _ => (.ok reply, c)

/-- The command that opens the handshake. -/
def helloCommand : Bytes := ascii "HELLO VERSION MIN=3.0 MAX=3.3"

/-- The handshake. -/
def hello (U : Unicode) (c : CommandConn σ) : Except Error Reply × CommandConn σ :=
  request U c helloCommand .hello

/-- The greeting and one command whose reply has to be OK. -/
def helloThen (U : Unicode) (c : CommandConn σ) (command : Bytes) (wrap : Error → Error) :
    Except Error Reply × CommandConn σ :=
  match hello U c with
  | (.error e, c) => (.error e, c)
  | (.ok _, c) => request U c command wrap

/-! ## Commands -/

/-- One of the options starts so. -/
def hasOptionPrefix (options : List Bytes) (p : String) : Bool :=
  options.any fun option => hasPrefix option (ascii p)

/-- An option that is added when it is not among the given ones. -/
def defaultOption (options : List Bytes) (p : String) (value : ℕ) : Bytes :=
  if hasOptionPrefix options p then [] else [32] ++ ascii p ++ formatUint value

/-- `strings.Join(options, " ")`, with a blank in front. -/
def joinOptions (options : List Bytes) : Bytes :=
  if options = [] then [] else [32] ++ [32].intercalate options

/-- The command that creates a session with a key. -/
def sessionCreateCommandWithDestination (style sessionID destination : Bytes)
    (options : List Bytes) : Bytes :=
  let destination := if trimSpace destination = [] then ascii "TRANSIENT" else destination
  ascii "SESSION CREATE STYLE=" ++ style ++ ascii " ID=" ++ sessionID ++ ascii " DESTINATION=" ++
    destination ++ ascii " SIGNATURE_TYPE=7" ++
    defaultOption options "inbound.length=" defaultTunnelLength ++
    defaultOption options "outbound.length=" defaultTunnelLength ++
    defaultOption options "inbound.quantity=" defaultTunnelQuantity ++
    defaultOption options "outbound.quantity=" defaultTunnelQuantity ++
    joinOptions options

/-- The command that creates a session with a key of its own. -/
def sessionCreateCommand (style sessionID : Bytes) (options : List Bytes) : Bytes :=
  sessionCreateCommandWithDestination style sessionID (ascii "TRANSIENT") options

/-- An option with a number. -/
def numberOption (name : String) (n : ℕ) : Bytes := ascii name ++ formatUint n

/-- The options for the tunnels of a session. -/
def sessionTunnelOptions (tunnelLength tunnelQuantity : UInt8) : List Bytes :=
  let length := if tunnelLength = 0 then defaultTunnelLength else tunnelLength.toNat
  let quantity := if tunnelQuantity = 0 then defaultTunnelQuantity else tunnelQuantity.toNat
  [numberOption "inbound.length=" length, numberOption "outbound.length=" length,
    numberOption "inbound.quantity=" quantity, numberOption "outbound.quantity=" quantity]

/-- The limits on tunnels. -/
def validateTunnelSettings (tunnelLength tunnelQuantity : UInt8) : Except Error Unit :=
  if tunnelLength.toNat > maxTunnelLength then
    .error (.tunnelLength tunnelLength.toNat maxTunnelLength)
  else if tunnelQuantity.toNat > maxTunnelQuantity then
    .error (.tunnelQuantity tunnelQuantity.toNat maxTunnelQuantity)
  else .ok ()

/-- `splitDestination`.  An error of the splitting means that there is no port when its
text says so, and the text quotes the address. -/
def splitDestination (address : Bytes) : Except Error (Bytes × Bytes) :=
  let address := trimSpace address
  if address = [] then .error .destinationEmpty
  else
    match HostPort.splitHostPort address with
    | .ok (host, port) =>
      if port ≠ [] ∧ (parseUint port 16).isNone then .error (.invalidPort port)
      else .ok (trim host (ascii "[]"), port)
    | .error e =>
      -- the text quotes the address, which may itself contain these words
      if contains e.text HostPort.missingPort then .ok (trim address (ascii "[]"), [])
      else .error (.parseDestination address e)

/-- `newSessionID`, where `raw` are the random bytes, if there are any. -/
def newSessionID (raw : Option Bytes) : Except Error Bytes :=
  match raw with
  | none => .error .sessionID
  | some raw => .ok (ascii "anonbird-" ++ hexEncode raw)

/-- The address that the calls without a dialer use. -/
def orDefaultAddress (samAddress : Bytes) : Bytes :=
  if trimSpace samAddress = [] then defaultAddress else samAddress

/-- `Lookup`, with the connection it used. -/
def lookup (U : Unicode) (samAddress name : Bytes) (peer : Option (Peer σ)) :
    Except Error Bytes × Option (CommandConn σ) :=
  let name := trimSpace name
  if name = [] then (.error .lookupNameEmpty, none)
  else
    match peer with
    | none => (.error (.dial (orDefaultAddress samAddress)), none)
    | some peer =>
      match helloThen U (openCommandConn peer) (ascii "NAMING LOOKUP NAME=" ++ name) id with
      | (.error e, c) => (.error e, some c.close)
      | (.ok reply, c) =>
        if trimSpace (reply.value "VALUE") = [] then (.error (.lookupEmpty name), some c.close)
        else (.ok (trimSpace (reply.value "VALUE")), some c.close)

/-! ## What a successful exchange did -/

variable {wrap : Error → Error} {U : Unicode} {c c' : CommandConn σ} {command : Bytes}
  {reply : Reply}

/-- A request succeeds exactly when its command is written and one line with an OK reply
is read. -/
theorem request_eq_ok_iff :
    request U c command wrap = (.ok reply, c') ↔
      c.writeOK c.written.length ∧ ∃ line r, c.reader.readString 10 = (some line, r) ∧
        (parseReply U line).ok = .ok () ∧ reply = parseReply U line ∧
        c' = { c with reader := r, written := c.written ++ [command ++ [10]] } := by
  rw [request, exchange, sendCommand]
  by_cases hw : c.writeOK c.written.length
  · rw [if_pos hw]
    dsimp only
    rw [readReply]
    rcases hread : c.reader.readString 10 with ⟨line, r⟩
    cases line with
    | none => simp
    | some line =>
      dsimp only
      cases hok : (parseReply U line).ok with
      | error e => simp [hok]
      | ok u =>
        constructor
        · intro h
          obtain ⟨hreply, rfl⟩ := Prod.mk.inj h
          exact ⟨hw, line, r, rfl, hok, (Except.ok.inj hreply).symm, rfl⟩
        · rintro ⟨_, _, _, ⟨⟩, _, rfl, rfl⟩
          rfl
  · rw [if_neg hw]
    simp [hw]

/-- What the other end does for a greeting and a command to succeed: it takes two writes,
and its first two lines are OK replies. -/
def Peer.Accepts (U : Unicode) (peer : Peer σ) : Prop :=
  peer.writeOK 0 = true ∧ peer.writeOK 1 = true ∧
    ∃ line₁ r₁ line₂ r₂, (newReader peer.src).readString 10 = (some line₁, r₁) ∧
      r₁.readString 10 = (some line₂, r₂) ∧
      (parseReply U line₁).ok = .ok () ∧ (parseReply U line₂).ok = .ok ()

/-- A call that succeeds has written the greeting and its command, one line each, and
read two lines. -/
theorem helloThen_eq_ok (h : helloThen U c command wrap = (.ok reply, c')) :
    ∃ line₁ r₁ line₂ r₂, c.reader.readString 10 = (some line₁, r₁) ∧
      r₁.readString 10 = (some line₂, r₂) ∧ reply = parseReply U line₂ ∧ c' = { c with
        reader := r₂, written := c.written ++ [helloCommand ++ [10], command ++ [10]] } := by
  rw [helloThen] at h
  rcases hhello : hello U c with ⟨res, c₁⟩
  rw [hhello] at h
  cases res with
  | error e => simp at h
  | ok first =>
    obtain ⟨_, line₁, r₁, hline₁, _, _, rfl⟩ := request_eq_ok_iff.mp hhello
    obtain ⟨_, line₂, r₂, hline₂, _, hreply, rfl⟩ := request_eq_ok_iff.mp h
    exact ⟨line₁, r₁, line₂, r₂, hline₁, hline₂, hreply, by simp⟩

/-- On a new connection the greeting and a command succeed exactly when the other end
accepts them, whatever the command is. -/
theorem helloThen_isOk_iff {peer : Peer σ} :
    (∃ reply c, helloThen U (openCommandConn peer) command wrap = (.ok reply, c)) ↔
      peer.Accepts U := by
  rw [helloThen]
  constructor
  · rintro ⟨reply, c, h⟩
    rcases hhello : hello U (openCommandConn peer) with ⟨res, c₁⟩
    rw [hhello] at h
    cases res with
    | error e => simp at h
    | ok first =>
      obtain ⟨hw₁, line₁, r₁, hline₁, hok₁, _, rfl⟩ := request_eq_ok_iff.mp hhello
      obtain ⟨hw₂, line₂, r₂, hline₂, hok₂, _, _⟩ := request_eq_ok_iff.mp h
      exact ⟨hw₁, hw₂, line₁, r₁, line₂, r₂, hline₁, hline₂, hok₁, hok₂⟩
  · rintro ⟨hw₁, hw₂, line₁, r₁, line₂, r₂, hline₁, hline₂, hok₁, hok₂⟩
    have hhello : hello U (openCommandConn peer) = (.ok (parseReply U line₁),
        { openCommandConn peer with reader := r₁, written := [helloCommand ++ [10]] }) :=
      request_eq_ok_iff.mpr ⟨hw₁, line₁, r₁, hline₁, hok₁, rfl, rfl⟩
    rw [hhello]
    exact ⟨_, _, request_eq_ok_iff.mpr ⟨hw₂, line₂, r₂, hline₂, hok₂, rfl, rfl⟩⟩

end SAM
