/-
# Datagrams over the SAM bridge

Model of `shared/anonymous/i2psam/datagram.go`.  Datagrams are received on the control connection
as frames: a header line that gives the size, and the payload behind it.  `Receive` checks the size
before it reads the payload, and returns on a failed check without having read it; the payload is
then taken for the next header lines.
-/
import AnonBird.SAM

open GoStrings GoText GoIO List

namespace SAM

/-- The style of datagrams with their source. -/
def datagramStyleRepliable : Bytes := ascii "DATAGRAM"
/-- The style of datagrams without it. -/
def datagramStyleRaw : Bytes := ascii "RAW"
/-- The port of the bridge for datagrams. -/
def defaultSAMUDPPort : Bytes := ascii "7655"
/-- The protocol of raw datagrams if none is given. -/
def defaultRawProtocol : UInt8 := 18
/-- The size of the largest repliable datagram. -/
def maxRepliableDatagramLen : ℕ := 31744
/-- The size of the largest raw datagram. -/
def maxRawDatagramLen : ℕ := 32768

/-! ## Configuration -/

/-- What a session is opened with. -/
structure DatagramConfig where
  samAddress : Bytes
  samUDPAddress : Bytes
  style : Bytes
  sessionID : Bytes
  privateKey : Bytes
  fromPort : UInt16
  toPort : UInt16
  protocol : UInt8
  inboundLength : UInt8
  outboundLength : UInt8
  inboundQuantity : UInt8
  outboundQuantity : UInt8

/-- The protocols that raw sessions may not use. -/
def protocolIsDisallowedForRaw (protocol : UInt8) : Bool := [6, 17, 19, 20].contains protocol

/-- The host of the bridge with the port for datagrams. -/
def defaultSAMUDPAddress (samAddress : Bytes) : Bytes :=
  match HostPort.splitHostPort samAddress with
  | .ok (host, _) =>
    HostPort.joinHostPort (if trimSpace host = [] then ascii "127.0.0.1" else host)
      defaultSAMUDPPort
  | .error _ => HostPort.joinHostPort (ascii "127.0.0.1") defaultSAMUDPPort

/-- A number that has a default. -/
def orDefault (n : UInt8) (default : ℕ) : UInt8 := if n = 0 then UInt8.ofNat default else n

/-- `normalizeDatagramConfig`, with the random bytes for a session id. -/
def normalizeDatagramConfig (U : Unicode) (raw : Option Bytes) (cfg : DatagramConfig) :
    DatagramConfig :=
  let samAddress := orDefaultAddress cfg.samAddress
  let style := toUpper U (trimSpace cfg.style)
  { samAddress
    samUDPAddress :=
      if trimSpace cfg.samUDPAddress = [] then defaultSAMUDPAddress samAddress
      else cfg.samUDPAddress
    style := if style = [] then datagramStyleRaw else style
    sessionID :=
      if trimSpace cfg.sessionID = [] then
        match newSessionID raw with
        | .ok id => id
        | .error _ => cfg.sessionID
      else cfg.sessionID
    privateKey := cfg.privateKey
    fromPort := cfg.fromPort
    toPort := cfg.toPort
    protocol := if cfg.protocol = 0 then defaultRawProtocol else cfg.protocol
    inboundLength := orDefault cfg.inboundLength defaultTunnelLength
    outboundLength := orDefault cfg.outboundLength defaultTunnelLength
    inboundQuantity := orDefault cfg.inboundQuantity defaultTunnelQuantity
    outboundQuantity := orDefault cfg.outboundQuantity defaultTunnelQuantity }

/-- The checks on a configuration. -/
def validateDatagramConfig (cfg : DatagramConfig) : Except Error Unit := do
  if trimSpace cfg.sessionID = [] then throw .sessionIDEmpty
  if cfg.style ≠ datagramStyleRepliable ∧ cfg.style ≠ datagramStyleRaw then
    throw (.unsupportedStyle cfg.style)
  if cfg.style = datagramStyleRaw ∧ protocolIsDisallowedForRaw cfg.protocol then
    throw (.reservedProtocol cfg.protocol)
  validateTunnelSettings cfg.inboundLength cfg.inboundQuantity
  validateTunnelSettings cfg.outboundLength cfg.outboundQuantity
  if trimSpace cfg.samUDPAddress = [] then throw .udpAddressEmpty

/-- An option for a port or protocol, which is left out when it is zero. -/
def nonzeroOption (name : String) (n : ℕ) : List Bytes :=
  if n = 0 then [] else [numberOption name n]

/-- The options of a datagram session. -/
def datagramOptions (cfg : DatagramConfig) : List Bytes :=
  [numberOption "inbound.length=" cfg.inboundLength.toNat,
    numberOption "outbound.length=" cfg.outboundLength.toNat,
    numberOption "inbound.quantity=" cfg.inboundQuantity.toNat,
    numberOption "outbound.quantity=" cfg.outboundQuantity.toNat] ++
  nonzeroOption "FROM_PORT=" cfg.fromPort.toNat ++ nonzeroOption "TO_PORT=" cfg.toPort.toNat ++
  (if cfg.style = datagramStyleRaw then nonzeroOption "PROTOCOL=" cfg.protocol.toNat else [])

/-- The command that creates the session. -/
def datagramSessionCreateCommand (cfg : DatagramConfig) : Bytes :=
  let destination := trimSpace cfg.privateKey
  sessionCreateCommandWithDestination cfg.style cfg.sessionID
    (if destination = [] then ascii "TRANSIENT" else destination) (datagramOptions cfg)

/-! ## Sessions -/

/-- The UDP connection to the bridge: which writes succeed, and what was written. -/
structure UDPConn where
  writeOK : ℕ → Bool
  written : List Bytes
  closed : Bool

/-- An open session. -/
structure DatagramSession (σ : Type) where
  id : Bytes
  style : Bytes
  control : CommandConn σ
  udp : UDPConn

section Session

variable {σ : Type} [Source σ]

/-- `NewDatagramSession`, with the answers to its two dials.  The second component is the
control connection, if it was opened. -/
def newDatagramSession (U : Unicode) (raw : Option Bytes) (cfg : DatagramConfig)
    (peer : Option (Peer σ)) (udpPeer : Option (ℕ → Bool)) :
    Except Error (DatagramSession σ) × Option (CommandConn σ) :=
  let cfg := normalizeDatagramConfig U raw cfg
  match validateDatagramConfig cfg with
  | .error e => (.error e, none)
  | .ok _ =>
    match peer with
    | none => (.error (.dial cfg.samAddress), none)
    | some peer =>
      match helloThen U (openCommandConn peer) (datagramSessionCreateCommand cfg)
          (.createDatagram cfg.style) with
      | (.error e, control) => (.error e, some control.close)
      | (.ok _, control) =>
        match udpPeer with
        | none => (.error (.dialUDP cfg.samUDPAddress), some control.close)
        | some writeOK =>
          (.ok ⟨cfg.sessionID, cfg.style, control, ⟨writeOK, [], false⟩⟩, some control)

/-- The largest payload of a style. -/
def payloadLimit (style : Bytes) : ℕ :=
  if style = datagramStyleRaw then maxRawDatagramLen else maxRepliableDatagramLen

/-- The limits on a payload. -/
def validateDatagramPayload (style : Bytes) (length : ℕ) : Except Error Unit :=
  if length < 1 then .error .payloadEmpty
  else if length > payloadLimit style then
    .error (.payloadTooLong style length (payloadLimit style))
  else .ok ()

/-- The ports and the protocol of a datagram to send. -/
structure SendOptions where
  fromPort : UInt16
  toPort : UInt16
  protocol : UInt8

/-- A field of the header of a sent datagram, which is left out when it is zero. -/
def headerOption (name : String) (n : ℕ) : Bytes :=
  if n = 0 then [] else [32] ++ numberOption name n

/-- The header line that `Send` builds. -/
def sendHeader (style id destination : Bytes) (opts : SendOptions) : Bytes :=
  ascii "3.0 " ++ id ++ [32] ++ destination ++ headerOption "FROM_PORT=" opts.fromPort.toNat ++
    headerOption "TO_PORT=" opts.toPort.toNat ++
    (if style = datagramStyleRaw then
      [32] ++ numberOption "PROTOCOL="
        (if opts.protocol = 0 then defaultRawProtocol else opts.protocol).toNat
    else [])

/-- A datagram is sent through the bridge. -/
def DatagramSession.send (s : DatagramSession σ) (destination payload : Bytes)
    (opts : SendOptions) : Except Error Unit × DatagramSession σ :=
  let destination := trimSpace destination
  if destination = [] then (.error .datagramDestinationEmpty, s)
  else
    match validateDatagramPayload s.style payload.length with
    | .error e => (.error e, s)
    | .ok _ =>
      if s.style = datagramStyleRaw ∧ opts.protocol ≠ 0 ∧
          protocolIsDisallowedForRaw opts.protocol then
        (.error (.reservedProtocol opts.protocol), s)
      else
        let packet := sendHeader s.style s.id destination opts ++ [10] ++ payload
        if s.udp.writeOK s.udp.written.length then
          (.ok (), { s with udp := { s.udp with written := s.udp.written ++ [packet] } })
        else (.error .sendDatagram, s)

/-- A received datagram. -/
structure Datagram where
  source : Bytes
  payload : Bytes
  fromPort : UInt16
  toPort : UInt16
  protocol : UInt8
  anonymousRaw : Bool
  deriving DecidableEq

/-- A number of a reply. -/
def parseReplyUint16 (reply : Reply) (key : String) : Except Error UInt16 :=
  let value := trimSpace (reply.value key)
  if value = [] then .error (.missing (ascii key) reply.raw)
  else
    match parseUint value 16 with
    | none => .error (.parse (ascii key) value)
    | some n => .ok (UInt16.ofNat n)

/-- A port of a reply, zero if there is none. -/
def parseOptionalPort (reply : Reply) (key : String) : UInt16 :=
  match parseReplyUint16 reply key with
  | .error _ => 0
  | .ok port => port

/-- The protocol of a reply, zero if there is none. -/
def parseOptionalProtocol (reply : Reply) : UInt8 :=
  match parseUint (trimSpace (reply.value "PROTOCOL")) 8 with
  | none => 0
  | some n => UInt8.ofNat n

/-- The datagram of a header, with its payload. -/
def datagramOf (U : Unicode) (reply : Reply) (payload : Bytes) : Datagram :=
  let raw := toUpper U reply.raw
  { source := reply.value "DESTINATION"
    payload
    fromPort := parseOptionalPort reply "FROM_PORT"
    toPort := parseOptionalPort reply "TO_PORT"
    protocol := parseOptionalProtocol reply
    anonymousRaw :=
      if hasPrefix raw (ascii "DATAGRAM RECEIVED") then false
      else hasPrefix raw (ascii "RAW RECEIVED") }

/-- `DatagramSession.Receive`.  The payload is read only when its size was accepted. -/
def DatagramSession.receive (U : Unicode) (s : DatagramSession σ) :
    Except Error Datagram × DatagramSession σ :=
  match readReply U s.control with
  | (.error e, control) => (.error e, { s with control })
  | (.ok reply, control) =>
    match parseReplyUint16 reply "SIZE" with
    | .error e => (.error e, { s with control })
    | .ok size =>
      match validateDatagramPayload s.style size.toNat with
      -- the payload stays in the stream
      | .error e => (.error e, { s with control })
      | .ok _ =>
        match control.reader.readFull size.toNat with
        | (none, reader) => (.error .readPayload, { s with control := { control with reader } })
        | (some payload, reader) =>
          (.ok (datagramOf U reply payload), { s with control := { control with reader } })

/-- Repeated calls of `Receive`, with their results. -/
def DatagramSession.receiveMany (U : Unicode) :
    ℕ → DatagramSession σ → List (Except Error Datagram) × DatagramSession σ
  | 0, s => ([], s)
  | n + 1, s =>
    let (result, s) := s.receive U
    let (results, s) := s.receiveMany U n
    (result :: results, s)

end Session

/-! ## Frames -/

/-- A frame on the control connection. -/
structure Frame where
  header : Bytes
  payload : Bytes

/-- The header is one line, and its SIZE is the length of the payload. -/
def Frame.WellFormed (U : Unicode) (f : Frame) : Prop :=
  10 ∉ f.header ∧ ∃ size, parseReplyUint16 (parseReply U (f.header ++ [10])) "SIZE" = .ok size ∧
    size.toNat = f.payload.length

/-- A frame on the wire. -/
def Frame.bytes (f : Frame) : Bytes := f.header ++ 10 :: f.payload

/-- Frames on the wire. -/
def wire (frames : List Frame) : Bytes := frames.flatMap Frame.bytes

/-- The result for a frame: its payload and destination, or the error of its own size. -/
def Frame.Answer (U : Unicode) (style : Bytes) (f : Frame) : Except Error Datagram → Prop
  | .ok d => d.payload = f.payload ∧
      d.source = (parseReply U (f.header ++ [10])).value "DESTINATION"
  | .error e => validateDatagramPayload style f.payload.length = .error e

open DatagramSession

section Framing

variable {σ : Type} [LawfulSource σ]

/-- What is still to be read on the control connection. -/
def DatagramSession.incoming (s : DatagramSession σ) : Bytes := s.control.reader.contents

/-- After every number of calls the results are those of the frames so far, in order, and
the session is at the start of the next frame. -/
def InStep (U : Unicode) (s : DatagramSession σ) (frames : List Frame) (rest : Bytes) : Prop :=
  ∀ k ≤ frames.length,
    List.Forall₂ (Frame.Answer U s.style) (frames.take k) (s.receiveMany U k).1 ∧
    (s.receiveMany U k).2.incoming = wire (frames.drop k) ++ rest

variable {U : Unicode} {s : DatagramSession σ} {rest : Bytes} {f : Frame}

/-- The line of a header is read, and the payload is left behind it. -/
theorem readHeader (hline : 10 ∉ f.header) (hin : s.incoming = f.bytes ++ rest) :
    ∃ r, s.control.reader.readString 10 = (some (f.header ++ [10]), r) ∧
      r.contents = f.payload ++ rest := by
  have hcont : s.control.reader.contents = f.header ++ 10 :: (f.payload ++ rest) := by
    rw [show s.control.reader.contents = f.bytes ++ rest from hin, Frame.bytes]
    simp
  exact readString_spec hline hcont

/-- A header that was accepted: the payload behind it is read, whatever it contains. -/
theorem receive_accepted (hf : f.WellFormed U)
    (hvalid : validateDatagramPayload s.style f.payload.length = .ok ())
    (hin : s.incoming = f.bytes ++ rest) : ∃ control, s.receive U =
        (.ok (datagramOf U (parseReply U (f.header ++ [10])) f.payload), { s with control }) ∧
      control.reader.contents = rest := by
  obtain ⟨r₁, hread, hpayload⟩ := readHeader hf.1 hin
  obtain ⟨-, size, hsize, hlen⟩ := hf
  obtain ⟨r₂, hfull, hrest⟩ := readFull_spec hpayload
  refine ⟨{ s.control with reader := r₂ }, ?_, hrest⟩
  rw [receive, readReply, hread]
  dsimp only
  rw [hsize]
  dsimp only
  rw [hlen, hvalid]
  rw [hfull]

/-- A header that was rejected: the payload behind it is left in the stream. -/
theorem receive_rejected {e : Error} (hf : f.WellFormed U)
    (hvalid : validateDatagramPayload s.style f.payload.length = .error e)
    (hin : s.incoming = f.bytes ++ rest) : ∃ control, s.receive U = (.error e, { s with control }) ∧
      control.reader.contents = f.payload ++ rest := by
  obtain ⟨r₁, hread, hpayload⟩ := readHeader hf.1 hin
  obtain ⟨-, size, hsize, hlen⟩ := hf
  refine ⟨{ s.control with reader := r₁ }, ?_, hpayload⟩
  rw [receive, readReply, hread]
  dsimp only
  rw [hsize]
  dsimp only
  rw [hlen, hvalid]

/-- The check of a size, by its three outcomes. -/
theorem validateDatagramPayload_cases (style : Bytes) (length : ℕ) :
    (length = 0 ∧ validateDatagramPayload style length = .error .payloadEmpty) ∨
    (payloadLimit style < length ∧ validateDatagramPayload style length =
      .error (.payloadTooLong style length (payloadLimit style))) ∨
    (length ≤ payloadLimit style ∧ validateDatagramPayload style length = .ok ()) := by
  rw [validateDatagramPayload]
  split_ifs with hzero hlong
  · exact .inl ⟨by omega, rfl⟩
  · exact .inr (.inl ⟨hlong, rfl⟩)
  · exact .inr (.inr ⟨by omega, rfl⟩)

/-- One frame within the limit: its result, and the session at the next frame. -/
theorem receive_frame (hf : f.WellFormed U)
    (hlimit : f.payload.length ≤ payloadLimit s.style) (hin : s.incoming = f.bytes ++ rest) :
    f.Answer U s.style (s.receive U).1 ∧ (s.receive U).2.incoming = rest := by
  rcases validateDatagramPayload_cases s.style f.payload.length with
    ⟨hzero, hvalid⟩ | ⟨hlong, _⟩ | ⟨_, hvalid⟩
  · obtain ⟨control, hrecv, hcont⟩ := receive_rejected hf hvalid hin
    rw [hrecv]
    refine ⟨hvalid, ?_⟩
    rw [length_eq_zero_iff.mp hzero, nil_append] at hcont
    exact hcont
  · omega
  · obtain ⟨control, hrecv, hcont⟩ := receive_accepted hf hvalid hin
    rw [hrecv]
    exact ⟨⟨rfl, rfl⟩, hcont⟩

theorem receive_style (U : Unicode) (s : DatagramSession σ) : (s.receive U).2.style = s.style := by
  rw [receive]
  repeat' split
  all_goals rfl

theorem receiveMany_frames (frames : List Frame) :
    ∀ (s : DatagramSession σ), (∀ f ∈ frames, f.WellFormed U) →
      (∀ f ∈ frames, f.payload.length ≤ payloadLimit s.style) → s.incoming = wire frames ++ rest →
      List.Forall₂ (Frame.Answer U s.style) frames (s.receiveMany U frames.length).1 ∧
        (s.receiveMany U frames.length).2.incoming = rest := by
  induction frames with
  | nil =>
    intro s _ _ hin
    exact ⟨.nil, hin⟩
  | cons f frames ih =>
    intro s hwf hlimit hin
    have hin' : s.incoming = f.bytes ++ (wire frames ++ rest) := by
      rw [hin, wire, flatMap_cons, append_assoc]
      rfl
    have hstyle := receive_style U s
    rw [forall_mem_cons] at hwf hlimit
    obtain ⟨hanswer, hnext⟩ := receive_frame hwf.1 hlimit.1 hin'
    have htail := ih (s.receive U).2 hwf.2
    rw [hstyle] at htail
    obtain ⟨hanswers, hrest⟩ := htail hlimit.2 hnext
    exact ⟨.cons hanswer hanswers, hrest⟩

theorem receiveMany_style (U : Unicode) (n : ℕ) (s : DatagramSession σ) :
    (s.receiveMany U n).2.style = s.style := by
  induction n generalizing s with
  | zero => rfl
  | succ n ih =>
    show ((s.receive U).2.receiveMany U n).2.style = s.style
    rw [ih, receive_style]

/-- The last of several calls is a call in the state that the others have left. -/
theorem receiveMany_succ_state (U : Unicode) (n : ℕ) (s : DatagramSession σ) :
    (s.receiveMany U (n + 1)).2 = ((s.receiveMany U n).2.receive U).2 := by
  induction n generalizing s with
  | zero => rfl
  | succ n ih =>
    show ((s.receive U).2.receiveMany U (n + 1)).2 =
      (((s.receive U).2.receiveMany U n).2.receive U).2
    rw [ih]

/-- **Framing.** On well-formed frames, however the bytes arrive, the session is in step exactly
when none of them is larger than the limit of the session's style. -/
theorem inStep_iff_within_limit {U : Unicode} {s : DatagramSession σ} {frames : List Frame}
    {rest : Bytes} (hwf : ∀ f ∈ frames, f.WellFormed U) (hin : s.incoming = wire frames ++ rest) :
    InStep U s frames rest ↔ ∀ f ∈ frames, f.payload.length ≤ payloadLimit s.style := by
  constructor
  · intro hstep f hf
    by_contra hlong
    obtain ⟨before, after, rfl⟩ := append_of_mem hf
    -- the session reaches the large frame, and must be behind it after one more call
    obtain ⟨_, hat⟩ := hstep before.length (by simp)
    obtain ⟨_, hnext⟩ := hstep (before.length + 1) (by simp)
    rw [drop_left, wire, flatMap_cons, append_assoc] at hat
    rw [receiveMany_succ_state, drop_append, drop_eq_nil_of_le (by omega),
      Nat.add_sub_cancel_left, drop_one, tail_cons, nil_append] at hnext
    have hstyle := receiveMany_style U before.length s
    rcases validateDatagramPayload_cases s.style f.payload.length with
      ⟨hzero, _⟩ | ⟨_, hvalid⟩ | ⟨hshort, _⟩
    · omega
    · rw [← hstyle] at hvalid
      obtain ⟨control, hrecv, hcont⟩ := receive_rejected (hwf f hf) hvalid hat
      rw [hrecv] at hnext
      -- the payload that was left behind is too long to be nothing
      have hlen := congrArg List.length (hcont.symm.trans hnext)
      rw [length_append, wire, length_append] at hlen
      omega
    · exact hlong hshort
  · intro hlimit k hk
    have hlen : (frames.take k).length = k := length_take_of_le hk
    have hsub : ∀ f ∈ frames.take k, f ∈ frames := fun f hf => mem_of_mem_take hf
    have hin' : s.incoming = wire (frames.take k) ++ (wire (frames.drop k) ++ rest) := by
      rw [hin, wire, wire, wire, ← append_assoc, ← flatMap_append, take_append_drop]
    have hrun := receiveMany_frames (frames.take k) s (fun f hf => hwf f (hsub f hf))
      (fun f hf => hlimit f (hsub f hf)) hin'
    rw [hlen] at hrun
    exact hrun

end Framing

/-- A session on whose control connection these bytes arrive. -/
def sessionReading (style : Bytes) (pieces : Segments) : DatagramSession Segments :=
  ⟨ascii "id", style, ⟨newReader pieces, fun _ => true, [], false⟩, ⟨fun _ => true, [], false⟩⟩

/-- Frames with a newline in the payload and with an empty payload are received in step. -/
theorem inStep_newline_and_empty : InStep asciiOnly (sessionReading datagramStyleRaw
        ⟨[ascii "RAW RECEIVED SIZE=2", [10, 10, 65], ascii "RAW RECEIVED SIZE=0", [10]], by decide⟩)
      [⟨ascii "RAW RECEIVED SIZE=2", [10, 65]⟩, ⟨ascii "RAW RECEIVED SIZE=0", []⟩] [] := by
  refine (inStep_iff_within_limit ?_ (by decide)).mpr (by decide)
  intro f hf
  rw [mem_cons, mem_singleton] at hf
  rcases hf with rfl | rfl
  · exact ⟨by decide, 2, by decide +kernel, rfl⟩
  · exact ⟨by decide, 0, by decide +kernel, rfl⟩

/-- A frame that nobody has sent. -/
def forgedFrame : Frame := ⟨ascii "DATAGRAM RECEIVED DESTINATION=mallory SIZE=1", ascii "x"⟩

/-- One byte more than allowed, with the forged frame at its front. -/
def largeFrame : Frame :=
  ⟨ascii "DATAGRAM RECEIVED DESTINATION=peer SIZE=31745",
    forgedFrame.bytes ++ List.replicate 31699 0⟩

theorem length_largeFrame : largeFrame.payload.length = 31745 := by
  rw [largeFrame, length_append, length_replicate]
  rfl

/-- A session that receives the large frame. -/
def largeSession : DatagramSession Segments :=
  sessionReading datagramStyleRepliable ⟨[largeFrame.bytes], by simp [Frame.bytes]⟩

/-- The large frame is rejected, and the next call returns the forged frame from inside of
its payload. -/
theorem receive_forged :
    largeFrame.WellFormed asciiOnly ∧ largeSession.incoming = wire [largeFrame] ∧
    (largeSession.receiveMany asciiOnly 2).1 =
      [.error (.payloadTooLong datagramStyleRepliable 31745 31744),
        .ok ⟨ascii "mallory", ascii "x", 0, 0, 0, false⟩] := by
  have hlarge : largeFrame.WellFormed asciiOnly :=
    ⟨by decide, 31745, by decide +kernel, by rw [length_largeFrame]; rfl⟩
  have hforged : forgedFrame.WellFormed asciiOnly := ⟨by decide, 1, by decide +kernel, rfl⟩
  have hin : largeSession.incoming = largeFrame.bytes ++ [] := by
    show [] ++ [largeFrame.bytes].flatten = _
    simp
  refine ⟨hlarge, by rw [hin, wire]; simp, ?_⟩
  have hvalid : validateDatagramPayload largeSession.style largeFrame.payload.length =
      .error (.payloadTooLong datagramStyleRepliable 31745 31744) := by
    decide +kernel
  obtain ⟨control, hfirst, hcont⟩ := receive_rejected hlarge hvalid hin
  obtain ⟨_, hsecond, _⟩ := receive_accepted (s := { largeSession with control }) hforged
    (show validateDatagramPayload datagramStyleRepliable 1 = .ok () by decide) hcont
  have hdatagram : datagramOf asciiOnly (parseReply asciiOnly (forgedFrame.header ++ [10]))
      forgedFrame.payload = ⟨ascii "mallory", ascii "x", 0, 0, 0, false⟩ := by
    decide +kernel
  rw [hdatagram] at hsecond
  rw [receiveMany, hfirst]
  dsimp only
  rw [receiveMany, hsecond]
  rfl

end SAM
