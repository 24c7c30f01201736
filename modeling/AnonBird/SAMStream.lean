/-
# Streams over the SAM bridge

Model of `dialStream` in `shared/anonymous/i2psam/sam.go`.  A stream has a control connection, which
keeps the session alive, and a data connection.  Two lines of the latter are read through a buffered
reader, and the caller gets the connection below it: what the reader has read beyond the second line
is lost.  The deferred close of the control connection is switched off as soon as the session is
accepted, so a later failure leaves it open.
-/
import AnonBird.SAM

open GoStrings GoText GoIO List

namespace SAM

section Dial

variable {σ : Type} [Source σ]

/-- The exchange on the control connection. -/
def streamSession (U : Unicode) (sessionID : Bytes) (tunnelLength tunnelQuantity : UInt8)
    (peer : Peer σ) : Except Error Reply × CommandConn σ :=
  helloThen U (openCommandConn peer)
    (sessionCreateCommand (ascii "STREAM") sessionID
      (sessionTunnelOptions tunnelLength tunnelQuantity)) .createStream

/-- The command on the data connection. -/
def connectCommand (sessionID destination toPort : Bytes) : Bytes :=
  ascii "STREAM CONNECT ID=" ++ sessionID ++ ascii " DESTINATION=" ++ destination ++
    ascii " SILENT=false" ++ (if toPort = [] then [] else ascii " TO_PORT=" ++ toPort)

/-- The exchange on the data connection. -/
def streamConnect (U : Unicode) (sessionID destination toPort address : Bytes) (peer : Peer σ) :
    Except Error Reply × CommandConn σ :=
  helloThen U (openCommandConn peer) (connectCommand sessionID destination toPort)
    (.connect address)

/-- The result of `dialStream`, with the connections it opened.  A successful call
returns a connection that reads from `data` and closes both. -/
structure Dialed (σ : Type) where
  result : Except Error Unit
  control : Option (CommandConn σ)
  data : Option (CommandConn σ)

/-- `dialStream`, with the answers to its two dials. -/
def dialStream (U : Unicode) (raw : Option Bytes) (samAddress address : Bytes)
    (tunnelLength tunnelQuantity : UInt8) (controlPeer dataPeer : Option (Peer σ)) : Dialed σ :=
  match splitDestination address with
  | .error e => ⟨.error e, none, none⟩
  | .ok (destination, toPort) =>
    match newSessionID raw with
    | .error e => ⟨.error e, none, none⟩
    | .ok sessionID =>
      match controlPeer with
      | none => ⟨.error (.dial samAddress), none, none⟩
      | some peer =>
        match streamSession U sessionID tunnelLength tunnelQuantity peer with
        | (.error e, control) => ⟨.error e, some control.close, none⟩
        | (.ok _, control) =>
          -- from here on the control connection is not closed any more
          match dataPeer with
          | none => ⟨.error (.dial samAddress), some control, none⟩
          | some peer =>
            match streamConnect U sessionID destination toPort address peer with
            | (.error e, data) => ⟨.error e, some control, some data.close⟩
            | (.ok _, data) => ⟨.ok (), some control, some data⟩

/-- Every connection that was opened is closed. -/
def Dialed.AllClosed (d : Dialed σ) : Prop :=
  ∀ c, d.control = some c ∨ d.data = some c → c.closed = true

/-- The call gets past the control connection: the address and the session id are there,
the dial succeeds, and the bridge accepts the session. -/
def SessionAccepted (U : Unicode) (raw : Option Bytes) (address : Bytes)
    (controlPeer : Option (Peer σ)) : Prop :=
  (∃ destination, splitDestination address = .ok destination) ∧ raw ≠ none ∧
    ∃ peer, controlPeer = some peer ∧ peer.Accepts U

section Outcomes

variable {U : Unicode} {raw : Option Bytes} {samAddress address : Bytes}
  {tunnelLength tunnelQuantity : UInt8} {controlPeer dataPeer : Option (Peer σ)}

/-- A call that has made its two exchanges, each on a connection of its own. -/
def Connected (U : Unicode) (raw : Option Bytes) (address : Bytes)
    (tunnelLength tunnelQuantity : UInt8) (dataPeer : Option (Peer σ)) (d : Dialed σ) : Prop :=
  ∃ destination toPort sessionID peer₁ peer₂ reply₁ reply₂ control data,
    splitDestination address = .ok (destination, toPort) ∧ newSessionID raw = .ok sessionID ∧
    dataPeer = some peer₂ ∧
    streamSession U sessionID tunnelLength tunnelQuantity peer₁ = (.ok reply₁, control) ∧
    streamConnect U sessionID destination toPort address peer₂ = (.ok reply₂, data) ∧
    d = ⟨.ok (), some control, some data⟩

/-- **The outcomes of a call.**  It fails before the session is accepted and leaves no open
connection, it fails later and leaves the control connection open, or it succeeds. -/
theorem dialStream_cases (U : Unicode) (raw : Option Bytes) (samAddress address : Bytes)
    (tunnelLength tunnelQuantity : UInt8) (controlPeer dataPeer : Option (Peer σ)) :
    (¬ SessionAccepted U raw address controlPeer ∧ ∃ e control, (∀ c, control = some c → c.closed) ∧
        dialStream U raw samAddress address tunnelLength tunnelQuantity controlPeer dataPeer =
          ⟨.error e, control, none⟩) ∨
    (SessionAccepted U raw address controlPeer ∧ ∃ e control data, control.closed = false ∧
        dialStream U raw samAddress address tunnelLength tunnelQuantity controlPeer dataPeer =
          ⟨.error e, some control, data⟩) ∨
    Connected U raw address tunnelLength tunnelQuantity dataPeer
      (dialStream U raw samAddress address tunnelLength tunnelQuantity controlPeer dataPeer) := by
  rw [dialStream]
  cases hsplit : splitDestination address with
  | error e =>
    refine .inl ⟨?_, e, none, by simp, rfl⟩
    simp [SessionAccepted, hsplit]
  | ok destination =>
    obtain ⟨destination, toPort⟩ := destination
    cases hid : newSessionID raw with
    | error e =>
      refine .inl ⟨?_, e, none, by simp, rfl⟩
      rintro ⟨_, hraw, _⟩
      cases raw with
      | none => exact hraw rfl
      | some raw => simp [newSessionID] at hid
    | ok sessionID =>
      cases controlPeer with
      | none =>
        refine .inl ⟨?_, _, none, by simp, rfl⟩
        simp [SessionAccepted]
      | some peer =>
        dsimp only
        rcases hsession : streamSession U sessionID tunnelLength tunnelQuantity peer with
          ⟨res, control⟩
        cases res with
        | error e =>
          refine .inl ⟨?_, e, some control.close, by simp [CommandConn.close], rfl⟩
          rintro ⟨_, _, _, ⟨⟩, haccepts⟩
          obtain ⟨reply, c, hok⟩ := helloThen_isOk_iff.mpr haccepts
          rw [streamSession, hok] at hsession
          simp at hsession
        | ok reply =>
          -- the control connection stays open, whatever happens on the other one
          have hraw : raw ≠ none := by
            rintro rfl
            simp [newSessionID] at hid
          have haccepted : SessionAccepted U raw address (some peer) :=
            ⟨⟨_, hsplit⟩, hraw, peer, rfl, helloThen_isOk_iff.mp ⟨reply, control, hsession⟩⟩
          have hopen : control.closed = false := by
            obtain ⟨_, _, _, _, _, _, _, rfl⟩ := helloThen_eq_ok hsession
            rfl
          right
          cases dataPeer with
          | none => exact .inl ⟨haccepted, _, control, none, hopen, rfl⟩
          | some dataPeer =>
            dsimp only
            rcases hconnect : streamConnect U sessionID destination toPort address
              dataPeer with ⟨res, data⟩
            cases res with
            | error e => exact .inl ⟨haccepted, e, control, _, hopen, rfl⟩
            | ok reply' =>
              exact .inr ⟨destination, toPort, sessionID, peer, dataPeer, reply,
                reply', control, data, hsplit, hid, rfl, hsession, hconnect, rfl⟩

/-- A failed call has closed what it opened exactly when the session was not accepted. -/
theorem dialStream_error_closed {e : Error}
    (h : (dialStream U raw samAddress address tunnelLength tunnelQuantity controlPeer
      dataPeer).result = .error e) :
    (dialStream U raw samAddress address tunnelLength tunnelQuantity controlPeer
        dataPeer).AllClosed ↔ ¬ SessionAccepted U raw address controlPeer := by
  rcases dialStream_cases U raw samAddress address tunnelLength tunnelQuantity controlPeer
    dataPeer with ⟨hno, _, control, hclosed, hdial⟩ | ⟨hyes, _, control, data, hopen, hdial⟩ |
      ⟨_, _, _, _, _, _, _, _, _, _, _, _, _, _, hdial⟩
  · rw [hdial]
    refine ⟨fun _ => hno, fun _ c hc => ?_⟩
    rcases hc with hc | hc
    · exact hclosed c hc
    · simp at hc
  · rw [hdial]
    refine ⟨fun hall => ?_, fun hno => absurd hyes hno⟩
    have hclosed := hall control (.inl rfl)
    rw [hopen] at hclosed
    simp at hclosed
  · rw [hdial] at h
    simp at h

theorem dialStream_eq_ok
    (h : (dialStream U raw samAddress address tunnelLength tunnelQuantity controlPeer
      dataPeer).result = .ok ()) : Connected U raw address tunnelLength tunnelQuantity dataPeer
      (dialStream U raw samAddress address tunnelLength tunnelQuantity controlPeer dataPeer) := by
  rcases dialStream_cases U raw samAddress address tunnelLength tunnelQuantity controlPeer
    dataPeer with ⟨_, _, _, _, hdial⟩ | ⟨_, _, _, _, _, hdial⟩ | hconnected
  · rw [hdial] at h
    simp at h
  · rw [hdial] at h
    simp at h
  · exact hconnected

end Outcomes

end Dial

/-! ## Two lines, and the stream behind them -/

theorem length_flatten_le_of_prefix {l₁ l₂ : List Bytes} (h : l₁ <+: l₂) :
    l₁.flatten.length ≤ l₂.flatten.length := by
  obtain ⟨t, rfl⟩ := h
  simp

variable {reads : List Bytes} {r₁ r₂ : Bufio Script}

/-- All reads but the last of those that two lines took end inside of the lines. -/
theorem length_dropLast_lt {body₁ body₂ : Bytes}
    {taken₁ taken₂ : List Bytes} (h₁ : TookLine 10 [] reads body₁ r₁ taken₁)
    (h₂ : TookLine 10 r₁.buffered r₁.src.reads body₂ r₂ taken₂) :
    (taken₁ ++ taken₂).dropLast.flatten.length < ((body₁ ++ [10]) ++ (body₂ ++ [10])).length := by
  have hbytes : taken₁.flatten.length = body₁.length + 1 + r₁.buffered.length := by
    have := congrArg List.length h₁.bytes_eq
    simpa [Nat.add_assoc, Nat.add_comm 1] using this
  cases htaken : taken₂ with
  | nil =>
    -- the second line was in the buffer already
    have hne : taken₁ ≠ [] := by
      rintro rfl
      rw [flatten_nil, length_nil] at hbytes
      omega
    have hneeded := h₁.needed hne
    simp only [nil_append, append_nil, length_append, length_cons, length_nil] at hneeded ⊢
    omega
  | cons p taken =>
    have hneeded := h₂.needed (by simp [htaken])
    rw [htaken, length_append] at hneeded
    rw [dropLast_append_of_ne_nil (by simp), flatten_append]
    simp only [length_append, length_cons, length_nil]
    omega

theorem readString_twice_left {out₁ out₂ : Bytes}
    (h₁ : (newReader ⟨reads⟩ : Bufio Script).readString 10 = (some out₁, r₁))
    (h₂ : r₁.readString 10 = (some out₂, r₂)) {line₁ line₂ B : Bytes} (hline₁ : 10 ∉ line₁)
    (hline₂ : 10 ∉ line₂) (hreads : reads.flatten = (line₁ ++ [10]) ++ (line₂ ++ [10]) ++ B) :
    r₂.src.reads.flatten = B ↔
      ∃ k, (reads.take k).flatten = (line₁ ++ [10]) ++ (line₂ ++ [10]) := by
  obtain ⟨body₁, taken₁, _, htook₁⟩ := readString_script h₁
  obtain ⟨body₂, taken₂, _, htook₂⟩ := readString_script h₂
  have hsplit : reads = taken₁ ++ taken₂ ++ r₂.src.reads := by
    rw [htook₁.reads_eq, append_assoc, ← htook₂.reads_eq]
  have hbytes₁ : taken₁.flatten = body₁ ++ 10 :: r₁.buffered := htook₁.bytes_eq
  have htaken : (taken₁ ++ taken₂).flatten = (body₁ ++ [10]) ++ (body₂ ++ [10]) ++ r₂.buffered := by
    rw [flatten_append, hbytes₁, append_assoc, cons_append, htook₂.bytes_eq]
    simp
  -- the lines that were read are the given ones
  rw [hsplit, flatten_append, htaken] at hreads
  obtain ⟨rfl, hrest⟩ := line_unique htook₁.body_free hline₁ (by simpa using hreads)
  obtain ⟨rfl, hB⟩ := line_unique htook₂.body_free hline₂ (by simpa using hrest)
  have hbuf : r₂.src.reads.flatten = B ↔ r₂.buffered = [] := by
    rw [← hB]
    simp
  rw [hbuf]
  constructor
  · intro hempty
    refine ⟨(taken₁ ++ taken₂).length, ?_⟩
    rw [hsplit, take_left, htaken, hempty, append_nil]
  · rintro ⟨k, hk⟩
    have hpre : taken₁ ++ taken₂ <+: reads := ⟨r₂.src.reads, hsplit.symm⟩
    by_cases hle : (taken₁ ++ taken₂).length ≤ k
    · -- the reads that were taken are among the first `k`
      have hle' : taken₁ ++ taken₂ <+: reads.take k := by
        refine prefix_of_prefix_length_le hpre ( take_prefix k reads) ?_
        rw [length_take]
        exact le_min hle hpre.length_le
      have hlen := length_flatten_le_of_prefix hle'
      rw [hk, htaken, length_append] at hlen
      exact length_eq_zero_iff.mp (by omega)
    · -- fewer reads do not complete the two lines
      have hshort : reads.take k <+: (taken₁ ++ taken₂).dropLast := by
        rw [hsplit, take_append_of_le_length (by omega), dropLast_eq_take]
        exact take_prefix_take_left (by omega)
      have hlen := length_flatten_le_of_prefix hshort
      have hneeded := length_dropLast_lt htook₁ htook₂
      rw [hk] at hlen
      omega

/-- What reads of the connection itself return, past the reader that made the exchange. -/
def CommandConn.unread (c : CommandConn Script) : Bytes := c.reader.src.reads.flatten

/-- **Fidelity of a stream.** The bytes behind the two lines are delivered exactly when some read
ends with the second line, and a failed call has closed its connections exactly when the session was
not accepted. -/
theorem dialStream_fidelity_iff (U : Unicode) (raw : Option Bytes) (samAddress address : Bytes)
    (tunnelLength tunnelQuantity : UInt8) (controlPeer : Option (Peer Script)) :
    (∀ (reads : List Bytes) (writeOK : ℕ → Bool) (helloLine statusLine B : Bytes),
      10 ∉ helloLine → 10 ∉ statusLine →
      reads.flatten = (helloLine ++ [10]) ++ (statusLine ++ [10]) ++ B →
      (dialStream U raw samAddress address tunnelLength tunnelQuantity controlPeer
        (some ⟨⟨reads⟩, writeOK⟩)).result = .ok () →
      ∃ data, (dialStream U raw samAddress address tunnelLength tunnelQuantity controlPeer
          (some ⟨⟨reads⟩, writeOK⟩)).data = some data ∧ (data.unread = B ↔
          ∃ k, (reads.take k).flatten = (helloLine ++ [10]) ++ (statusLine ++ [10]))) ∧
    ∀ (dataPeer : Option (Peer Script)) (e : Error),
      (dialStream U raw samAddress address tunnelLength tunnelQuantity controlPeer
        dataPeer).result = .error e →
      ((dialStream U raw samAddress address tunnelLength tunnelQuantity controlPeer
          dataPeer).AllClosed ↔ ¬ SessionAccepted U raw address controlPeer) := by
  constructor
  · intro reads writeOK helloLine statusLine B hhello hstatus hreads hok
    obtain ⟨_, _, _, _, peer, _, _, _, data, _, _, hpeer, _, hconnect, hdialed⟩ :=
      dialStream_eq_ok hok
    cases hpeer
    obtain ⟨_, r₁, _, r₂, hline₁, hline₂, _, rfl⟩ := helloThen_eq_ok hconnect
    refine ⟨_, by rw [hdialed], ?_⟩
    exact readString_twice_left hline₁ hline₂ hhello hstatus hreads
  · intro dataPeer e herror
    exact dialStream_error_closed herror

/-- A bridge that sends these reads, and takes every command. -/
def bridge (reads : List Bytes) : Peer Script := ⟨⟨reads⟩, fun _ => true⟩

/-- The reply that ends the handshake. -/
def helloReply : Bytes := ascii "HELLO REPLY RESULT=OK VERSION=3.3"
/-- The reply that ends the set-up of a stream. -/
def streamStatus : Bytes := ascii "STREAM STATUS RESULT=OK"

/-- A control connection on which the session is accepted. -/
def acceptingBridge : Peer Script :=
  bridge [helloReply ++ [10], ascii "SESSION STATUS RESULT=OK DESTINATION=key" ++ [10]]

/-- A control connection on which the session is refused. -/
def refusingBridge : Peer Script :=
  bridge [helloReply ++ [10], ascii "SESSION STATUS RESULT=I2P_ERROR" ++ [10]]

/-- A call for a fixed peer. -/
def dialPeer (controlPeer : Peer Script) (dataPeer : Option (Peer Script)) : Dialed Script :=
  dialStream asciiOnly (some []) defaultAddress (ascii "peer.b32.i2p:80") 1 3 (some controlPeer)
    dataPeer

/-- When the status line and the first byte of the peer arrive in one read, the byte is lost; and a
refused data connection leaves the control connection open. -/
theorem dialStream_loses_and_leaks : ((dialPeer acceptingBridge
        (some (bridge [helloReply ++ [10], streamStatus ++ [10] ++ ascii "x"]))).result = .ok () ∧
      (dialPeer acceptingBridge
        (some (bridge [helloReply ++ [10], streamStatus ++ [10] ++ ascii "x"]))).data.map
          CommandConn.unread = some []) ∧
    (dialPeer acceptingBridge none).result = .error (.dial defaultAddress) ∧
    (dialPeer acceptingBridge none).control.map CommandConn.closed = some false := by
  decide +kernel

/-- The same stream with a read for each line, and a session that is refused. -/
theorem dialStream_fidelity_lines : (∃ data, (dialPeer acceptingBridge
        (some (bridge [helloReply ++ [10], streamStatus ++ [10], ascii "x"]))).data = some data ∧
      data.unread = ascii "x") ∧ (dialPeer refusingBridge none).AllClosed := by
  constructor
  · obtain ⟨data, hdata, hiff⟩ := (dialStream_fidelity_iff asciiOnly (some []) defaultAddress
      (ascii "peer.b32.i2p:80") 1 3 (some acceptingBridge)).1
      [helloReply ++ [10], streamStatus ++ [10], ascii "x"] (fun _ => true) helloReply streamStatus
      (ascii "x") (by decide) (by decide) (by decide) (by decide +kernel)
    exact ⟨data, hdata, hiff.mpr ⟨2, by decide⟩⟩
  · refine ((dialStream_fidelity_iff asciiOnly (some []) defaultAddress
      (ascii "peer.b32.i2p:80") 1 3 (some refusingBridge)).2 none
      (.createStream (.result (ascii "I2P_ERROR") (ascii "SESSION STATUS RESULT=I2P_ERROR")))
      (by decide +kernel)).mpr ?_
    -- the second line of the bridge is no OK reply
    rintro ⟨_, _, _, ⟨⟩, haccepts⟩
    obtain ⟨reply, control, hok⟩ : ∃ reply c,
        helloThen asciiOnly (openCommandConn refusingBridge) helloCommand id = (.ok reply, c) :=
      helloThen_isOk_iff.mpr haccepts
    have hrefused : (helloThen asciiOnly (openCommandConn refusingBridge) helloCommand id).1 =
        .error (.result (ascii "I2P_ERROR") (ascii "SESSION STATUS RESULT=I2P_ERROR")) := by
      decide +kernel
    rw [hok] at hrefused
    simp at hrefused

end SAM
