/-
# Relay tokens end to end

A relay token is a Unix time in decimal digits and its HMAC under a shared secret.  Model of
`shared/relay/auth/hmac/v2`, of the two encodings in between
(`management/internals/shared/grpc/token_mgr.go` and `shared/relay/auth/hmac/store.go`), and of the
handshake in which the relay server validates the token.  HMAC-SHA256 and base64 are parameters.
-/
import AnonBird.RelayFrames

open GoStrings GoBuffer RelayMessages List Nat

namespace RelayToken

/-! ## What the code rests on -/

/-- `hmac.New(sha256.New, key)` applied to a message, and `base64.StdEncoding`. -/
structure Primitives where
  hmacSHA256 : Bytes → Bytes → Bytes
  length_hmacSHA256 : ∀ key msg, (hmacSHA256 key msg).length = 32
  encodeToString : Bytes → Bytes
  decodeString : Bytes → Option Bytes
  decode_encode : ∀ b, decodeString (encodeToString b) = some b

/-- `Time.Unix` of a time in nanoseconds since the epoch. -/
def unix (t : ℤ) : Int64 := Int64.ofInt (t / 1000000000)

variable (P : Primitives)

/-! ## Tokens -/

/-- The number of an algorithm. -/
abbrev AuthAlgo := UInt8

/-- The one algorithm there is. -/
def authAlgoHMACSHA256 : AuthAlgo := 1

/-- The name of an algorithm. -/
def AuthAlgo.string (a : AuthAlgo) : Bytes :=
  if a = authAlgoHMACSHA256 then ascii "HMAC-SHA256" else ascii "Unknown"

/-- `AuthAlgo.New`: the keyed hash of the algorithm. -/
def AuthAlgo.new (a : AuthAlgo) : Option (Bytes → Bytes → Bytes) :=
  if a = authAlgoHMACSHA256 then some P.hmacSHA256 else none

/-- The size of a signature. -/
def AuthAlgo.size (a : AuthAlgo) : ℕ := if a = authAlgoHMACSHA256 then 32 else 0

/-- `Token` of the package `v2`. -/
structure Token where
  authAlgo : AuthAlgo
  signature : Bytes
  payload : Bytes
  deriving DecidableEq, Repr

/-- The bytes of a token. -/
def Token.marshal (t : Token) : Bytes :=
  let buf := make (1 + t.signature.length + t.payload.length)
  let buf := buf.set 0 t.authAlgo
  let buf := copyAt buf 1 t.signature
  copyAt buf (1 + t.signature.length) t.payload

/-- The errors of tokens and of their validation. -/
inductive TokenError where
  | invalidTokenData
  | insufficientLength
  | insufficientPayload
  | unsupportedAlgorithm (algo : AuthAlgo)
  | invalidSignature
  | invalidPayload
  | expired
  | decodeSignature
  deriving DecidableEq, Repr

open AuthAlgo

/-- The text of an error of `Validate`, `NewGenerator` and `UpdateToken`, without the text of an
error of the standard library in it. -/
def TokenError.error : TokenError → Bytes
  | .invalidTokenData => ascii "unmarshal token: invalid token data"
  | .insufficientLength => ascii "unmarshal token: invalid token data: insufficient length"
  | .insufficientPayload => ascii "invalid payload: insufficient length"
  | .unsupportedAlgorithm a => ascii "unsupported auth algorithm: " ++ string a
  | .invalidSignature => ascii "invalid signature"
  | .invalidPayload => ascii "invalid payload: "
  | .expired => ascii "expired token"
  | .decodeSignature => ascii "decode signature: "

/-- The token in bytes. -/
def unmarshalToken (data : Bytes) : Except TokenError Token :=
  if data.length = 0 then .error .invalidTokenData
  else
    let algo : AuthAlgo := byteAt data 0
    let sigSize := size algo
    if data.length < 1 + sigSize then .error .insufficientLength
    else .ok ⟨algo, slice data 1 (1 + sigSize), data.drop (1 + sigSize)⟩

/-! ## Generating and passing on -/

/-- What tokens are made with. -/
structure Generator where
  algo : Bytes → Bytes → Bytes
  algoType : AuthAlgo
  secret : Bytes
  timeToLive : ℤ

/-- A generator for a known algorithm. -/
def newGenerator (algo : AuthAlgo) (secret : Bytes) (timeToLive : ℤ) :
    Except TokenError Generator :=
  match new P algo with
  | none => .error (.unsupportedAlgorithm algo)
  | some algoFunc => .ok ⟨algoFunc, algo, secret, timeToLive⟩

/-- The expiration time of a token that is generated at the time `now`. -/
def expirationTime (timeToLive now : ℤ) : Int64 := unix (now + timeToLive)

/-- A token that expires after the time to live. -/
def Generator.generateToken (g : Generator) (now : ℤ) : Token :=
  let payload := formatInt (expirationTime g.timeToLive now).toInt
  ⟨g.algoType, g.algo g.secret payload, payload⟩

/-- The token as the management server sends it. -/
structure EncodedToken where
  payload : Bytes
  signature : Bytes
  deriving DecidableEq, Repr

/-- `GenerateRelayToken` with the generator of the manager. -/
def generateRelayToken (g : Generator) (now : ℤ) : EncodedToken :=
  let relayToken := g.generateToken now
  ⟨relayToken.payload, P.encodeToString relayToken.signature⟩

/-- The token that a client presents. -/
structure TokenStore where
  token : Bytes
  deriving DecidableEq, Repr

open Token

/-- `TokenStore.UpdateToken`: the error, if any, and the store. -/
def TokenStore.updateToken (a : TokenStore) (token : Option EncodedToken) :
    Except TokenError Unit × TokenStore :=
  match token with
  | none => (.ok (), a)
  | some token =>
    match P.decodeString token.signature with
    | none => (.error .decodeSignature, a)
    | some sig => (.ok (), ⟨marshal ⟨authAlgoHMACSHA256, sig, token.payload⟩⟩)

/-! ## Validating -/

/-- The least number of digits of a time. -/
def minLengthUnixTimestamp : ℕ := 10

/-- `Validator.Validate` with the secret of the validator, at the time `now`. -/
def validate (secret data : Bytes) (now : ℤ) : Except TokenError Unit :=
  match unmarshalToken data with
  | .error err => .error err
  | .ok token =>
    if token.payload.length < minLengthUnixTimestamp then .error .insufficientPayload
    else
      match new P token.authAlgo with
      | none => .error (.unsupportedAlgorithm token.authAlgo)
      | some hashFunc =>
        if token.signature ≠ hashFunc secret token.payload then .error .invalidSignature
        else
          match parseInt token.payload 64 with
          | none => .error .invalidPayload
          | some timestamp =>
            if (unix now).toInt > timestamp then .error .expired else .ok ()

/-- The errors of a handshake; those of the deprecated hello message are not looked into. -/
inductive HandshakeError (ε : Type) where
  | validateVersion (err : MsgError)
  | determineMessageType (err : MsgError)
  | invalidMessageType (msgType : MsgType)
  | hello (err : ε)
  | unmarshal (err : MsgError)
  | validate (err : TokenError)

/-- `handshakeReceive`: the peer and the channel of an authenticated connection.  The server
reads at most `maxHandshakeSize` bytes. -/
def handshakeReceive {ε : Type} (helloMsg : Bytes → Except ε PeerID) (secret : Bytes) (now : ℤ)
    (sent : Bytes) : Except (HandshakeError ε) (PeerID × UInt32) :=
  let buf := sent.take maxHandshakeSize
  match validateVersion buf with
  | .error err => .error (.validateVersion err)
  | .ok _ =>
    match determineClientMessageType buf with
    | .error err => .error (.determineMessageType err)
    | .ok msgType =>
      if msgType = msgTypeHello then
        match helloMsg buf with
        | .error err => .error (.hello err)
        | .ok peerID => .ok (peerID, 0)
      else if msgType = msgTypeAuth then
        match unmarshalAuthMsg buf with
        | .error err => .error (.unmarshal err)
        | .ok (peerID, authPayload) =>
          match validate P secret authPayload now with
          | .error err => .error (.validate err)
          | .ok _ => .ok (peerID, 0)
      else if msgType = msgTypeAuthChannel then
        match unmarshalAuthChannelMsg buf with
        | .error err => .error (.unmarshal err)
        | .ok (peerID, channelID, authPayload) =>
          match validate P secret authPayload now with
          | .error err => .error (.validate err)
          | .ok _ => .ok (peerID, channelID)
      else .error (.invalidMessageType msgType)

/-! ## Tokens as bytes -/

theorem Token.marshal_eq (t : Token) : t.marshal = t.authAlgo :: (t.signature ++ t.payload) := by
  have hfirst : (make (1 + t.signature.length + t.payload.length)).set 0 t.authAlgo =
      [t.authAlgo] ++ make (t.signature.length + t.payload.length) := by
    rw [add_assoc, make_add]
    rfl
  unfold marshal
  simp only
  rw [hfirst, copyAt_fill (i := 1) rfl, copyAt_fill_last (by simp [add_comm])]
  rfl

theorem unmarshalToken_marshal {sig payload : Bytes} (hsig : sig.length = 32) :
    unmarshalToken (marshal ⟨authAlgoHMACSHA256, sig, payload⟩) =
      .ok ⟨authAlgoHMACSHA256, sig, payload⟩ := by
  rw [marshal_eq]
  have hsize : size authAlgoHMACSHA256 = 32 := rfl
  have hslice : slice (authAlgoHMACSHA256 :: (sig ++ payload)) 1 (1 + 32) = sig :=
    slice_append (l := [authAlgoHMACSHA256]) rfl (by rw [hsig])
  have hdrop : (authAlgoHMACSHA256 :: (sig ++ payload)).drop (1 + 32) = payload := by
    exact drop_left' hsig
  have hbyte : byteAt (authAlgoHMACSHA256 :: (sig ++ payload)) 0 = authAlgoHMACSHA256 := rfl
  unfold unmarshalToken
  simp only [hbyte, hsize]
  rw [if_neg (by simp), if_neg (by simp [hsig]), hslice, hdrop]

/-- **What a token does**: signed with the secret, it is accepted until its time has passed. -/
theorem validate_signed {secret payload : Bytes} {timestamp : ℤ}
    (hlen : minLengthUnixTimestamp ≤ payload.length)
    (hparse : parseInt payload 64 = some timestamp) (now : ℤ) : validate P secret
        (marshal ⟨authAlgoHMACSHA256, P.hmacSHA256 secret payload, payload⟩) now =
      if (unix now).toInt > timestamp then .error .expired else .ok () := by
  have hnew : new P authAlgoHMACSHA256 = some P.hmacSHA256 := rfl
  simp only [validate, unmarshalToken_marshal (P.length_hmacSHA256 secret payload), hnew, hparse,
    if_neg (not_lt.mpr hlen), ne_eq, not_true_eq_false, if_false]

theorem marshal_of_unmarshalToken {data : Bytes} {token : Token}
    (h : unmarshalToken data = .ok token) :
    data = token.authAlgo :: (token.signature ++ token.payload) := by
  unfold unmarshalToken at h
  cases data with
  | nil => cases h
  | cons b rest =>
    simp only [length_cons, Nat.add_eq_zero_iff, one_ne_zero, and_false, if_false] at h
    split at h
    · cases h
    · cases h
      have hslice : slice (b :: rest) 1 (1 + size b) = rest.take (size b) := by
        unfold slice
        rw [Nat.add_comm 1, take_succ_cons]
        rfl
      have hdrop : (b :: rest).drop (1 + size b) = rest.drop (size b) := by
        rw [add_comm 1, drop_succ_cons]
      have hbyte : byteAt (b :: rest) 0 = b := rfl
      rw [hbyte, hslice, hdrop, take_append_drop]

/-- **What is accepted**: the algorithm, the sum of the payload under the secret and a payload
that is a number not before the present. -/
theorem signed_of_validate {secret data : Bytes} {now : ℤ}
    (h : validate P secret data now = .ok ()) :
    ∃ payload timestamp, data = authAlgoHMACSHA256 :: (P.hmacSHA256 secret payload ++ payload) ∧
      minLengthUnixTimestamp ≤ payload.length ∧ SignedDecimal payload timestamp ∧
      (unix now).toInt ≤ timestamp := by
  unfold validate at h
  split at h
  · cases h
  next token htoken =>
    have hdata := marshal_of_unmarshalToken htoken
    split at h
    · cases h
    next hlen =>
      unfold new at h
      by_cases halgo : token.authAlgo = authAlgoHMACSHA256
      · simp only [if_pos halgo] at h
        split at h
        · cases h
        next hsig =>
          rw [not_not] at hsig
          split at h
          · cases h
          next timestamp hparse =>
            split at h
            · cases h
            next htime =>
              refine ⟨token.payload, timestamp, ?_, not_lt.mp hlen,
                signedDecimal_of_parseInt hparse, not_lt.mp htime⟩
              rw [hdata, halgo, hsig]
      · simp only [if_neg halgo] at h
        cases h

theorem parseInt_expirationTime (ttl now : ℤ) :
    parseInt (formatInt (expirationTime ttl now).toInt) 64 =
      some (expirationTime ttl now).toInt := by
  refine parseInt_formatInt (by omega) ?_ ?_
  · exact Int64.le_toInt _
  · exact Int64.toInt_lt _

theorem token_fits (secret : Bytes) (ttl now : ℤ) (c : UInt32) :
    Relay.authFrameSize c (marshal ⟨authAlgoHMACSHA256,
      P.hmacSHA256 secret (formatInt (expirationTime ttl now).toInt),
      formatInt (expirationTime ttl now).toInt⟩) ≤ maxHandshakeSize := by
  set e := (expirationTime ttl now).toInt with he
  have hdigits : (digits 10 e.natAbs).length ≤ 19 := by
    have hlo : -2 ^ 63 ≤ e := Int64.le_toInt _
    have hhi : e < 2 ^ 63 := Int64.toInt_lt _
    exact digits_length_le_iff (by omega) _ |>.mpr (by omega)
  have hlen := (length_formatInt e).2
  have hheader : (if c = 0 then headerTotalSizeAuth else headerTotalSizeAuthChannel) ≤ 46 := by
    split <;> decide
  unfold Relay.authFrameSize maxHandshakeSize
  simp only [marshal_eq, length_cons, length_append, P.length_hmacSHA256]
  omega

/-- **The handshake** comes down to the validation of what the client presents. -/
theorem handshakeReceive_auth {ε : Type} (helloMsg : Bytes → Except ε PeerID) {c : UInt32}
    {a : Bytes} (hfits : Relay.authFrameSize c a ≤ maxHandshakeSize) (id : PeerID)
    (secret : Bytes) (now : ℤ) :
    ∃ msg, marshalAuthChannelMsg id c a = .ok msg ∧ handshakeReceive P helloMsg secret now msg =
        match validate P secret a now with
        | .error err => .error (.validate err)
        | .ok _ => .ok (id, c) := by
  obtain ⟨msg, hmsg, hlen, -⟩ := Relay.marshalAuthChannelMsg_fits hfits id
  have htake : msg.take maxHandshakeSize = msg := take_of_length_le (hlen ▸ hfits)
  refine ⟨msg, hmsg, ?_⟩
  unfold Relay.authFrameSize at hfits
  by_cases hc : c = 0
  · subst hc
    obtain rfl : protoHeader msgTypeAuth ++ (magicHeader ++ (id.bytes ++ a)) = msg := by
      have hlegacy : marshalAuthChannelMsg id 0 a = marshalAuthMsg id a := rfl
      rw [hlegacy, marshalAuthMsg_eq hfits] at hmsg
      exact Except.ok.inj hmsg
    simp only [handshakeReceive, htake, validateVersion_frame, determineClientMessageType_frame
      (show msgTypeAuth ∈ clientMessageTypes by decide), unmarshalAuthMsg_frame]
    rfl
  · rw [if_neg hc] at hfits
    obtain rfl : protoHeader msgTypeAuthChannel ++
        (magicHeader ++ (id.bytes ++ (uint32Bytes c ++ a))) = msg := by
      rw [marshalAuthChannelMsg_eq hc hfits] at hmsg
      exact Except.ok.inj hmsg
    simp only [handshakeReceive, htake, validateVersion_frame, determineClientMessageType_frame
      (show msgTypeAuthChannel ∈ clientMessageTypes by decide), unmarshalAuthChannelMsg_channel]
    rfl

/-- **Relay tokens end to end.** A token whose expiration time has at least ten digits is, encoded
and decoded on the way, accepted up to that time and refused as expired later, also in the handshake
of any channel. Whatever is accepted is the algorithm, the sum of a payload under the secret and
that payload, a decimal number that is not before the present. -/
theorem token_end_to_end (secret : Bytes) : (∀ (ttl now : ℤ) (g : Generator) (store : TokenStore),
      newGenerator P authAlgoHMACSHA256 secret ttl = .ok g →
      10 ≤ (digits 10 (expirationTime ttl now).toInt.natAbs).length →
      ∃ sent, store.updateToken P (some (generateRelayToken P g now)) = (.ok (), ⟨sent⟩) ∧
        ∀ t, ((unix t).toInt ≤ (expirationTime ttl now).toInt → validate P secret sent t = .ok ()) ∧
          ((expirationTime ttl now).toInt < (unix t).toInt →
            validate P secret sent t = .error .expired) ∧
          ∀ (ε : Type) (helloMsg : Bytes → Except ε PeerID) (id : PeerID) (c : UInt32),
            ∃ msg, marshalAuthChannelMsg id c sent = .ok msg ∧
              handshakeReceive P helloMsg secret t msg = match validate P secret sent t with
                | .error err => .error (.validate err)
                | .ok _ => .ok (id, c)) ∧
    ∀ (data : Bytes) (t : ℤ), validate P secret data t = .ok () →
      ∃ payload timestamp, data = 1 :: (P.hmacSHA256 secret payload ++ payload) ∧
        (P.hmacSHA256 secret payload).length = 32 ∧ SignedDecimal payload timestamp ∧
        (unix t).toInt ≤ timestamp := by
  constructor
  · intro ttl now g store hg hdigits
    have hlen : minLengthUnixTimestamp ≤ (formatInt (expirationTime ttl now).toInt).length :=
      le_trans hdigits (length_formatInt _).1
    cases hg
    simp only [TokenStore.updateToken, generateRelayToken, Generator.generateToken, P.decode_encode]
    refine ⟨_, rfl, fun t => ⟨?_, ?_, ?_⟩⟩
    · intro ht
      rw [validate_signed P hlen (parseInt_expirationTime ttl now), if_neg (not_lt.mpr ht)]
    · intro ht
      rw [validate_signed P hlen (parseInt_expirationTime ttl now), if_pos ht]
    · intro ε helloMsg id c
      exact handshakeReceive_auth P helloMsg (token_fits P secret ttl now c) id secret t
  · intro data t h
    obtain ⟨payload, timestamp, hdata, -, hdecimal, htime⟩ := signed_of_validate P h
    exact ⟨payload, timestamp, hdata, P.length_hmacSHA256 _ _, hdecimal, htime⟩

/-- HMAC-SHA256 of the payload `1700000000` under the key `secret`. -/
def sampleSum : Bytes :=
  [75, 34, 127, 136, 49, 179, 118, 61, 6, 105, 1, 117, 26, 212, 197, 131, 237, 8, 131, 43, 241, 146,
    74, 78, 197, 12, 46, 135, 27, 30, 133, 134]

/-- The same in base64. -/
def sampleText : Bytes := ascii "SyJ/iDGzdj0GaQF1GtTFg+0IgyvxkkpOxQwuhxsehYY="

/-- Primitives that are right on one payload: other sums are encoded behind a zero byte. -/
def samplePrimitives : Primitives where
  hmacSHA256 _ _ := sampleSum
  length_hmacSHA256 _ _ := rfl
  encodeToString b := if b = sampleSum then sampleText else 0 :: b
  decodeString s := if s = sampleText then some sampleSum else if s.head? = some 0 then some s.tail
    else none
  decode_encode b := by
    by_cases hb : b = sampleSum
    · rw [if_pos hb, if_pos rfl, hb]
    · have hhead : 0 :: b ≠ sampleText := by
        rintro h
        have hzero : some 0 = head? sampleText := congrArg head? h
        exact absurd hzero (by decide)
      rw [if_neg hb, if_neg hhead, if_pos head?_cons, tail_cons]

/-- A token that is issued for an hour is accepted in its last second and refused in the next. -/
theorem token_lasts_an_hour : ∃ sent,
    (TokenStore.mk []).updateToken samplePrimitives (some (generateRelayToken samplePrimitives
      ⟨samplePrimitives.hmacSHA256, authAlgoHMACSHA256, ascii "secret", 3600000000000⟩
      1699996400000000000)) = (.ok (), ⟨sent⟩) ∧
    validate samplePrimitives (ascii "secret") sent 1700000000999999999 = .ok () ∧
    validate samplePrimitives (ascii "secret") sent 1700000001000000000 = .error .expired := by
  have hexpiry : (expirationTime 3600000000000 1699996400000000000).toInt = 1700000000 := by
    decide +kernel
  obtain ⟨sent, hsent, h⟩ := (token_end_to_end samplePrimitives (ascii "secret")).1 3600000000000
    1699996400000000000 _ ⟨[]⟩ rfl (by rw [hexpiry]; simp)
  refine ⟨sent, hsent, (h _).1 ?_, (h _).2.1 ?_⟩
  · rw [hexpiry]
    decide +kernel
  · rw [hexpiry]
    decide +kernel

end RelayToken
