/-
# What a SAM call puts on the wire

The commands of the SAM client are lines of fields, and the strings of the caller go into them as
they are, at most trimmed.  What a successful call has written is the line with the intended fields
exactly when the strings it was given have neither a blank nor a newline.
-/
import AnonBird.LineFormat
import AnonBird.SAMStream
import AnonBird.SAMDatagram

open GoStrings GoText GoIO LineFormat List Except

namespace SAM

/-! ## The intended fields -/

/-- The fields of `SESSION CREATE`. -/
def createFields (style sessionID destination : Bytes) (options : List Bytes) : List Bytes :=
  [ascii "SESSION", ascii "CREATE", ascii "STYLE=" ++ style, ascii "ID=" ++ sessionID,
    ascii "DESTINATION=" ++ destination, ascii "SIGNATURE_TYPE=7"] ++ options

/-- The fields of `STREAM CONNECT`. -/
def connectFields (sessionID destination toPort : Bytes) : List Bytes :=
  [ascii "STREAM", ascii "CONNECT", ascii "ID=" ++ sessionID, ascii "DESTINATION=" ++ destination,
    ascii "SILENT=false"] ++ (if toPort = [] then [] else [ascii "TO_PORT=" ++ toPort])

/-- The fields of `NAMING LOOKUP`. -/
def lookupFields (name : Bytes) : List Bytes :=
  [ascii "NAMING", ascii "LOOKUP", ascii "NAME=" ++ name]

/-- The fields of the header of a sent datagram. -/
def sendFields (style id destination : Bytes) (opts : SendOptions) : List Bytes :=
  [ascii "3.0", id, destination] ++ nonzeroOption "FROM_PORT=" opts.fromPort.toNat ++
    nonzeroOption "TO_PORT=" opts.toPort.toNat ++
    (if style = datagramStyleRaw then
      [numberOption "PROTOCOL="
        (if opts.protocol = 0 then defaultRawProtocol else opts.protocol).toNat]
    else [])

/-! ## The commands are their fields, joined -/

theorem joinOptions_eq (options : List Bytes) :
    joinOptions options = options.flatMap fun option => 32 :: option := by
  rw [joinOptions]
  cases options with
  | nil => rfl
  | cons option options =>
    rw [if_neg (by simp), intercalate_cons, flatMap_cons]
    rfl

variable {options : List Bytes} {name : String}

theorem defaultOption_of_mem (n : ℕ) {value : ℕ}
    (h : numberOption name n ∈ options) : defaultOption options name value = [] := by
  refine if_pos ?_
  rw [hasOptionPrefix, any_eq_true]
  refine ⟨_, h, ?_⟩
  rw [hasPrefix, isPrefixOf_iff_prefix, numberOption]
  exact prefix_append _ _

variable {style sessionID destination : Bytes}

/-- With the four tunnel options given, no default is added. -/
theorem sessionCreateCommandWithDestination_eq
    {l₁ l₂ q₁ q₂ : ℕ} {others options : List Bytes} (hdest : trimSpace destination ≠ [])
    (hoptions : [numberOption "inbound.length=" l₁, numberOption "outbound.length=" l₂,
      numberOption "inbound.quantity=" q₁, numberOption "outbound.quantity=" q₂] ++ others =
        options) : sessionCreateCommandWithDestination style sessionID destination options =
      [32].intercalate (createFields style sessionID destination options) := by
  have hhead : ascii "SESSION CREATE STYLE=" =
      ascii "SESSION" ++ 32 :: (ascii "CREATE" ++ 32 :: ascii "STYLE=") := by decide
  -- the defaults only look at the options by their names
  rw [sessionCreateCommandWithDestination, if_neg hdest,
    defaultOption_of_mem l₁ (by simp [← hoptions]), defaultOption_of_mem l₂ (by simp [← hoptions]),
    defaultOption_of_mem q₁ (by simp [← hoptions]), defaultOption_of_mem q₂ (by simp [← hoptions]),
    joinOptions_eq, createFields, cons_append,
    intercalate_cons, hhead, show ascii " ID=" = 32 :: ascii "ID=" from rfl,
    show ascii " DESTINATION=" = 32 :: ascii "DESTINATION=" from rfl,
    show ascii " SIGNATURE_TYPE=7" = 32 :: ascii "SIGNATURE_TYPE=7" from rfl]
  simp

theorem connectCommand_eq (sessionID destination toPort : Bytes) :
    connectCommand sessionID destination toPort =
      [32].intercalate (connectFields sessionID destination toPort) := by
  have hhead : ascii "STREAM CONNECT ID=" =
      ascii "STREAM" ++ 32 :: (ascii "CONNECT" ++ 32 :: ascii "ID=") := by decide
  rw [connectCommand, connectFields, cons_append, intercalate_cons, hhead,
    show ascii " DESTINATION=" = 32 :: ascii "DESTINATION=" from rfl,
    show ascii " SILENT=false" = 32 :: ascii "SILENT=false" from rfl,
    show ascii " TO_PORT=" = 32 :: ascii "TO_PORT=" from rfl]
  split <;> simp

theorem lookupCommand_eq (name : Bytes) :
    ascii "NAMING LOOKUP NAME=" ++ name = [32].intercalate (lookupFields name) := by
  have hhead : ascii "NAMING LOOKUP NAME=" =
      ascii "NAMING" ++ 32 :: (ascii "LOOKUP" ++ 32 :: ascii "NAME=") := by decide
  rw [lookupFields, intercalate_cons, hhead]
  simp

theorem headerOption_eq (name : String) (n : ℕ) :
    headerOption name n = (nonzeroOption name n).flatMap fun option => 32 :: option := by
  rw [headerOption, nonzeroOption]
  split <;> simp

theorem sendHeader_eq (style id destination : Bytes) (opts : SendOptions) :
    sendHeader style id destination opts =
      [32].intercalate (sendFields style id destination opts) := by
  rw [sendHeader, sendFields, headerOption_eq, headerOption_eq]
  simp only [cons_append, nil_append]
  rw [intercalate_cons, show ascii "3.0 " = ascii "3.0" ++ [32] from rfl]
  split <;> simp

/-! ## Which fields are words -/

theorem word_numberOption (hname : Word (ascii name)) (n : ℕ) :
    Word (numberOption name n) :=
  word_append.mpr ⟨hname, word_of_digits (all_isDigit_formatUint n)⟩

theorem word_nonzeroOption (hname : Word (ascii name)) (n : ℕ) :
    ∀ option ∈ nonzeroOption name n, Word option := by
  intro option hmem
  rw [nonzeroOption] at hmem
  split at hmem
  · exact absurd hmem not_mem_nil
  · rw [mem_singleton.mp hmem]
    exact word_numberOption hname n

theorem word_hexEncode (raw : Bytes) : Word (hexEncode raw) := by
  have hdigit : ∀ n < 16, let digit := fun n : UInt8 => if n < 10 then 48 + n else 87 + n
      digit (UInt8.ofNat n) ≠ 32 ∧ digit (UInt8.ofNat n) ≠ 10 := by decide
  induction raw with
  | nil => decide
  | cons b raw ih =>
    have hlt := b.toNat_lt
    have hhigh := hdigit (b.toNat / 16) (by omega)
    have hlow := hdigit (b.toNat % 16) (by omega)
    have hb : UInt8.ofNat (b.toNat / 16) = b / 16 ∧ UInt8.ofNat (b.toNat % 16) = b % 16 :=
      ⟨UInt8.toNat_inj.mp (by simp; omega), UInt8.toNat_inj.mp (by simp; omega)⟩
    rw [hb.1] at hhigh
    rw [hb.2] at hlow
    refine word_append.mpr ⟨⟨?_, ?_⟩, ih⟩
    · simp [hhigh.1.symm, hlow.1.symm]
    · simp [hhigh.2.symm, hlow.2.symm]

variable {raw : Option Bytes}

theorem word_newSessionID {id : Bytes} (h : newSessionID raw = .ok id) :
    Word id := by
  cases raw with
  | none => simp [newSessionID] at h
  | some raw =>
    rw [← ok.inj h]
    exact word_append.mpr ⟨by decide, word_hexEncode raw⟩

theorem word_splitDestination_port {address destination toPort : Bytes}
    (h : splitDestination address = .ok (destination, toPort)) : Word toPort := by
  rw [splitDestination] at h
  split at h
  · simp at h
  · split at h
    next host port _ =>
      split at h
      · simp at h
      next hport =>
        obtain ⟨_, rfl⟩ := Prod.mk.inj (ok.inj h)
        by_cases hempty : port = []
        · rw [hempty]
          decide
        · have hsome : parseUint port 16 ≠ none := by
            intro hnone
            exact hport ⟨hempty, by rw [hnone]; rfl⟩
          -- `ParseUint` refuses everything but digits
          apply word_of_digits
          by_contra hdigits
          exact hsome (by rw [parseUint, if_pos (.inr hdigits)])
    · split at h
      · obtain ⟨_, rfl⟩ := Prod.mk.inj (ok.inj h)
        decide
      · simp at h

theorem word_sessionTunnelOptions (tunnelLength tunnelQuantity : UInt8) :
    ∀ option ∈ sessionTunnelOptions tunnelLength tunnelQuantity, Word option := by
  intro option hmem
  simp only [sessionTunnelOptions, mem_cons, not_mem_nil, or_false] at hmem
  rcases hmem with rfl | rfl | rfl | rfl <;> exact word_numberOption (by decide) _

variable (cfg : DatagramConfig)

theorem word_datagramOptions :
    ∀ option ∈ datagramOptions cfg, Word option := by
  intro option hmem
  simp only [datagramOptions, mem_append, mem_cons, not_mem_nil, or_false] at hmem
  rcases hmem with (((rfl | rfl | rfl | rfl) | hmem) | hmem) | hmem
  · exact word_numberOption (by decide) _
  · exact word_numberOption (by decide) _
  · exact word_numberOption (by decide) _
  · exact word_numberOption (by decide) _
  · exact word_nonzeroOption (by decide) _ _ hmem
  · exact word_nonzeroOption (by decide) _ _ hmem
  · split at hmem
    · exact word_nonzeroOption (by decide) _ _ hmem
    · exact absurd hmem not_mem_nil

/-! ## The four lines -/

theorem isLine_create (hstyle : Word style) (hoptions : ∀ option ∈ options, Word option) :
    IsLine ([32].intercalate (createFields style sessionID destination options) ++ [10]) []
        (createFields style sessionID destination options) ↔ Word sessionID ∧ Word destination := by
  rw [isLine_iff (by simp [createFields])]
  constructor
  · intro hwords
    have hid := hwords (ascii "ID=" ++ sessionID) (by simp [createFields])
    have hdest := hwords (ascii "DESTINATION=" ++ destination) (by simp [createFields])
    exact ⟨(word_append.mp hid).2, (word_append.mp hdest).2⟩
  · rintro ⟨hid, hdest⟩ f hf
    simp only [createFields, mem_append, mem_cons, not_mem_nil, or_false] at hf
    rcases hf with (rfl | rfl | rfl | rfl | rfl | rfl) | hf
    · decide
    · decide
    · exact word_append.mpr ⟨by decide, hstyle⟩
    · exact word_append.mpr ⟨by decide, hid⟩
    · exact word_append.mpr ⟨by decide, hdest⟩
    · decide
    · exact hoptions f hf

theorem isLine_connect {sessionID destination toPort : Bytes} (hid : Word sessionID)
    (hport : Word toPort) : IsLine (connectCommand sessionID destination toPort ++ [10]) []
        (connectFields sessionID destination toPort) ↔ Word destination := by
  rw [connectCommand_eq, isLine_iff (by simp [connectFields])]
  constructor
  · intro hwords
    exact (word_append.mp (hwords (ascii "DESTINATION=" ++ destination)
      (by simp [connectFields]))).2
  · intro hdest f hf
    simp only [connectFields, mem_append, mem_cons, not_mem_nil, or_false] at hf
    rcases hf with (rfl | rfl | rfl | rfl | rfl) | hf
    · decide
    · decide
    · exact word_append.mpr ⟨by decide, hid⟩
    · exact word_append.mpr ⟨by decide, hdest⟩
    · decide
    · split at hf
      · exact absurd hf not_mem_nil
      · rw [mem_singleton.mp hf]
        exact word_append.mpr ⟨by decide, hport⟩

theorem isLine_lookup (name : Bytes) :
    IsLine (ascii "NAMING LOOKUP NAME=" ++ name ++ [10]) [] (lookupFields name) ↔ Word name := by
  rw [lookupCommand_eq, isLine_iff (by simp [lookupFields])]
  constructor
  · intro hwords
    exact (word_append.mp (hwords (ascii "NAME=" ++ name) (by simp [lookupFields]))).2
  · intro hname f hf
    simp only [lookupFields, mem_cons, not_mem_nil, or_false] at hf
    rcases hf with rfl | rfl | rfl
    · decide
    · decide
    · exact word_append.mpr ⟨by decide, hname⟩

theorem isLine_send (style id destination payload : Bytes) (opts : SendOptions) :
    IsLine (sendHeader style id destination opts ++ [10] ++ payload) payload
        (sendFields style id destination opts) ↔ Word id ∧ Word destination := by
  rw [sendHeader_eq, append_assoc, singleton_append, isLine_iff (by simp [sendFields])]
  constructor
  · intro hwords
    exact ⟨hwords id (by simp [sendFields]), hwords destination (by simp [sendFields])⟩
  · rintro ⟨hid, hdest⟩ f hf
    simp only [sendFields, mem_append, mem_cons, not_mem_nil, or_false] at hf
    rcases hf with (((rfl | rfl | rfl) | hf) | hf) | hf
    · decide
    · exact hid
    · exact hdest
    · exact word_nonzeroOption (by decide) _ _ hf
    · exact word_nonzeroOption (by decide) _ _ hf
    · split at hf
      · rw [mem_singleton.mp hf]
        exact word_numberOption (by decide) _
      · exact absurd hf not_mem_nil

/-! ## What the calls have written -/

theorem send_written {σ : Type} {s s' : DatagramSession σ} {destination payload : Bytes}
    {opts : SendOptions} (h : s.send destination payload opts = (.ok (), s')) :
    s'.udp.written = s.udp.written ++
      [sendHeader s.style s.id (trimSpace destination) opts ++ [10] ++ payload] := by
  rw [DatagramSession.send] at h
  split at h
  · simp at h
  · split at h
    · simp at h
    · split at h
      · simp at h
      · split at h
        · obtain ⟨_, rfl⟩ := Prod.mk.inj h
          rfl
        · simp at h

section Written

variable {σ : Type} [Source σ] {U : Unicode} {peer : Option (Peer σ)}
  {conn : Option (CommandConn σ)}

theorem lookup_written {samAddress name value : Bytes}
    (h : lookup U samAddress name peer = (.ok value, conn)) :
    ∃ c, conn = some c ∧ c.written =
      [helloCommand ++ [10], ascii "NAMING LOOKUP NAME=" ++ trimSpace name ++ [10]] := by
  rw [lookup.eq_def] at h
  dsimp only at h
  split at h
  · simp at h
  · split at h
    · simp at h
    · split at h
      · simp at h
      next reply c hreq =>
        obtain ⟨_, _, _, _, _, _, _, rfl⟩ := helloThen_eq_ok hreq
        split at h
        · simp at h
        · obtain ⟨_, rfl⟩ := Prod.mk.inj h
          exact ⟨_, rfl, rfl⟩

variable {cfg : DatagramConfig}

/-- An accepted configuration has one of the two styles. -/
theorem word_style (h : validateDatagramConfig cfg = .ok ()) :
    Word cfg.style := by
  have hstyle : cfg.style = datagramStyleRepliable ∨ cfg.style = datagramStyleRaw := by
    by_contra hne
    rw [not_or] at hne
    rw [validateDatagramConfig, if_pos hne] at h
    split at h <;> simp [throw, throwThe, MonadExceptOf.throw, bind, Except.bind] at h
  rcases hstyle with hstyle | hstyle
  · rw [hstyle]
    decide
  · rw [hstyle]
    decide

/-- The destination of a datagram session: the trimmed key, or a transient one. -/
def sessionDestination (privateKey : Bytes) : Bytes :=
  if trimSpace privateKey = [] then ascii "TRANSIENT" else trimSpace privateKey

variable (privateKey : Bytes)

theorem trimSpace_sessionDestination_ne_nil :
    trimSpace (sessionDestination privateKey) ≠ [] := by
  rw [sessionDestination]
  split
  · decide
  · rw [trimSpace_trimSpace]
    assumption

theorem word_sessionDestination :
    Word (sessionDestination privateKey) ↔ Word (trimSpace privateKey) := by
  rw [sessionDestination]
  split
  next hempty =>
    rw [hempty]
    decide
  · exact Iff.rfl

theorem datagramSessionCreateCommand_eq :
    datagramSessionCreateCommand cfg = [32].intercalate (createFields cfg.style cfg.sessionID
      (sessionDestination cfg.privateKey) (datagramOptions cfg)) :=
  sessionCreateCommandWithDestination_eq (trimSpace_sessionDestination_ne_nil cfg.privateKey) rfl

theorem newDatagramSession_written {udpPeer : Option (ℕ → Bool)} {s : DatagramSession σ}
    (h : newDatagramSession U raw cfg peer udpPeer = (.ok s, conn)) :
    validateDatagramConfig (normalizeDatagramConfig U raw cfg) = .ok () ∧
      s.control.written = [helloCommand ++ [10],
        datagramSessionCreateCommand (normalizeDatagramConfig U raw cfg) ++ [10]] := by
  rw [newDatagramSession.eq_def] at h
  dsimp only at h
  split at h
  · simp at h
  next hvalid =>
    split at h
    · simp at h
    · split at h
      · simp at h
      next reply control hreq =>
        obtain ⟨_, _, _, _, _, _, _, rfl⟩ := helloThen_eq_ok hreq
        split at h
        · simp at h
        · obtain ⟨hs, _⟩ := Prod.mk.inj h
          rw [← ok.inj hs]
          exact ⟨hvalid, rfl⟩

/-- **One line with the intended fields**: what a call that succeeds has written exactly when the
strings it was given are words. -/
theorem emits_intended_line_iff (U : Unicode) :
    (∀ (s s' : DatagramSession σ) (destination payload : Bytes) (opts : SendOptions),
      s.send destination payload opts = (.ok (), s') →
      ∃ packet, s'.udp.written = s.udp.written ++ [packet] ∧
        (IsLine packet payload (sendFields s.style s.id (trimSpace destination) opts) ↔
          Word s.id ∧ Word (trimSpace destination))) ∧
    (∀ (samAddress name value : Bytes) (peer : Option (Peer σ)) (conn : Option (CommandConn σ)),
      lookup U samAddress name peer = (.ok value, conn) →
      ∃ c line, conn = some c ∧ c.written = [helloCommand ++ [10], line] ∧
        (IsLine line [] (lookupFields (trimSpace name)) ↔ Word (trimSpace name))) ∧
    (∀ (raw : Option Bytes) (samAddress address : Bytes) (tunnelLength tunnelQuantity : UInt8)
      (controlPeer dataPeer : Option (Peer σ)),
      (dialStream U raw samAddress address tunnelLength tunnelQuantity controlPeer
        dataPeer).result = .ok () → ∃ destination toPort sessionID control data create connect,
        splitDestination address = .ok (destination, toPort) ∧ newSessionID raw = .ok sessionID ∧
        dialStream U raw samAddress address tunnelLength tunnelQuantity controlPeer dataPeer =
          ⟨.ok (), some control, some data⟩ ∧ control.written = [helloCommand ++ [10], create] ∧
        data.written = [helloCommand ++ [10], connect] ∧
        IsLine create [] (createFields (ascii "STREAM") sessionID (ascii "TRANSIENT")
          (sessionTunnelOptions tunnelLength tunnelQuantity)) ∧
        (IsLine connect [] (connectFields sessionID destination toPort) ↔ Word destination)) ∧
    ∀ (raw : Option Bytes) (cfg : DatagramConfig) (peer : Option (Peer σ))
      (udpPeer : Option (ℕ → Bool)) (s : DatagramSession σ) (conn : Option (CommandConn σ)),
      newDatagramSession U raw cfg peer udpPeer = (.ok s, conn) →
      ∃ line, s.control.written = [helloCommand ++ [10], line] ∧
        (IsLine line [] (createFields (normalizeDatagramConfig U raw cfg).style
            (normalizeDatagramConfig U raw cfg).sessionID (sessionDestination cfg.privateKey)
            (datagramOptions (normalizeDatagramConfig U raw cfg))) ↔
          Word (normalizeDatagramConfig U raw cfg).sessionID ∧
            Word (trimSpace cfg.privateKey)) := by
  refine ⟨?_, ?_, ?_, ?_⟩
  · intro s s' destination payload opts hok
    exact ⟨_, send_written hok, isLine_send s.style s.id (trimSpace destination) payload opts⟩
  · intro samAddress name value peer conn hok
    obtain ⟨c, hconn, hwritten⟩ := lookup_written hok
    exact ⟨c, _, hconn, hwritten, isLine_lookup (trimSpace name)⟩
  · intro raw samAddress address tunnelLength tunnelQuantity controlPeer dataPeer hok
    obtain ⟨destination, toPort, sessionID, _, _, _, _, control, data, hsplit, hid, _, hsession,
      hconnect, hdialed⟩ := dialStream_eq_ok hok
    have hidWord := word_newSessionID hid
    have hcreate : IsLine ([32].intercalate (createFields (ascii "STREAM") sessionID
        (ascii "TRANSIENT") (sessionTunnelOptions tunnelLength tunnelQuantity)) ++ [10]) [] _ :=
      (isLine_create (by decide) (word_sessionTunnelOptions _ _)).mpr ⟨hidWord, by decide⟩
    obtain ⟨_, _, _, _, _, _, _, rfl⟩ := helloThen_eq_ok hsession
    obtain ⟨_, _, _, _, _, _, _, rfl⟩ := helloThen_eq_ok hconnect
    refine ⟨destination, toPort, sessionID, _, _, _, _, hsplit, hid, hdialed, rfl, rfl, ?_,
      isLine_connect hidWord (word_splitDestination_port hsplit)⟩
    rw [sessionCreateCommand, sessionCreateCommandWithDestination_eq (by decide)
      (append_nil (sessionTunnelOptions _ _))]
    exact hcreate
  · intro raw cfg peer udpPeer s conn hok
    obtain ⟨hvalid, hwritten⟩ := newDatagramSession_written hok
    refine ⟨_, hwritten, ?_⟩
    rw [datagramSessionCreateCommand_eq, show (normalizeDatagramConfig U raw cfg).privateKey =
      cfg.privateKey from rfl, isLine_create (word_style hvalid) (word_datagramOptions _),
      word_sessionDestination]

end Written

/-- A session that has sent nothing. -/
def freshSession : DatagramSession Script :=
  ⟨ascii "id", datagramStyleRepliable, openCommandConn (bridge []), ⟨fun _ => true, [], false⟩⟩

/-- A bridge that knows every name. -/
def namingBridge : Peer Script :=
  bridge [helloReply ++ [10], ascii "NAMING REPLY RESULT=OK VALUE=v" ++ [10]]

/-- A bridge that connects every stream. -/
def connectingBridge : Peer Script := bridge [helloReply ++ [10], streamStatus ++ [10]]

/-- A configuration with a given key. -/
def keyConfig (privateKey : Bytes) : DatagramConfig :=
  ⟨[], [], ascii "datagram", ascii "id", privateKey, 0, 0, 0, 0, 0, 0, 0⟩

/-- Each of the four calls puts a line of the caller on the wire. -/
theorem injected_lines : ((freshSession.send (ascii "peer\nx") (ascii "p") ⟨0, 0, 0⟩).1 = .ok () ∧
      (freshSession.send (ascii "peer\nx") (ascii "p") ⟨0, 0, 0⟩).2.udp.written =
        [ascii "3.0 id peer\nx\np"] ∧ ¬ IsLine (ascii "3.0 id peer\nx\np") (ascii "p")
        (sendFields datagramStyleRepliable (ascii "id") (ascii "peer\nx") ⟨0, 0, 0⟩)) ∧
    ((lookup asciiOnly [] (ascii "a\nQUIT") (some namingBridge)).1 = .ok (ascii "v") ∧
      (lookup asciiOnly [] (ascii "a\nQUIT") (some namingBridge)).2.map CommandConn.written =
        some [helloCommand ++ [10], ascii "NAMING LOOKUP NAME=a\nQUIT\n"] ∧
      ¬ IsLine (ascii "NAMING LOOKUP NAME=a\nQUIT\n") [] (lookupFields (ascii "a\nQUIT"))) ∧
    ((dialStream asciiOnly (some []) defaultAddress (ascii "peer SILENT=true:80") 1 3
        (some acceptingBridge) (some connectingBridge)).result = .ok () ∧
      (dialStream asciiOnly (some []) defaultAddress (ascii "peer SILENT=true:80") 1 3
        (some acceptingBridge) (some connectingBridge)).data.map CommandConn.written =
        some [helloCommand ++ [10], ascii
          "STREAM CONNECT ID=anonbird- DESTINATION=peer SILENT=true SILENT=false TO_PORT=80\n"] ∧
      ¬ IsLine (ascii
          "STREAM CONNECT ID=anonbird- DESTINATION=peer SILENT=true SILENT=false TO_PORT=80\n") []
        (connectFields (ascii "anonbird-") (ascii "peer SILENT=true") (ascii "80"))) ∧
    (newDatagramSession asciiOnly none (keyConfig (ascii "key STYLE=RAW")) (some acceptingBridge)
        (some fun _ => true)).1.isOk = true ∧
    (newDatagramSession asciiOnly none (keyConfig (ascii "key STYLE=RAW")) (some acceptingBridge)
        (some fun _ => true)).2.map CommandConn.written =
      some [helloCommand ++ [10], [32].intercalate (createFields datagramStyleRepliable (ascii "id")
        (ascii "key STYLE=RAW") (datagramOptions (normalizeDatagramConfig asciiOnly none
          (keyConfig (ascii "key STYLE=RAW"))))) ++ [10]] ∧
    ¬ IsLine ([32].intercalate (createFields datagramStyleRepliable (ascii "id")
        (ascii "key STYLE=RAW") (datagramOptions (normalizeDatagramConfig asciiOnly none
          (keyConfig (ascii "key STYLE=RAW"))))) ++ [10]) []
      (createFields datagramStyleRepliable (ascii "id") (ascii "key STYLE=RAW")
        (datagramOptions (normalizeDatagramConfig asciiOnly none
          (keyConfig (ascii "key STYLE=RAW"))))) := by
  refine ⟨⟨by decide, by decide +kernel, fun hline => ?_⟩,
    ⟨by decide +kernel, by decide +kernel, fun hline => ?_⟩,
    ⟨by decide +kernel, by decide +kernel, fun hline => ?_⟩, by decide +kernel, by decide +kernel,
    fun hline => ?_⟩
  · rw [show ascii "3.0 id peer\nx\np" = sendHeader datagramStyleRepliable (ascii "id")
      (ascii "peer\nx") ⟨0, 0, 0⟩ ++ [10] ++ ascii "p" by decide, isLine_send] at hline
    exact absurd hline (by decide)
  · rw [show ascii "NAMING LOOKUP NAME=a\nQUIT\n" =
      ascii "NAMING LOOKUP NAME=" ++ ascii "a\nQUIT" ++ [10] by decide, isLine_lookup] at hline
    exact absurd hline (by decide)
  · rw [show ascii
        "STREAM CONNECT ID=anonbird- DESTINATION=peer SILENT=true SILENT=false TO_PORT=80\n" =
      connectCommand (ascii "anonbird-") (ascii "peer SILENT=true") (ascii "80") ++ [10] by
        decide +kernel, isLine_connect (by decide) (by decide)] at hline
    exact absurd hline (by decide)
  · exact absurd ((isLine_create (by decide) (word_datagramOptions _)).mp hline) (by decide)

/-- Calls with a plain destination, name, address and key emit the intended lines. -/
theorem emits_intended_line_plain :
    (∃ packet, (freshSession.send (ascii "peer") (ascii "p\n") ⟨0, 0, 0⟩).2.udp.written = [packet] ∧
      IsLine packet (ascii "p\n") (sendFields datagramStyleRepliable (ascii "id") (ascii "peer")
        ⟨0, 0, 0⟩)) ∧
    (∃ c line, (lookup asciiOnly [] (ascii "name") (some namingBridge)).2 = some c ∧
      c.written = [helloCommand ++ [10], line] ∧ IsLine line [] (lookupFields (ascii "name"))) ∧
    (∃ data line, (dialStream asciiOnly (some []) defaultAddress (ascii "peer:80") 1 3
        (some acceptingBridge) (some connectingBridge)).data = some data ∧
      data.written = [helloCommand ++ [10], line] ∧
      IsLine line [] (connectFields (ascii "anonbird-") (ascii "peer") (ascii "80"))) ∧
    ∃ s line, (newDatagramSession asciiOnly none (keyConfig (ascii "key")) (some acceptingBridge)
        (some fun _ => true)).1 = .ok s ∧ s.control.written = [helloCommand ++ [10], line] ∧
      IsLine line [] (createFields datagramStyleRepliable (ascii "id") (ascii "key")
        (datagramOptions (normalizeDatagramConfig asciiOnly none (keyConfig (ascii "key"))))) := by
  obtain ⟨hsend, hlookup, hdial, hsession⟩ := emits_intended_line_iff (σ := Script) asciiOnly
  refine ⟨?_, ?_, ?_, ?_⟩
  · obtain ⟨packet, hwritten, hiff⟩ := hsend freshSession
      (freshSession.send (ascii "peer") (ascii "p\n") ⟨0, 0, 0⟩).2 (ascii "peer") (ascii "p\n")
      ⟨0, 0, 0⟩ rfl
    exact ⟨packet, hwritten, hiff.mpr (by decide)⟩
  · obtain ⟨c, line, hconn, hwritten, hiff⟩ := hlookup [] (ascii "name") (ascii "v")
      (some namingBridge) (lookup asciiOnly [] (ascii "name") (some namingBridge)).2
      (Prod.ext (by decide +kernel) rfl)
    exact ⟨c, line, hconn, hwritten, hiff.mpr (by decide)⟩
  · obtain ⟨destination, toPort, sessionID, control, data, create, connect, hsplit, hid, hdialed, _,
      hdata, _, hiff⟩ := hdial (some []) defaultAddress (ascii "peer:80") 1 3 (some acceptingBridge)
      (some connectingBridge) (by decide +kernel)
    obtain ⟨rfl, rfl⟩ : ascii "peer" = destination ∧ ascii "80" = toPort := by
      exact Prod.mk.inj (Except.ok.inj hsplit)
    obtain rfl : ascii "anonbird-" = sessionID := Except.ok.inj hid
    exact ⟨data, connect, by rw [hdialed], hdata, hiff.mpr (by decide)⟩
  · rcases hcall : newDatagramSession asciiOnly none (keyConfig (ascii "key"))
      (some acceptingBridge) (some fun _ => true) with ⟨res, conn⟩
    cases res with
    | error e =>
      have hok : (newDatagramSession asciiOnly none (keyConfig (ascii "key"))
          (some acceptingBridge) (some fun _ => true)).1.isOk = true := by decide +kernel
      rw [hcall] at hok
      simp [Except.isOk, Except.toBool] at hok
    | ok s =>
      obtain ⟨line, hwritten, hiff⟩ := hsession _ _ _ _ s conn hcall
      exact ⟨s, line, rfl, hwritten, hiff.mpr (by decide)⟩

end SAM
