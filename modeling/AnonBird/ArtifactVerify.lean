/-
# Verification of update artifacts

Model of `reposign`: an artifact is signed by a key of a bundle that is signed by one of the root
keys, as is the list of the revoked keys.  `verifyAny` does not look at the expiry of root keys, so
that an accepted artifact is as promised exactly if root keys other than expired ones signed both
(`verified_iff`).
-/
import AnonBird.GoStrings

open GoStrings Option

namespace Reposign

/-- Times are nanoseconds since the zero `time.Time`. -/
structure PublicKey where
  key : Bytes
  id : Bytes
  expiresAt : ℤ

/-- A signature with the time it was made at and the key it names. -/
structure Signature where
  signature : Bytes
  timestamp : ℤ
  keyID : Bytes

/-- The revoked keys by their ids, with the times they were revoked at. -/
structure RevocationList where
  revoked : Bytes → Option ℤ
  lastUpdated : ℤ
  expiresAt : ℤ

/-- The functions that are not interpreted. -/
structure Primitives where
  /-- `ed25519.Verify`. -/
  verify (key msg sig : Bytes) : Bool
  /-- The BLAKE2s hash. -/
  hash : Bytes → Bytes
  computeKeyID : Bytes → Bytes
  /-- The type, the bytes and the rest of `pem.Decode`. -/
  decode : Bytes → Option (Bytes × Bytes × Bytes)
  unmarshalKey : Bytes → Option PublicKey
  unmarshalList : Bytes → Option RevocationList
  parseSignature : Bytes → Option Signature

/-- A file and the file with its signature, as far as they can be read. -/
structure SignedFile where
  data : Option Bytes
  sig : Option Bytes

/-- The files of the repository and the artifact. -/
structure Repository where
  revocationList : SignedFile
  artifactPubKeys : SignedFile
  artifact : SignedFile

/-- Five minutes. -/
def maxClockSkew : ℤ := 5 * 60 * 1000000000
/-- Ten years, the limit for each of the three kinds of signatures. -/
def maxSignatureAge : ℤ := 10 * 365 * 24 * 3600 * 1000000000

/-- The bytes of `binary.LittleEndian.AppendUint64`. -/
def uint64 (n : ℤ) : Bytes := (List.range 8).map fun i => UInt8.ofNat (n / 256 ^ i % 256).toNat

/-- `Time.Unix`. -/
def unix (t : ℤ) : ℤ := t / 1000000000 - 62135596800

section

variable (c : Primitives) (rootKeys : List PublicKey) (now : ℤ)

/-- The time of a signature is neither in the future nor too long ago. -/
def Signature.Fresh (s : Signature) : Prop :=
  s.timestamp ≤ now + maxClockSkew ∧ now - s.timestamp ≤ maxSignatureAge

/-- A key without an expiry never expires. -/
def PublicKey.Unexpired (k : PublicKey) : Prop := k.expiresAt = 0 ∨ now ≤ k.expiresAt

instance (s : Signature) : Decidable (s.Fresh now) := inferInstanceAs (Decidable (_ ∧ _))

instance (k : PublicKey) : Decidable (k.Unexpired now) := inferInstanceAs (Decidable (_ ∨ _))

/-- The message that a root key signs. -/
def stamped (data : Bytes) (s : Signature) : Bytes := data ++ uint64 (unix s.timestamp)

/-- The message that an artifact key signs. -/
def Primitives.message (data : Bytes) (s : Signature) : Bytes :=
  c.hash data ++ uint64 data.length ++ uint64 (unix s.timestamp)

/-- `verifyAny`: the root keys are tried by their bytes alone. -/
def verifyAny (msg sig : Bytes) : Bool := rootKeys.any fun r => c.verify r.key msg sig

/-- `ParseRevocationList` and `ValidateRevocationList`. -/
def validateRevocationList (data : Bytes) (s : Signature) : Option RevocationList := do
  let l ← c.unmarshalList data
  if l.lastUpdated ≠ 0 ∧ l.expiresAt ≠ 0 ∧ s.Fresh now ∧ l.lastUpdated ≤ now + maxClockSkew ∧
      now ≤ l.expiresAt ∧ l.expiresAt ≤ now + maxSignatureAge ∧
      |s.timestamp - l.lastUpdated| ≤ maxClockSkew ∧
      verifyAny c rootKeys (stamped data s) s.signature then some l else none

/-- `parsePublicKey` for the tag of artifact keys. -/
def parsePublicKey (data : Bytes) : Option (PublicKey × Bytes) := do
  let (type, bytes, rest) ← c.decode data
  let pub ← c.unmarshalKey bytes
  if type = ascii "ARTIFACT PUBLIC KEY" ∧ pub.key.length = 32 then
    some ({ pub with id := c.computeKeyID pub.key }, rest)
  else none

/-- The loop of `parsePublicKeyBundle`.  A turn takes a byte at least, so that the length of the
bundle bounds their number. -/
def parsePublicKeys : ℕ → Bytes → Option (List PublicKey)
  | _, [] => some []
  | 0, _ => none
  | n + 1, bundle => do
    let (k, rest) ← parsePublicKey c bundle
    let keys ← parsePublicKeys n rest
    some (k :: keys)

/-- `ValidateArtifactKeys`: the keys of the bundle that are neither expired nor revoked. -/
def validateArtifactKeys (data : Bytes) (s : Signature) (l : RevocationList) :
    Option (List PublicKey) := do
  let pubKeys ← parsePublicKeys c data.length data
  let validKeys := pubKeys.filter fun k => k.Unexpired now ∧ l.revoked k.id = none
  if s.Fresh now ∧ verifyAny c rootKeys (stamped data s) s.signature ∧ validKeys ≠ [] then
    some validKeys
  else none

/-- `ValidateArtifact`: the first key with the id of the signature decides. -/
def validateArtifact (keys : List PublicKey) (data : Bytes) (s : Signature) : Option Unit := do
  let k ← keys.find? fun k => k.id = s.keyID
  if s.Fresh now ∧ k.Unexpired s.timestamp ∧ c.verify k.key (c.message data s) s.signature then
    some ()
  else none

/-- A file and its parsed signature. -/
def load (f : SignedFile) : Option (Bytes × Signature) := do
  let data ← f.data
  let s ← f.sig >>= c.parseSignature
  some (data, s)

/-- `ArtifactVerify.Verify`. -/
def verify (repo : Repository) : Option Unit := do
  let (listData, listSig) ← load c repo.revocationList
  let l ← validateRevocationList c rootKeys now listData listSig
  let (data, s) ← load c repo.artifactPubKeys
  let keys ← validateArtifactKeys c rootKeys now data s l
  let (artifact, artifactSig) ← load c repo.artifact
  validateArtifact c now keys artifact artifactSig

/-- One of the root keys signed the file. -/
def SignedByRoot (f : SignedFile) : Prop :=
  ∃ data s, load c f = some (data, s) ∧
    ∃ r ∈ rootKeys, c.verify r.key (stamped data s) s.signature

/-- Every root key that signed the file has expired. -/
def OnlyExpired (f : SignedFile) : Prop :=
  ∀ data s, load c f = some (data, s) → ∀ r ∈ rootKeys,
    c.verify r.key (stamped data s) s.signature → ¬ r.Unexpired now

/-- A root key that has not expired signed the file. -/
def Rooted (f : SignedFile) : Prop :=
  ∃ data s, load c f = some (data, s) ∧
    ∃ r ∈ rootKeys, r.Unexpired now ∧ c.verify r.key (stamped data s) s.signature

/-- The artifact verifies under a key of the bundle that is neither expired nor revoked by the list,
which has not expired. -/
def Trusted (repo : Repository) : Prop :=
  ∃ listData listSig l data s keys artifact artifactSig, ∃ k ∈ keys,
    load c repo.revocationList = some (listData, listSig) ∧ c.unmarshalList listData = some l ∧
    now ≤ l.expiresAt ∧ load c repo.artifactPubKeys = some (data, s) ∧
    parsePublicKeys c data.length data = some keys ∧ k.Unexpired now ∧ l.revoked k.id = none ∧
    load c repo.artifact = some (artifact, artifactSig) ∧
    c.verify k.key (c.message artifact artifactSig) artifactSig.signature

/-- What the documentation of the package promises of an accepted artifact. -/
def Sound (repo : Repository) : Prop :=
  Rooted c rootKeys now repo.revocationList ∧ Rooted c rootKeys now repo.artifactPubKeys ∧
    Trusted c now repo

variable {c rootKeys now} {repo : Repository}

theorem signedByRoot_of_verifyAny {f : SignedFile} {data : Bytes} {s : Signature}
    (hload : load c f = some (data, s))
    (hany : verifyAny c rootKeys (stamped data s) s.signature = true) :
    SignedByRoot c rootKeys f := by
  obtain ⟨r, hr, hverify⟩ := List.any_eq_true.mp hany
  exact ⟨data, s, hload, r, hr, hverify⟩

theorem rooted_iff {f : SignedFile} :
    Rooted c rootKeys now f ↔ ¬ OnlyExpired c rootKeys now f := by
  constructor
  · rintro ⟨data, s, hload, r, hr, hunexpired, hverify⟩ honly
    exact honly data s hload r hr hverify hunexpired
  · intro h
    unfold OnlyExpired at h
    push Not at h
    obtain ⟨data, s, hload, r, hr, hverify, hunexpired⟩ := h
    exact ⟨data, s, hload, r, hr, hunexpired, hverify⟩

/-- What `Verify` has checked of an artifact that it accepts. -/
theorem checked_of_verify (h : verify c rootKeys now repo = some ()) :
    SignedByRoot c rootKeys repo.revocationList ∧ SignedByRoot c rootKeys repo.artifactPubKeys ∧
      Trusted c now repo := by
  simp only [verify, bind_eq_bind, bind_eq_some_iff, Prod.exists] at h
  obtain ⟨listData, listSig, hlist, l, hl, data, s, hload, keys, hkeys, artifact, artifactSig,
    hartifact, hvalid⟩ := h
  simp only [validateRevocationList, validateArtifactKeys, validateArtifact, bind_eq_bind,
    bind_eq_some_iff, ite_none_right_eq_some, some.injEq] at hl hkeys hvalid
  obtain ⟨l, hdata, hcheck, rfl⟩ := hl
  obtain ⟨pubKeys, hpub, ⟨-, hany, -⟩, rfl⟩ := hkeys
  obtain ⟨k, hfind, ⟨-, -, hverify⟩, -⟩ := hvalid
  have hk := List.mem_of_find?_eq_some hfind
  rw [List.mem_filter, decide_eq_true_eq] at hk
  refine ⟨signedByRoot_of_verifyAny hlist hcheck.2.2.2.2.2.2.2,
    signedByRoot_of_verifyAny hload hany, ?_⟩
  exact ⟨listData, listSig, l, data, s, pubKeys, artifact, artifactSig, k, hk.1, hlist, hdata,
    hcheck.2.2.2.2.1, hload, hpub, hk.2.1, hk.2.2, hartifact, hverify⟩

/-- **Of an accepted artifact**, root keys signed the revocation list and the bundle, and a key of
the bundle that is neither expired nor revoked signed the artifact.  It is what the documentation
promises exactly if not only expired root keys signed the list, or the bundle. -/
theorem verified_iff (haccepted : verify c rootKeys now repo = some ()) :
    (SignedByRoot c rootKeys repo.revocationList ∧ SignedByRoot c rootKeys repo.artifactPubKeys ∧
      Trusted c now repo) ∧
    (Sound c rootKeys now repo ↔ ¬ OnlyExpired c rootKeys now repo.revocationList ∧
      ¬ OnlyExpired c rootKeys now repo.artifactPubKeys) := by
  have hchecked := checked_of_verify haccepted
  refine ⟨hchecked, ?_⟩
  unfold Sound
  rw [rooted_iff, rooted_iff, ← and_assoc]
  exact and_iff_left hchecked.2.2

end

/-- Signatures are the keys, and the files hold a key and its signature or an empty list. -/
def toy (now : ℤ) : Primitives where
  verify key _ sig := key = sig
  hash := id
  computeKeyID := id
  decode data := some (ascii "ARTIFACT PUBLIC KEY", data, [])
  unmarshalKey data := some ⟨data, [], 0⟩
  unmarshalList _ := some ⟨fun _ => none, now, now⟩
  parseSignature data := some ⟨data, now, data⟩

/-- A list and a bundle that the root key `[1]` signed, and an artifact that the key of the bundle
signed. -/
def toyRepository : Repository where
  revocationList := ⟨some [], some [1]⟩
  artifactPubKeys := ⟨some (List.replicate 32 7), some [1]⟩
  artifact := ⟨some [], some (List.replicate 32 7)⟩

/-- With a root key that never expires the artifact is accepted and sound. -/
theorem unexpired_root_sound : verify (toy 2) [⟨[1], [1], 0⟩] 2 toyRepository = some () ∧
    Sound (toy 2) [⟨[1], [1], 0⟩] 2 toyRepository := by
  have haccepted : verify (toy 2) [⟨[1], [1], 0⟩] 2 toyRepository = some () := by decide +kernel
  refine ⟨haccepted, (verified_iff haccepted).2.mpr ⟨fun h => ?_, fun h => ?_⟩⟩
  · exact h [] ⟨[1], 2, [1]⟩ rfl _ (List.mem_singleton_self _) rfl (.inl rfl)
  · exact h (List.replicate 32 7) ⟨[1], 2, [1]⟩ rfl _ (List.mem_singleton_self _) rfl (.inl rfl)

/-- The only root key expired at time 1. -/
theorem expired_root_accepted : verify (toy 2) [⟨[1], [1], 1⟩] 2 toyRepository = some () ∧
    ¬ Sound (toy 2) [⟨[1], [1], 1⟩] 2 toyRepository := by
  refine ⟨by decide +kernel, ?_⟩
  rintro ⟨⟨_, _, _, r, hr, hunexpired, _⟩, _⟩
  rw [List.mem_singleton.mp hr] at hunexpired
  exact absurd hunexpired (by decide)

end Reposign
