/-
# The local resolver

Model of `client/internal/dns/local/local.go`: the records of the managed zones, the lookup of a
question with its wildcard and CNAME steps, and the choice of the reply code.

A name exists if a record of any type is registered for it or for its wildcard name.  Three paths
of the lookup do not agree with this (`right_iff`).
-/
import AnonBird.DNSNames
import AnonBird.GoMap
import AnonBird.NetIP

open NetIP GoStrings DNSNames List Option
open GoMap hiding get set

namespace DNS

export GoMap (get set)

/-! ## Records -/

/-- The type of IPv4 addresses. -/
def typeA : UInt16 := 1
/-- The type of name servers. -/
def typeNS : UInt16 := 2
/-- The type of aliases. -/
def typeCNAME : UInt16 := 5
/-- The type of zone authorities. -/
def typeSOA : UInt16 := 6
/-- The type of IPv6 addresses. -/
def typeAAAA : UInt16 := 28

/-- The data of a record, with that of the types that the resolver does not look into as `other`. -/
inductive RData where
  | a (ip : Addr)
  | aaaa (ip : Addr)
  | cname (target : Bytes)
  | other (rrtype : UInt16) (rdata : Bytes)
      (h : rrtype ≠ typeA ∧ rrtype ≠ typeAAAA ∧ rrtype ≠ typeCNAME)
  deriving DecidableEq

/-- A resource record. -/
structure RR where
  name : Bytes
  rclass : UInt16
  ttl : UInt32
  data : RData
  deriving DecidableEq

/-- The type in the header of a record. -/
def RR.rrtype (rr : RR) : UInt16 :=
  match rr.data with
  | .a _ => typeA
  | .aaaa _ => typeAAAA
  | .cname _ => typeCNAME
  | .other rrtype _ _ => rrtype

/-- What a query asks for. -/
structure Question where
  name : Bytes
  qtype : UInt16
  qclass : UInt16
  deriving DecidableEq, Repr

/-- The question under which `registerRecord` keeps a record. -/
def RR.key (rr : RR) : Question := ⟨canonical rr.name, rr.rrtype, rr.rclass⟩

/-- The question for the wildcard above the name. -/
def transformToWildcard (q : Question) : Question :=
  { q with name := transformDomainToWildcard q.name }

/-- NS and SOA are not answered by a wildcard. -/
def supportsWildcard (queryType : UInt16) : Bool := queryType ≠ typeNS && queryType ≠ typeSOA

/-- A zone of an update, with the records that `dns.NewRR` can read. -/
structure Zone where
  domain : Bytes
  records : List RR
  nonAuthoritative : Bool := false

/-! ## The resolver -/

/-- `Resolver`.  No list of records is empty, records stand under their own type, and `domains` has
the names of all records. -/
structure Resolver where
  records : List (Question × List RR) := []
  domains : List Bytes := []
  zones : List (Bytes × Bool) := []
  cancelled : Bool := false
  nonempty : ∀ q rrs, get records q = some rrs → rrs ≠ []
  typed : ∀ q rrs, get records q = some rrs → ∀ rr ∈ rrs, rr.rrtype = q.qtype
  mem_domains : ∀ n, n ∈ domains ↔ ∃ q rrs, get records q = some rrs ∧ q.name = n

/-- A resolver without records. -/
def newResolver : Resolver where
  nonempty q rrs h := by cases h
  typed q rrs h := by cases h
  mem_domains n := by simp [get]

namespace Resolver

variable (r : Resolver)

/-- `Stop`: all records go, and the context is cancelled. -/
def stop (_r : Resolver) : Resolver := { newResolver with cancelled := true }

/-- A record is added under its question, and its name to the known names. -/
def registerRecord (rr : RR) : Resolver :=
  let q := rr.key
  { r with
    records := set r.records q ((get r.records q).getD [] ++ [rr])
    domains := if q.name ∈ r.domains then r.domains else q.name :: r.domains
    nonempty := by
      intro q' rrs h
      obtain ⟨-, rfl⟩ | ⟨-, h⟩ := get_set_eq_some.mp h
      · simp
      · exact r.nonempty q' rrs h
    typed := by
      intro q' rrs h
      obtain ⟨rfl, rfl⟩ | ⟨-, h⟩ := get_set_eq_some.mp h
      · intro rr' hrr'
        rw [mem_append, mem_singleton] at hrr'
        rcases hrr' with hold | rfl
        · cases hget : get r.records q with
          | none =>
            rw [hget] at hold
            cases hold
          | some old =>
            rw [hget] at hold
            exact r.typed q old hget rr' hold
        · rfl
      · exact r.typed q' rrs h
    mem_domains := by
      intro n
      rw [exists_get_set_iff, ← r.mem_domains n]
      split
      next hmem =>
        constructor
        · exact .inr
        · rintro (rfl | h)
          · exact hmem
          · exact h
      · rw [mem_cons, eq_comm] }

/-- `Update`: the zones and their records replace all that there was. -/
def update (zones : List Zone) : Resolver :=
  zones.foldl (fun r zone =>
    zone.records.foldl registerRecord
      { r with zones := set r.zones (canonical zone.domain) zone.nonAuthoritative })
    { newResolver with cancelled := r.cancelled }

@[simp] theorem update_cancelled (zones : List Zone) :
    (r.update zones).cancelled = r.cancelled := by
  have hrecords : ∀ (rrs : List RR) (r : Resolver),
      (rrs.foldl registerRecord r).cancelled = r.cancelled := fun rrs r =>
    foldlRecOn (motive := fun r' : Resolver => r'.cancelled = r.cancelled) rrs _ rfl
      fun _ h _ _ => h
  refine foldlRecOn (motive := fun r' : Resolver => r'.cancelled = r.cancelled) zones _ rfl ?_
  intro r' h zone _
  rw [hrecords]
  exact h

/-- The rotation of `lookupRecords`: the first of several records goes to the end. -/
def rotate (q : Question) : Resolver :=
  match hget : get r.records q with
  | some (first :: second :: rest) =>
    { r with
      records := set r.records q (second :: rest ++ [first])
      nonempty := by
        intro q' rrs h
        obtain ⟨-, rfl⟩ | ⟨-, h⟩ := get_set_eq_some.mp h
        · simp
        · exact r.nonempty q' rrs h
      typed := by
        intro q' rrs h
        obtain ⟨rfl, rfl⟩ | ⟨-, h⟩ := get_set_eq_some.mp h
        · intro rr hrr
          apply r.typed q' _ hget rr
          simp only [mem_append, mem_cons, mem_nil_iff] at hrr ⊢
          tauto
        · exact r.typed q' rrs h
      mem_domains := by
        intro n
        rw [exists_get_set_iff, r.mem_domains n]
        constructor
        · exact .inr
        · rintro (rfl | h)
          · exact ⟨q, _, hget, rfl⟩
          · exact h }
  | _ => r

/-- The records for a question. -/
def getRecords (q : Question) : List RR := (get r.records q).getD []

/-- There is an entry for a question. -/
def hasRecord (q : Question) : Bool := (get r.records q).isSome

/-- `findZone`: whether the zone of a name is non-authoritative. -/
def findZone (qname : Bytes) : Option Bool :=
  (canonical qname :: parents (canonical qname)).findSome? (get r.zones)

/-- The zone of a name is not authoritative. -/
def shouldFallthrough (qname : Bytes) : Bool := r.findZone qname = some true

/-- A name lies in one of the zones. -/
def isInManagedZone (name : Bytes) : Bool := (r.findZone name).isSome

/-- There are records for a name, or for the wildcard that covers it. -/
def hasRecordsForDomain (domainName : Bytes) (qType : UInt16) : Bool :=
  domainName ∈ r.domains ||
    supportsWildcard qType && transformDomainToWildcard domainName ∈ r.domains

end Resolver

/-! ## Lookups -/

/-- The code of an answer. -/
def rcodeSuccess : ℤ := 0
/-- The code of a failed lookup. -/
def rcodeServerFailure : ℤ := 2
/-- The code for a name that does not exist. -/
def rcodeNameError : ℤ := 3
/-- The code for a type that is not looked up. -/
def rcodeNotImplemented : ℤ := 4

/-- A record of an answer; `synthesised` marks the copies of wildcard records. -/
structure AnswerRR where
  rr : RR
  synthesised : Bool := false
  deriving DecidableEq

/-- What a lookup found, and whether it left the local records. -/
structure LookupResult where
  records : List AnswerRR := []
  rcode : ℤ
  hasExternalData : Bool := false
  deriving DecidableEq

/-- The errors of a lookup of the system resolver, as far as they are told apart. -/
inductive LookupError where
  | notFound
  | other

/-- `LookupNetIP` of the system resolver, for `ip4` and, if `v6`, for `ip6`. -/
abbrev System := (v6 : Bool) → Bytes → Except LookupError (List Addr)

/-- Addresses as records of a name. -/
def ipsToRRs (name : Bytes) (ips : List Addr) (ttl : UInt32) : List RR :=
  ips.map fun ip => match ip with
    | .v6 _ _ => ⟨name, 1, ttl, .aaaa ip⟩
    | .v4 _ => ⟨name, 1, ttl, .a ip⟩

/-- `resutil.LookupIP` with `getRcodeForError`; a lookup whose context is cancelled fails. -/
def lookupIP (cancelled : Bool) (sys : System) (v6 : Bool) (host : Bytes) :
    Except ℤ (List Addr) :=
  if cancelled then .error rcodeServerFailure
  else
    match sys v6 host with
    | .ok ips => .ok (ips.map Addr.unmap)
    | .error .other => .error rcodeServerFailure
    | .error .notFound =>
      match sys (!v6) host with
      | .error .notFound => .error rcodeNameError
      | _ => .error rcodeSuccess

/-- The records of a wildcard under the name that was asked for. -/
def responseFromWildRecords (originalName : Bytes) (wildRecords : List RR) : List AnswerRR :=
  wildRecords.map fun rr => ⟨{ rr with name := originalName }, true⟩

/-- `maxDepth` of `lookupCNAMEChain`. -/
def maxDepth : ℕ := 8

namespace Resolver

variable (r : Resolver)

/-- The addresses of a name from the system's resolver. -/
def resolveExternal (sys : System) (name : Bytes) (qtype : UInt16) : LookupResult :=
  if qtype ≠ typeA && qtype ≠ typeAAAA then { rcode := rcodeNotImplemented }
  else
    match lookupIP r.cancelled sys (qtype = typeAAAA) name with
    | .error rcode => { rcode := rcode, hasExternalData := true }
    | .ok ips =>
      { records := (ipsToRRs name ips 60).map fun rr => ⟨rr, false⟩
        rcode := rcodeSuccess, hasExternalData := true }

/-- `resolveCNAMETarget`; the code -1 asks to follow the chain. -/
def resolveCNAMETarget (sys : System) (targetName : Bytes) (targetType qclass : UInt16) :
    LookupResult :=
  let records := r.getRecords ⟨targetName, targetType, qclass⟩
  if records ≠ [] then
    { records := records.map fun rr => ⟨rr, false⟩, rcode := rcodeSuccess }
  else if r.hasRecord ⟨targetName, typeCNAME, qclass⟩ then { rcode := -1 }
  else if r.hasRecordsForDomain targetName targetType then { rcode := rcodeSuccess }
  else if r.isInManagedZone targetName then { rcode := rcodeNameError }
  else r.resolveExternal sys targetName targetType

/-- The records of one step of the chain: those of the name, or copies of its wildcard's. -/
def cnameRecords (cnameQuestion : Question) (targetType : UInt16) : List AnswerRR :=
  let records := r.getRecords cnameQuestion
  if records = [] && supportsWildcard targetType then
    responseFromWildRecords cnameQuestion.name (r.getRecords (transformToWildcard cnameQuestion))
  else records.map fun rr => ⟨rr, false⟩

/-- The loop of `lookupCNAMEChain`. -/
def lookupCNAMEChainLoop (sys : System) (targetType : UInt16) :
    ℕ → Question → List AnswerRR → LookupResult
  | 0, _, chain => { records := chain, rcode := rcodeSuccess }
  | depth + 1, cnameQuestion, chain =>
    let cnameRecords := r.cnameRecords cnameQuestion targetType
    match cnameRecords with
    | [] => { records := chain, rcode := rcodeSuccess }
    | first :: _ =>
      let chain := chain ++ cnameRecords
      match first.rr.data with
      | .cname target =>
        let targetName := toLower target
        let targetResult := r.resolveCNAMETarget sys targetName targetType cnameQuestion.qclass
        if targetResult.rcode = -1 then
          lookupCNAMEChainLoop sys targetType depth
            ⟨targetName, typeCNAME, cnameQuestion.qclass⟩ chain
        else
          -- `buildChainResult`
          { targetResult with records := chain ++ targetResult.records }
      | _ => { records := chain, rcode := rcodeSuccess }

/-- The records at the end of a chain of aliases. -/
def lookupCNAMEChain (sys : System) (cnameQuestion : Question) (targetType : UInt16) :
    LookupResult :=
  r.lookupCNAMEChainLoop sys targetType maxDepth cnameQuestion []

/-- The first part of `lookupRecords`: the records of the question or of its wildcard, and which of
the two. -/
def directRecords (q : Question) : Option (List RR × Bool) :=
  match get r.records q with
  | some records => some (records, false)
  | none =>
    if supportsWildcard q.qtype && !(q.name ∈ r.domains) then
      (get r.records (transformToWildcard q)).map fun records => (records, true)
    else none

/-- The records for a question, and the resolver with the rotated ones. -/
def lookupRecords (sys : System) (q : Question) : LookupResult × Resolver :=
  match r.directRecords q with
  | none =>
    if q.qtype ≠ typeCNAME then
      (r.lookupCNAMEChain sys ⟨q.name, typeCNAME, q.qclass⟩ q.qtype, r)
    else ({ rcode := rcodeNameError }, r)
  | some (records, true) =>
    ({ records := responseFromWildRecords q.name records, rcode := rcodeSuccess },
      r.rotate (transformToWildcard q))
  | some (records, false) =>
    ({ records := records.map fun rr => ⟨rr, false⟩, rcode := rcodeSuccess }, r.rotate q)

/-- A name without records of the type still exists. -/
def determineRcode (q : Question) (result : LookupResult) : ℤ :=
  if result.rcode ≠ 0 then result.rcode
  else if r.hasRecordsForDomain q.name q.qtype then rcodeSuccess
  else rcodeNameError

end Resolver

/-- `PeerConnectivity`: whether a peer with the address is known, and whether it is connected. -/
abbrev PeerConnectivity := Addr → Bool × Bool

/-- The address of an address record. -/
def extractRecordIP (rr : RR) : Option Addr :=
  match rr.data with
  | .a ip => some ip
  | .aaaa ip => some ip
  | _ => none

/-- Answers for peers that are not connected are dropped. -/
def filterDisconnectedPeerAnswers (peerConn : Option PeerConnectivity)
    (records : List AnswerRR) : List AnswerRR :=
  match peerConn with
  | none => records
  | some checker =>
    let kept := records.filter fun a =>
      match extractRecordIP a.rr with
      | none => true
      | some ip => !((checker ip).1 && !(checker ip).2)
    if kept = [] then records else kept

/-- What `ServeDNS` writes: the signal to go on with the next handler, or a reply. -/
inductive Served where
  | continue
  | reply (answer : List AnswerRR) (rcode : ℤ) (authoritative : Bool)

namespace Resolver

variable (r : Resolver) (sys : System) (peerConn : Option PeerConnectivity) (q : Question)

/-- The question with the name that `ServeDNS` looks up. -/
def asked : Question := { q with name := canonical q.name }

/-- What the lookup of a question finds. -/
def lookup : LookupResult := (r.lookupRecords sys (asked q)).1

/-- The records of the answer. -/
def answer : List AnswerRR := filterDisconnectedPeerAnswers peerConn (r.lookup sys q).records

/-- The reply code that the resolver chooses. -/
def rcode : ℤ := r.determineRcode (asked q) (r.lookup sys q)

/-- The reply to a query, or the handler passes it on. -/
def serveDNS : Served × Resolver :=
  let served :=
    if r.rcode sys q = rcodeNameError && r.shouldFallthrough (asked q).name then .continue
    else .reply (r.answer sys peerConn q) (r.rcode sys q) (!(r.lookup sys q).hasExternalData)
  (served, (r.lookupRecords sys (asked q)).2)

end Resolver

/-! ## What the answers should be -/

variable (name : Bytes)

namespace Resolver

variable {r : Resolver}

/-- A record of some type is registered for the name. -/
def HasRecords (r : Resolver) (name : Bytes) : Prop :=
  ∃ qtype qclass, r.getRecords ⟨name, qtype, qclass⟩ ≠ []

theorem getRecords_ne_nil_iff (q : Question) : r.getRecords q ≠ [] ↔ r.hasRecord q := by
  rw [getRecords, hasRecord]
  cases hget : get r.records q with
  | none => simp
  | some rrs => simpa using r.nonempty q rrs hget

theorem hasRecords_of_get {q : Question} {rrs : List RR} (h : get r.records q = some rrs) :
    r.HasRecords q.name := by
  refine ⟨q.qtype, q.qclass, ?_⟩
  rw [getRecords_ne_nil_iff, hasRecord, h]
  rfl

theorem hasRecords_iff : r.HasRecords name ↔ name ∈ r.domains := by
  rw [r.mem_domains]
  constructor
  · rintro ⟨qtype, qclass, hne⟩
    rw [getRecords_ne_nil_iff, hasRecord, isSome_iff_exists] at hne
    obtain ⟨rrs, hget⟩ := hne
    exact ⟨_, rrs, hget, rfl⟩
  · rintro ⟨q, rrs, hget, rfl⟩
    exact hasRecords_of_get hget

theorem hasRecordsForDomain_iff (qtype : UInt16) : r.hasRecordsForDomain name qtype ↔
      r.HasRecords name ∨
        supportsWildcard qtype ∧ r.HasRecords (transformDomainToWildcard name) := by
  rw [hasRecordsForDomain, hasRecords_iff, hasRecords_iff]
  simp

/-- Where the chain of CNAMEs of a name ends: at the first target that is not followed. -/
def chainEnd (r : Resolver) (targetType qclass : UInt16) : ℕ → Bytes → Option Bytes
  | 0, _ => none
  | depth + 1, name =>
    match r.cnameRecords ⟨name, typeCNAME, qclass⟩ targetType with
    | [] => none
    | first :: _ =>
      match first.rr.data with
      | .cname target =>
        let targetName := toLower target
        if r.getRecords ⟨targetName, targetType, qclass⟩ = [] &&
            r.hasRecord ⟨targetName, typeCNAME, qclass⟩ then
          chainEnd r targetType qclass depth targetName
        else some targetName
      | _ => none

/-- The end of the chain that the lookup of a question follows, if it follows one. -/
def followedTo (r : Resolver) (q : Question) : Option Bytes :=
  if (r.directRecords q).isNone && q.qtype ≠ typeCNAME then
    r.chainEnd q.qtype q.qclass maxDepth q.name
  else none

end Resolver

open Resolver

/-- **The answer to a question is right**: NXDOMAIN only if no record is registered for the name and
its wildcard name, or a chain ends in such a name; copies of wildcard records only for names without
records. -/
structure Right (r : Resolver) (sys : System) (peerConn : Option PeerConnectivity) (q : Question) :
    Prop where
  nxdomain : r.rcode sys q = rcodeNameError →
    (¬ r.HasRecords (canonical q.name) ∧
      ¬ r.HasRecords (transformDomainToWildcard (canonical q.name))) ∨
    ∃ target, r.followedTo (asked q) = some target ∧ r.isInManagedZone target = true ∧
      ¬ r.HasRecords target ∧ ¬ r.HasRecords (transformDomainToWildcard target)
  wildcard : ∀ a ∈ r.answer sys peerConn q, a.synthesised = true → ¬ r.HasRecords a.rr.name

/-- The questions that are answered wrongly. -/
inductive Wrong (r : Resolver) (q : Question) : Prop
  /-- A CNAME is asked for, and there are only records of other types. -/
  | noCNAME (htype : q.qtype = typeCNAME) (hnone : r.directRecords (asked q) = none)
      (hexists : r.HasRecords (canonical q.name) ∨
        r.HasRecords (transformDomainToWildcard (canonical q.name)))
  /-- For NS and SOA, a name of which only the wildcard has records. -/
  | unseenWildcard (htype : supportsWildcard q.qtype = false)
      (hname : ¬ r.HasRecords (canonical q.name))
      (hwild : r.HasRecords (transformDomainToWildcard (canonical q.name)))
  /-- For NS and SOA, a chain that ends in such a name. -/
  | unseenTargetWildcard (htype : supportsWildcard q.qtype = false) {target : Bytes}
      (hfollowed : r.followedTo (asked q) = some target)
      (hmanaged : r.isInManagedZone target = true) (hname : ¬ r.HasRecords target)
      (hwild : r.HasRecords (transformDomainToWildcard target))
  /-- A name with records, but none of the type and no CNAME, whose wildcard has a CNAME. -/
  | wildcardCNAME (htype : q.qtype ≠ typeCNAME) (hsupports : supportsWildcard q.qtype = true)
      (hnone : r.getRecords (asked q) = [])
      (hcname : r.getRecords ⟨canonical q.name, typeCNAME, q.qclass⟩ = [])
      (hexists : r.HasRecords (canonical q.name))
      (hwild : r.getRecords
        ⟨transformDomainToWildcard (canonical q.name), typeCNAME, q.qclass⟩ ≠ [])

/-! ## The reply code -/

variable {target : Bytes}

namespace Resolver

variable {r : Resolver} {sys : System} {targetType qclass : UInt16}

theorem resolveExternal_rcode_ne (qtype : UInt16) :
    (r.resolveExternal sys name qtype).rcode ≠ -1 := by
  have hlookup : ∀ v6 rcode, lookupIP r.cancelled sys v6 name = .error rcode → rcode ≠ -1 := by
    intro v6 rcode h
    unfold lookupIP at h
    repeat' split at h
    all_goals (cases h <;> simp [rcodeServerFailure, rcodeNameError, rcodeSuccess])
  unfold resolveExternal
  split
  · decide
  · split
    next rcode hcode =>
      exact hlookup _ rcode hcode
    · show rcodeSuccess ≠ -1
      decide

/-- The chain is followed where the target has a CNAME and not the record that is asked for. -/
theorem resolveCNAMETarget_follows_iff (target : Bytes) :
    (r.resolveCNAMETarget sys target targetType qclass).rcode = -1 ↔
      (r.getRecords ⟨target, targetType, qclass⟩ = [] &&
        r.hasRecord ⟨target, typeCNAME, qclass⟩) := by
  unfold resolveCNAMETarget
  dsimp only
  split_ifs with hrecords hcname
  · simp [hrecords, rcodeSuccess]
  · simp [not_not.mp hrecords, hcname]
  · simp [hcname, rcodeSuccess]
  · simp [hcname, rcodeNameError]
  · simp [hcname, resolveExternal_rcode_ne]

theorem lookupCNAMEChainLoop_end (depth : ℕ) (name : Bytes) (chain : List AnswerRR) :
    let result := r.lookupCNAMEChainLoop sys targetType depth ⟨name, typeCNAME, qclass⟩ chain
    match r.chainEnd targetType qclass depth name with
    | none => result.rcode = rcodeSuccess ∧ result.hasExternalData = false
    | some target =>
      result.rcode = (r.resolveCNAMETarget sys target targetType qclass).rcode ∧
        result.hasExternalData =
          (r.resolveCNAMETarget sys target targetType qclass).hasExternalData := by
  induction depth generalizing name chain with
  | zero => exact ⟨rfl, rfl⟩
  | succ depth ih =>
    rw [chainEnd, lookupCNAMEChainLoop]
    cases hrecords : r.cnameRecords ⟨name, typeCNAME, qclass⟩ targetType with
    | nil => exact ⟨rfl, rfl⟩
    | cons first rest =>
      dsimp only
      cases hdata : first.rr.data with
      | a ip | aaaa ip | other rrtype rdata h => exact ⟨rfl, rfl⟩
      | cname target =>
        dsimp only
        have hfollows := @resolveCNAMETarget_follows_iff r sys targetType qclass (toLower target)
        cases hstep : (r.getRecords ⟨toLower target, targetType, qclass⟩ = [] &&
            r.hasRecord ⟨toLower target, typeCNAME, qclass⟩) with
        | true =>
          rw [if_pos (hfollows.mpr hstep), if_pos rfl]
          exact ih (toLower target) (chain ++ first :: rest)
        | false =>
          rw [hstep] at hfollows
          rw [if_neg (fun hcode => Bool.noConfusion (hfollows.mp hcode)), if_neg Bool.false_ne_true]
          exact ⟨rfl, rfl⟩

/-- Without the system resolver, the end of a chain is NXDOMAIN if it is a name of a managed zone
that has no records as far as the type lets one see. -/
theorem resolveCNAMETarget_nameError_iff
    (hfollows : (r.resolveCNAMETarget sys target targetType qclass).rcode ≠ -1)
    (hext : (r.resolveCNAMETarget sys target targetType qclass).hasExternalData = false) :
    (r.resolveCNAMETarget sys target targetType qclass).rcode = rcodeNameError ↔
      r.hasRecordsForDomain target targetType = false ∧ r.isInManagedZone target := by
  have hnone : r.hasRecordsForDomain target targetType = false →
      ∀ qtype, r.getRecords ⟨target, qtype, qclass⟩ = [] := by
    intro hno qtype
    by_contra hne
    have hyes := (hasRecordsForDomain_iff target targetType).mpr (.inl ⟨qtype, qclass, hne⟩)
    rw [hno] at hyes
    cases hyes
  unfold resolveCNAMETarget at hfollows hext ⊢
  dsimp only at hfollows hext ⊢
  split_ifs at hfollows hext ⊢ with hrecords hcname hyes hmanaged
  · constructor
    · intro hcode
      cases hcode
    · rintro ⟨hno, -⟩
      exact absurd (hnone hno targetType) hrecords
  · exact absurd rfl hfollows
  · simp [hyes, rcodeSuccess, rcodeNameError]
  · simp [hmanaged, Bool.eq_false_iff.mpr hyes]
  · simp only [hmanaged, Bool.false_eq_true, and_false, iff_false]
    unfold resolveExternal at hext ⊢
    split
    · decide
    next htype =>
      rw [if_neg htype] at hext
      split at hext <;> cases hext

variable {q : Question} {found : List RR × Bool}

theorem hasRecordsForDomain_of_direct
    (h : r.directRecords q = some found) : r.hasRecordsForDomain q.name q.qtype := by
  rw [hasRecordsForDomain_iff]
  unfold directRecords at h
  split at h
  next rrs hget =>
    exact .inl (hasRecords_of_get hget)
  · split at h
    next hsupports =>
      obtain ⟨rrs, hget, -⟩ := map_eq_some_iff.mp h
      exact .inr ⟨(Bool.and_eq_true_iff.mp hsupports).1, hasRecords_of_get hget⟩
    · cases h

variable {depth : ℕ} {name target : Bytes}

section

variable (h : r.chainEnd targetType qclass depth name = some target)

include h

theorem hasRecordsForDomain_of_chainEnd :
    r.hasRecordsForDomain name targetType := by
  rw [hasRecordsForDomain_iff]
  cases depth with
  | zero => cases h
  | succ depth =>
    rw [chainEnd] at h
    by_cases hown : r.getRecords ⟨name, typeCNAME, qclass⟩ = []
    · right
      unfold cnameRecords at h
      rw [hown] at h
      cases hsupports : supportsWildcard targetType with
      | false =>
        rw [hsupports] at h
        cases h
      | true =>
        refine ⟨rfl, typeCNAME, qclass, fun hwild => ?_⟩
        have hempty : r.getRecords (transformToWildcard ⟨name, typeCNAME, qclass⟩) = [] := hwild
        rw [hsupports, hempty] at h
        cases h
    · exact .inl ⟨typeCNAME, qclass, hown⟩

theorem chainEnd_not_followed :
    (r.resolveCNAMETarget sys target targetType qclass).rcode ≠ -1 := by
  induction depth generalizing name with
  | zero => cases h
  | succ depth ih =>
    rw [chainEnd] at h
    split at h
    · cases h
    · split at h
      · dsimp only at h
        split at h
        · exact ih h
        next hnot =>
          rw [← Option.some.inj h, ne_eq, resolveCNAMETarget_follows_iff]
          exact hnot
      · cases h

end

theorem lookup_of_direct
    (h : r.directRecords (asked q) = some found) : (r.lookup sys q).rcode = rcodeSuccess := by
  rw [lookup, lookupRecords, h]
  obtain ⟨records, wild⟩ := found
  cases wild <;> rfl

section

variable (h : r.directRecords (asked q) = none)

include h

theorem lookup_of_noCNAME
    (htype : q.qtype = typeCNAME) : r.lookup sys q = { rcode := rcodeNameError } := by
  rw [lookup, lookupRecords, h]
  rw [if_neg (show ¬ (asked q).qtype ≠ typeCNAME from not_not.mpr htype)]

theorem lookup_of_chain (htype : q.qtype ≠ typeCNAME) :
    r.lookup sys q = r.lookupCNAMEChainLoop sys q.qtype maxDepth
      ⟨canonical q.name, typeCNAME, q.qclass⟩ [] := by
  rw [lookup, lookupRecords, h]
  rw [if_pos (show (asked q).qtype ≠ typeCNAME from htype)]
  rfl

theorem followedTo_of_chain (htype : q.qtype ≠ typeCNAME) :
    r.followedTo (asked q) = r.chainEnd q.qtype q.qclass maxDepth (canonical q.name) := by
  have hasked : (asked q).qtype ≠ typeCNAME := htype
  rw [followedTo, h]
  simp only [isNone_none, Bool.true_and, hasked, ne_eq, not_false_eq_true, decide_true, if_true]
  rfl

end

/-- A lookup that succeeds leaves the code to the existence of the name. -/
theorem rcode_of_success (h : (r.lookup sys q).rcode = rcodeSuccess) :
    r.rcode sys q = rcodeNameError ↔ r.hasRecordsForDomain (canonical q.name) q.qtype = false := by
  have hzero : ¬ (r.lookup sys q).rcode ≠ 0 := not_not.mpr h
  rw [rcode, determineRcode, if_neg hzero]
  show (if r.hasRecordsForDomain (canonical q.name) q.qtype = true then rcodeSuccess
    else rcodeNameError) = rcodeNameError ↔ _
  cases r.hasRecordsForDomain (canonical q.name) q.qtype <;> simp [rcodeSuccess, rcodeNameError]

theorem rcode_of_failure (h : (r.lookup sys q).rcode ≠ rcodeSuccess) :
    r.rcode sys q = (r.lookup sys q).rcode := by
  exact if_pos h

/-- **When NXDOMAIN is chosen**, if the system resolver is not asked. -/
theorem rcode_eq_nameError_iff (hext : (r.lookup sys q).hasExternalData = false) :
    r.rcode sys q = rcodeNameError ↔ r.directRecords (asked q) = none ∧ (q.qtype = typeCNAME ∨
          q.qtype ≠ typeCNAME ∧ ((r.followedTo (asked q) = none ∧
                r.hasRecordsForDomain (canonical q.name) q.qtype = false) ∨
              ∃ target, r.followedTo (asked q) = some target ∧
                r.hasRecordsForDomain target q.qtype = false ∧ r.isInManagedZone target)) := by
  cases hdirect : r.directRecords (asked q) with
  | some found =>
    -- the name exists, so the code is success
    have hexists : r.hasRecordsForDomain (canonical q.name) q.qtype :=
      hasRecordsForDomain_of_direct hdirect
    rw [rcode_of_success (lookup_of_direct hdirect), hexists]
    simp
  | none =>
    by_cases htype : q.qtype = typeCNAME
    · have hlookup := @lookup_of_noCNAME r sys q hdirect htype
      rw [rcode_of_failure (by rw [hlookup]; decide), hlookup]
      simp [htype]
    · have hend := @lookupCNAMEChainLoop_end r sys q.qtype q.qclass maxDepth (canonical q.name) []
      rw [← lookup_of_chain hdirect htype] at hend
      simp only [htype, false_or, ne_eq, not_false_eq_true, true_and]
      rw [followedTo_of_chain hdirect htype]
      cases hchain : r.chainEnd q.qtype q.qclass maxDepth (canonical q.name) with
      | none =>
        rw [hchain] at hend
        rw [rcode_of_success hend.1]
        simp
      | some target =>
        rw [hchain] at hend
        have hexists := hasRecordsForDomain_of_chainEnd hchain
        have hcode := resolveCNAMETarget_nameError_iff (chainEnd_not_followed hchain)
          (hend.2.symm.trans hext)
        rw [← hend.1] at hcode
        simp only [reduceCtorEq, false_and, Option.some.injEq, exists_eq_left', false_or]
        rw [← hcode]
        by_cases hzero : (r.lookup sys q).rcode = rcodeSuccess
        · rw [rcode_of_success hzero, hexists, hzero]
          simp [rcodeSuccess, rcodeNameError]
        · rw [rcode_of_failure hzero]

/-! ## Copies of wildcard records -/

variable {a : AnswerRR}

theorem not_synthesised_of_resolveCNAMETarget
    (h : a ∈ (r.resolveCNAMETarget sys target targetType qclass).records) :
    a.synthesised = false := by
  have hplain : ∀ rrs : List RR, a ∈ rrs.map (fun rr => AnswerRR.mk rr false) →
      a.synthesised = false := by
    intro rrs hmem
    obtain ⟨rr, -, rfl⟩ := mem_map.mp hmem
    rfl
  unfold resolveCNAMETarget resolveExternal at h
  dsimp only at h
  repeat' split at h
  all_goals first | exact hplain _ h | cases h

theorem mem_lookupCNAMEChainLoop (depth : ℕ) (q : Question) (chain : List AnswerRR)
    (h : a ∈ chain) : a ∈ (r.lookupCNAMEChainLoop sys targetType depth q chain).records := by
  induction depth generalizing q chain with
  | zero => exact h
  | succ depth ih =>
    rw [lookupCNAMEChainLoop]
    dsimp only
    split
    · exact h
    · split
      · split
        · exact ih _ _ (mem_append_left _ h)
        · exact mem_append_left _ (mem_append_left _ h)
      · exact mem_append_left _ h

/-- A synthesised record of a turn was in the chain, or is one of the alias records, if the
following turns add none. -/
theorem mem_turn_of_synthesised (ha : a.synthesised) {name : Bytes} {chain : List AnswerRR}
    (hrest : ∀ name' chain', r.getRecords ⟨name', typeCNAME, qclass⟩ ≠ [] →
      a ∈ (r.lookupCNAMEChainLoop sys targetType depth ⟨name', typeCNAME, qclass⟩ chain').records →
        a ∈ chain')
    (h : a ∈ (r.lookupCNAMEChainLoop sys targetType (depth + 1) ⟨name, typeCNAME, qclass⟩
      chain).records) :
    a ∈ chain ++ r.cnameRecords ⟨name, typeCNAME, qclass⟩ targetType := by
  rw [lookupCNAMEChainLoop] at h
  cases hrecords : r.cnameRecords ⟨name, typeCNAME, qclass⟩ targetType with
  | nil =>
    rw [hrecords] at h
    exact mem_append_left _ h
  | cons first rest =>
    rw [hrecords] at h
    dsimp only at h
    split at h
    · split at h
      next hcode =>
        rw [resolveCNAMETarget_follows_iff, Bool.and_eq_true] at hcode
        exact hrest _ _ ((getRecords_ne_nil_iff _).mpr hcode.2) h
      · rcases mem_append.mp h with h | h
        · exact h
        · rw [not_synthesised_of_resolveCNAMETarget h] at ha
          cases ha
    · exact h

theorem mem_chain_of_synthesised (ha : a.synthesised) (depth : ℕ)
    (name : Bytes) (chain : List AnswerRR) (hown : r.getRecords ⟨name, typeCNAME, qclass⟩ ≠ [])
    (h : a ∈
      (r.lookupCNAMEChainLoop sys targetType depth ⟨name, typeCNAME, qclass⟩ chain).records) :
    a ∈ chain := by
  induction depth generalizing name chain with
  | zero => exact h
  | succ depth ih =>
    have hplain : ∀ b ∈ r.cnameRecords ⟨name, typeCNAME, qclass⟩ targetType,
        b.synthesised = false := by
      intro b hb
      unfold cnameRecords at hb
      simp only [hown, decide_false, Bool.false_and, Bool.false_eq_true, if_false] at hb
      obtain ⟨rr, -, rfl⟩ := mem_map.mp hb
      rfl
    rcases mem_append.mp (mem_turn_of_synthesised ha ih h) with hmem | hmem
    · exact hmem
    · rw [hplain a hmem] at ha
      cases ha

theorem of_synthesised_chain (ha : a.synthesised) {name : Bytes}
    (h : a ∈ (r.lookupCNAMEChainLoop sys targetType depth ⟨name, typeCNAME, qclass⟩ []).records) :
    r.getRecords ⟨name, typeCNAME, qclass⟩ = [] ∧ supportsWildcard targetType ∧
      r.getRecords ⟨transformDomainToWildcard name, typeCNAME, qclass⟩ ≠ [] ∧ a.rr.name = name := by
  by_cases hown : r.getRecords ⟨name, typeCNAME, qclass⟩ = []
  · cases depth with
    | zero => cases h
    | succ depth =>
      have hcopy : ∀ b ∈ r.cnameRecords ⟨name, typeCNAME, qclass⟩ targetType,
          supportsWildcard targetType ∧
            r.getRecords ⟨transformDomainToWildcard name, typeCNAME, qclass⟩ ≠ [] ∧
            b.rr.name = name := by
        intro b hb
        unfold cnameRecords at hb
        rw [hown] at hb
        cases hsupports : supportsWildcard targetType with
        | false =>
          rw [hsupports] at hb
          cases hb
        | true =>
          rw [hsupports] at hb
          obtain ⟨rr, hrr, rfl⟩ := mem_map.mp hb
          exact ⟨rfl, ne_nil_of_mem hrr, rfl⟩
      exact ⟨hown, hcopy a (mem_turn_of_synthesised ha (mem_chain_of_synthesised ha depth) h)⟩
  · exact absurd (mem_chain_of_synthesised ha _ _ _ hown h) not_mem_nil

end Resolver

variable {peerConn : Option PeerConnectivity} {records : List AnswerRR} {a : AnswerRR}

theorem mem_of_mem_filterDisconnected
    (h : a ∈ filterDisconnectedPeerAnswers peerConn records) : a ∈ records := by
  unfold filterDisconnectedPeerAnswers at h
  split at h
  · exact h
  · dsimp only at h
    split at h
    · exact h
    · exact mem_of_mem_filter h

theorem mem_filterDisconnected (h : a ∈ records) (hip : extractRecordIP a.rr = none) :
    a ∈ filterDisconnectedPeerAnswers peerConn records := by
  unfold filterDisconnectedPeerAnswers
  split
  · exact h
  · dsimp only
    split
    · exact h
    · exact List.mem_filter.mpr ⟨h, by rw [hip]⟩

/-! ## When the answers are right -/

namespace Resolver

variable {r : Resolver} {sys : System} {peerConn : Option PeerConnectivity} {q : Question}

theorem get_eq_none_of_getRecords (h : r.getRecords q = []) : get r.records q = none := by
  have hno : ¬ r.hasRecord q := fun hyes => (getRecords_ne_nil_iff q).mpr hyes h
  rw [hasRecord, not_isSome_iff_eq_none] at hno
  exact hno

/-- For a name that exists, and for NS and SOA, no wildcard is looked up directly. -/
theorem directRecords_eq_none (hnone : r.getRecords q = [])
    (hwild : supportsWildcard q.qtype = false ∨ r.HasRecords q.name) :
    r.directRecords q = none := by
  rw [directRecords, get_eq_none_of_getRecords hnone]
  rcases hwild with hwild | hwild
  · rw [hwild]
    rfl
  · rw [hasRecords_iff] at hwild
    simp [hwild]

theorem getRecords_of_directRecords (h : r.directRecords q = none) : r.getRecords q = [] := by
  rw [getRecords]
  cases hget : get r.records q with
  | none => rfl
  | some rrs =>
    rw [directRecords, hget] at h
    cases h

theorem of_followedTo (h : r.followedTo q = some target) :
    r.directRecords q = none ∧ q.qtype ≠ typeCNAME ∧
      r.chainEnd q.qtype q.qclass maxDepth q.name = some target := by
  unfold followedTo at h
  split at h
  next hcond =>
    rw [Bool.and_eq_true, isNone_iff_eq_none, decide_eq_true_eq] at hcond
    exact ⟨hcond.1, hcond.2, h⟩
  · cases h

theorem exists_synthesised (htype : q.qtype ≠ typeCNAME)
    (hdirect : r.directRecords (asked q) = none) (hsupports : supportsWildcard q.qtype)
    (hcname : r.getRecords ⟨canonical q.name, typeCNAME, q.qclass⟩ = []) (hwild : r.getRecords
      ⟨transformDomainToWildcard (canonical q.name), typeCNAME, q.qclass⟩ ≠ []) :
    ∃ a ∈ r.answer sys peerConn q, a.synthesised ∧ a.rr.name = canonical q.name := by
  obtain ⟨rr, hrr⟩ := exists_mem_of_ne_nil _ hwild
  have hcopies : r.cnameRecords ⟨canonical q.name, typeCNAME, q.qclass⟩ q.qtype =
      responseFromWildRecords (canonical q.name)
        (r.getRecords ⟨transformDomainToWildcard (canonical q.name), typeCNAME, q.qclass⟩) := by
    unfold cnameRecords
    rw [hcname, hsupports]
    rfl
  have hmem : (⟨{ rr with name := canonical q.name }, true⟩ : AnswerRR) ∈
      r.cnameRecords ⟨canonical q.name, typeCNAME, q.qclass⟩ q.qtype := by
    rw [hcopies]
    exact mem_map_of_mem hrr
  have hlookup : (⟨{ rr with name := canonical q.name }, true⟩ : AnswerRR) ∈
      (r.lookup sys q).records := by
    rw [lookup_of_chain hdirect htype, maxDepth, lookupCNAMEChainLoop]
    cases hrecords : r.cnameRecords ⟨canonical q.name, typeCNAME, q.qclass⟩ q.qtype with
    | nil =>
      rw [hrecords] at hmem
      cases hmem
    | cons first rest =>
      rw [hrecords] at hmem
      dsimp only
      split
      · split
        · exact mem_lookupCNAMEChainLoop _ _ _ hmem
        · exact mem_append_left _ hmem
      · exact hmem
  refine ⟨_, mem_filterDisconnected hlookup ?_, rfl, rfl⟩
  -- what stands under CNAME is a CNAME, which has no address
  have hrrtype : rr.rrtype = typeCNAME := by
    rw [getRecords_ne_nil_iff, hasRecord, isSome_iff_exists] at hwild
    obtain ⟨rrs, hget⟩ := hwild
    rw [getRecords, hget] at hrr
    exact r.typed _ rrs hget rr hrr
  unfold RR.rrtype at hrrtype
  cases hdata : rr.data with
  | a ip | aaaa ip => simp [hdata, typeA, typeAAAA, typeCNAME] at hrrtype
  | cname target | other rrtype rdata h => rfl

theorem Right.not_wrong (hext : (r.lookup sys q).hasExternalData = false)
    (h : Right r sys peerConn q) : ¬ Wrong r q := by
  intro hwrong
  cases hwrong with
  | noCNAME htype hnone hexists =>
    have hcode := (rcode_eq_nameError_iff hext).mpr ⟨hnone, .inl htype⟩
    rcases h.nxdomain hcode with ⟨hname, hwild⟩ | ⟨target, hfollowed, -⟩
    · exact hexists.elim hname hwild
    · exact (of_followedTo hfollowed).2.1 htype
  | unseenWildcard htype hname hwild =>
    have hnone : r.getRecords (asked q) = [] := by
      by_contra hne
      exact hname ⟨q.qtype, q.qclass, hne⟩
    have hdirect := directRecords_eq_none hnone (.inl htype)
    have hcname : q.qtype ≠ typeCNAME := by
      intro hc
      rw [hc] at htype
      cases htype
    have hno : r.hasRecordsForDomain (canonical q.name) q.qtype = false := by
      rw [Bool.eq_false_iff, ne_eq, hasRecordsForDomain_iff, htype]
      simpa using hname
    have hfollowed : r.followedTo (asked q) = none := by
      rw [followedTo_of_chain hdirect hcname]
      by_contra hsome
      obtain ⟨target, htarget⟩ := ne_none_iff_exists'.mp hsome
      rw [hasRecordsForDomain_of_chainEnd htarget] at hno
      cases hno
    have hcode := (rcode_eq_nameError_iff hext).mpr
      ⟨hdirect, .inr ⟨hcname, .inl ⟨hfollowed, hno⟩⟩⟩
    rcases h.nxdomain hcode with ⟨-, hnot⟩ | ⟨target, htarget, -⟩
    · exact hnot hwild
    · rw [hfollowed] at htarget
      cases htarget
  | @unseenTargetWildcard htype target hfollowed hmanaged hname hwild =>
    obtain ⟨hdirect, hcname, hchain⟩ := of_followedTo hfollowed
    have hno : r.hasRecordsForDomain target q.qtype = false := by
      rw [Bool.eq_false_iff, ne_eq, hasRecordsForDomain_iff, htype]
      simpa using hname
    have hcode := (rcode_eq_nameError_iff hext).mpr
      ⟨hdirect, .inr ⟨hcname, .inr ⟨target, hfollowed, hno, hmanaged⟩⟩⟩
    rcases h.nxdomain hcode with ⟨hnot, -⟩ | ⟨target', htarget, -, -, hnot⟩
    · have hexists := (hasRecordsForDomain_iff _ _).mp (hasRecordsForDomain_of_chainEnd hchain)
      have htype' : supportsWildcard (asked q).qtype = false := htype
      rw [htype'] at hexists
      simp only [Bool.false_eq_true, false_and, or_false] at hexists
      exact hnot hexists
    · rw [hfollowed] at htarget
      cases htarget
      exact hnot hwild
  | wildcardCNAME htype hsupports hnone hcname hexists hwild =>
    have hdirect := directRecords_eq_none hnone (.inr hexists)
    obtain ⟨a, ha, hsynthesised, hname⟩ :=
      @exists_synthesised r sys peerConn q htype hdirect hsupports hcname hwild
    have hnot := h.wildcard a ha hsynthesised
    rw [hname] at hnot
    exact hnot hexists

theorem right_of_not_wrong (hext : (r.lookup sys q).hasExternalData = false) (h : ¬ Wrong r q) :
    Right r sys peerConn q := by
  constructor
  · intro hcode
    obtain ⟨hdirect, htype | ⟨htype, ⟨hfollowed, hno⟩ | ⟨target, hfollowed, hno, hmanaged⟩⟩⟩ :=
      (rcode_eq_nameError_iff hext).mp hcode
    · exact .inl (not_or.mp fun hexists => h (.noCNAME htype hdirect hexists))
    · rw [Bool.eq_false_iff, ne_eq, hasRecordsForDomain_iff, not_or, not_and] at hno
      refine .inl ⟨hno.1, fun hwild => ?_⟩
      cases hsupports : supportsWildcard q.qtype with
      | true => exact hno.2 hsupports hwild
      | false => exact h (.unseenWildcard hsupports hno.1 hwild)
    · rw [Bool.eq_false_iff, ne_eq, hasRecordsForDomain_iff, not_or, not_and] at hno
      refine .inr ⟨target, hfollowed, hmanaged, hno.1, fun hwild => ?_⟩
      cases hsupports : supportsWildcard q.qtype with
      | true => exact hno.2 hsupports hwild
      | false => exact h (.unseenTargetWildcard hsupports hfollowed hmanaged hno.1 hwild)
  · intro a ha hsynthesised hexists
    have hmem := mem_of_mem_filterDisconnected ha
    cases hdirect : r.directRecords (asked q) with
    | some found =>
      rw [lookup, lookupRecords, hdirect] at hmem
      obtain ⟨records, wild⟩ := found
      cases wild with
      | false =>
        obtain ⟨rr, -, rfl⟩ := mem_map.mp hmem
        cases hsynthesised
      | true =>
        -- the wildcard was looked up because the name has no records
        obtain ⟨rr, -, rfl⟩ := mem_map.mp hmem
        have hname : (asked q).name ∈ r.domains := (hasRecords_iff _).mp hexists
        unfold directRecords at hdirect
        split at hdirect
        · cases hdirect
        · rw [if_neg (by simp [hname])] at hdirect
          cases hdirect
    | none =>
      by_cases htype : q.qtype = typeCNAME
      · rw [lookup_of_noCNAME hdirect htype] at hmem
        cases hmem
      · rw [lookup_of_chain hdirect htype] at hmem
        obtain ⟨hcname, hsupports, hwild, hname⟩ := of_synthesised_chain hsynthesised hmem
        rw [hname] at hexists
        exact h (.wildcardCNAME htype hsupports (getRecords_of_directRecords hdirect) hcname
          hexists hwild)

end Resolver

/-- **When the local resolver answers rightly**: for questions that do not ask the system resolver,
if and only if the question is none of the wrong ones. -/
theorem right_iff (r : Resolver) (sys : System) (peerConn : Option PeerConnectivity) (q : Question)
    (hext : (r.lookup sys q).hasExternalData = false) : Right r sys peerConn q ↔ ¬ Wrong r q :=
  ⟨Right.not_wrong hext, right_of_not_wrong hext⟩

/-- The resolver with one address record. -/
def hostResolver : Resolver :=
  newResolver.registerRecord ⟨ascii "host.example.", 1, 300, .a (.v4 0x64400001#32)⟩

/-- The address that is registered is answered rightly. -/
theorem right_of_address_question :
    Right hostResolver (fun _ _ => .error .notFound) none ⟨ascii "Host.Example", typeA, 1⟩ := by
  refine (right_iff _ _ _ _ (by decide)).mpr fun hwrong => ?_
  cases hwrong with
  | noCNAME htype | unseenWildcard htype | unseenTargetWildcard htype =>
    exact absurd htype (by decide)
  | wildcardCNAME _ _ hnone => exact absurd hnone (by decide)

/-- A question for the CNAME of a host that has an address is answered with NXDOMAIN. -/
theorem nxdomain_for_existing_host : ¬ Right hostResolver (fun _ _ => .error .notFound) none
      ⟨ascii "host.example.", typeCNAME, 1⟩ := by
  intro h
  rcases h.nxdomain (by decide) with ⟨hname, -⟩ | ⟨target, hfollowed, -⟩
  · exact hname ⟨typeA, 1, by decide⟩
  · have hnone : hostResolver.followedTo
        (asked ⟨ascii "host.example.", typeCNAME, 1⟩) = none := by decide
    cases hfollowed

/-! ## The zone of a name -/

/-- The zone is the name, or follows one of its dots. -/
def Encloses (zone name : Bytes) : Prop := zone = name ∨ zone ≠ [] ∧ 46 :: zone <:+ name

namespace Resolver

variable (r : Resolver)

/-- The longest of the zones that enclose a name. -/
def IsZoneOf (zone name : Bytes) (nonAuth : Bool) : Prop :=
  Encloses zone name ∧ get r.zones zone = some nonAuth ∧
    ∀ zone', Encloses zone' name → zone.length < zone'.length → get r.zones zone' = none

theorem findZone_eq_some_iff (qname : Bytes) (nonAuth : Bool) : r.findZone qname = some nonAuth ↔
    ∃ zone, r.IsZoneOf zone (canonical qname) nonAuth := by
  have hmem {zone} : zone ∈ canonical qname :: parents (canonical qname) ↔
      Encloses zone (canonical qname) := by
    rw [mem_cons, mem_parents_iff, Encloses]
  have hsorted := pairwise_parents (canonical qname)
  rw [findZone, findSome?_eq_some_iff]
  constructor
  · rintro ⟨before, zone, after, hsplit, hget, hbefore⟩
    refine ⟨zone, hmem.mp (by simp [hsplit]), hget, fun zone' hzone' hlonger => ?_⟩
    rw [← hmem, hsplit, mem_append, mem_cons] at hzone'
    rw [hsplit, pairwise_append, pairwise_cons] at hsorted
    rcases hzone' with h | rfl | h
    · exact hbefore zone' h
    · exact absurd hlonger (lt_irrefl _)
    · exact absurd hlonger (hsorted.2.1.1 zone' h).not_gt
  · rintro ⟨zone, hzone, hget, hlonger⟩
    obtain ⟨before, after, hsplit⟩ := append_of_mem (hmem.mpr hzone)
    rw [hsplit, pairwise_append] at hsorted
    refine ⟨before, zone, after, hsplit, hget, fun zone' h => ?_⟩
    exact hlonger zone' (hmem.mp (by simp [hsplit, h])) (hsorted.2.2 zone' h zone mem_cons_self)

/-- **When the next handler is asked**: for NXDOMAIN, if the longest zone of the name is not
authoritative. -/
theorem serveDNS_continue_iff (sys : System) (peerConn : Option PeerConnectivity) (q : Question) :
    (r.serveDNS sys peerConn q).1 = .continue ↔ r.rcode sys q = rcodeNameError ∧
      ∃ zone, r.IsZoneOf zone (canonical (asked q).name) true := by
  rw [← findZone_eq_some_iff, serveDNS, shouldFallthrough]
  simp only [Bool.and_eq_true, decide_eq_true_eq]
  split_ifs with h
  · exact iff_of_true rfl h
  · exact iff_of_false id h

end Resolver

/-! ## Turns of the records -/

namespace Resolver

variable (r : Resolver) (q : Question)

/-- The question whose records are the answer. -/
def servedFrom : Option Question :=
  (r.directRecords q).map fun found => if found.2 then transformToWildcard q else q

theorem serveDNS_snd (sys : System) (peerConn : Option PeerConnectivity) :
    (r.serveDNS sys peerConn q).2 = (r.servedFrom (asked q)).elim r r.rotate := by
  unfold serveDNS lookupRecords servedFrom
  cases r.directRecords (asked q) with
  | none => exact (apply_ite Prod.snd _ _ _).trans (ite_self r)
  | some found =>
    obtain ⟨records, wild⟩ := found
    cases wild <;> rfl

variable (served : Question)

theorem get_rotate : get (r.rotate served).records q =
    (get r.records q).map fun rrs => if q = served then rrs.rotate 1 else rrs := by
  unfold rotate
  by_cases hq : q = served
  · subst hq
    split
    next hget => simp [hget]
    next hshort =>
      rcases hget : get r.records q with - | - | ⟨first, - | ⟨second, rest⟩⟩
      · rfl
      · simp
      · simp
      · exact absurd hget (hshort first second rest)
  · split <;> simp [hq, get_set_of_ne]

theorem servedFrom_rotate : (r.rotate served).servedFrom q = r.servedFrom q := by
  have hdomains : (r.rotate served).domains = r.domains := by
    unfold rotate
    split <;> rfl
  unfold servedFrom directRecords
  rw [get_rotate, get_rotate, hdomains]
  cases get r.records q with
  | some rrs => rfl
  | none =>
    dsimp only [Option.map_none]
    split
    · cases get r.records (transformToWildcard q) <;> rfl
    · rfl

/-- **Round robin**: each list of records is turned by the questions that it answers, and by no
others. -/
theorem getRecords_serveDNS (queries : List (System × Option PeerConnectivity × Question)) :
    (queries.foldl (fun r query => (r.serveDNS query.1 query.2.1 query.2.2).2) r).getRecords q =
      (r.getRecords q).rotate
        (queries.countP fun query => r.servedFrom (asked query.2.2) = some q) := by
  induction queries generalizing r with
  | nil => exact (rotate_zero _).symm
  | cons query queries ih =>
    rw [foldl_cons, ih, serveDNS_snd, countP_cons]
    cases hfrom : r.servedFrom (asked query.2.2) with
    | none => rfl
    | some served =>
      simp only [elim_some, servedFrom_rotate, getRecords, get_rotate]
      by_cases hq : q = served
      · cases get r.records q <;> simp [hq, rotate_rotate, add_comm]
      · simp [hq, Ne.symm hq]

end Resolver

end DNS
