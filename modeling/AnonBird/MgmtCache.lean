/-
# Answers for the management cache

Model of `lookupViaChain` of `client/internal/dns/mgmt/mgmt.go`: the records that are cached for a
name, out of the answer of the handler chain.
-/
import AnonBird.LinkClosure
import AnonBird.LocalResolver

open GoStrings DNSNames List Relation LinkClosure

namespace DNS

/-- The two names of a CNAME record. -/
def RR.link (rr : RR) : Option (Bytes × Bytes) :=
  match rr.data with
  | .cname target => some (canonical rr.name, canonical target)
  | _ => none

/-- The names that the aliases of a reply lead to. -/
def cnameOwners (dnsName : Bytes) (answer : List RR) : Finset Bytes :=
  linked (answer.filterMap RR.link) {dnsName}

theorem mem_cnameOwners_iff {dnsName n : Bytes} {answer : List RR} :
    n ∈ cnameOwners dnsName answer ↔
      ReflTransGen (fun a b => (a, b) ∈ answer.filterMap RR.link) dnsName n := by
  rw [cnameOwners, mem_linked_iff]
  simp

/-- An address record under another name. -/
def cloneIPRecord (rr : RR) (owner : Bytes) (ttl : UInt32) : Option RR :=
  match rr.data with
  | .a _ | .aaaa _ => some { rr with name := owner, ttl := ttl }
  | _ => none

/-- `lookupViaChain`, with what `ResolveInternal` returns. -/
def lookupViaChain (rcodeToString : ℤ → String) (dnsName : Bytes) (qtype : UInt16) (ttl : UInt32)
    (resolved : Except String (Option (ℤ × List RR))) : Except String (List RR) :=
  match resolved with
  | .error err => .error ("chain resolve: " ++ err)
  | .ok none => .error "chain resolve returned nil response"
  | .ok (some (rcode, answer)) =>
    if rcode ≠ rcodeSuccess then .error ("chain resolve rcode=" ++ rcodeToString rcode)
    else
      let owners := cnameOwners dnsName answer
      .ok (answer.filterMap fun rr =>
        if rr.rclass ≠ 1 ∨ rr.rrtype ≠ qtype then none
        else if canonical rr.name ∉ owners then none
        else cloneIPRecord rr dnsName ttl)

/-- **Only what the CNAMEs lead to is cached**, in whatever order they stand in the answer. -/
theorem cached_iff_linked (rcodeToString : ℤ → String) (dnsName : Bytes) (qtype : UInt16)
    (ttl : UInt32) (resolved : Except String (Option (ℤ × List RR))) (kept : RR) :
    (∃ records, lookupViaChain rcodeToString dnsName qtype ttl resolved = .ok records ∧
      kept ∈ records) ↔
    ∃ answer, resolved = .ok (some (rcodeSuccess, answer)) ∧ ∃ rr ∈ answer,
      rr.rclass = 1 ∧ rr.rrtype = qtype ∧ cloneIPRecord rr dnsName ttl = some kept ∧
      ReflTransGen (fun a b => (a, b) ∈ answer.filterMap RR.link) dnsName (canonical rr.name) := by
  unfold lookupViaChain
  split
  · simp
  · simp
  next rcode answer =>
    split_ifs with hrcode
    · simp [hrcode]
    · rw [not_not.mp hrcode]
      simp only [Except.ok.injEq, exists_eq_left', Option.some.injEq, Prod.mk.injEq, true_and,
        ← mem_cnameOwners_iff]
      rw [mem_filterMap]
      refine exists_congr fun rr => and_congr_right fun _ => ?_
      split_ifs <;> tauto

end DNS
