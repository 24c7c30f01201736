/-
# Domain names

The operations on domain names that the resolvers of `client/internal/dns` use.  Names are in
Punycode, so only ASCII letters have case.
-/
import AnonBird.GoStrings

open GoStrings List

namespace DNSNames

/-- The lower case of a byte. -/
def lowerByte (b : UInt8) : UInt8 := if 65 ≤ b && b ≤ 90 then b + 32 else b

/-- `strings.ToLower` on names of ASCII. -/
def toLower (s : Bytes) : Bytes := s.map lowerByte

/-- `strings.EqualFold` on names of ASCII. -/
def equalFold (s t : Bytes) : Bool := toLower s = toLower t

/-- `dns.IsFqdn`: the name ends in a dot that is not escaped. -/
def isFqdn (s : Bytes) : Bool :=
  match s.reverse with
  | 46 :: rest => (rest.takeWhile (· = 92)).length % 2 = 0
  | _ => false

/-- `dns.Fqdn`: the name with its final dot. -/
def fqdn (s : Bytes) : Bytes := if isFqdn s then s else s ++ [46]

/-- `strings.ToLower(dns.Fqdn(s))`. -/
def canonical (s : Bytes) : Bytes := toLower (fqdn s)

/-- `transformDomainToWildcard`: the first label becomes a star. -/
def transformDomainToWildcard (domain : Bytes) : Bytes := 42 :: domain.dropWhile (· ≠ 46)

/-- What follows the dots of a name, but for the last one. -/
def parents : Bytes → List Bytes
  | [] => []
  | b :: rest => if b = 46 then (if rest = [] then [] else rest :: parents rest) else parents rest

theorem toLower_toLower (s : Bytes) : toLower (toLower s) = toLower s := by
  have hbyte : ∀ b : UInt8, lowerByte (lowerByte b) = lowerByte b := by
    intro b
    unfold lowerByte
    grind
  rw [toLower, toLower, List.map_map]
  apply List.map_congr_left
  intro b _
  exact hbyte b

@[simp] theorem toLower_canonical (s : Bytes) : toLower (canonical s) = canonical s :=
  toLower_toLower _

theorem mem_parents_iff {zone name : Bytes} :
    zone ∈ parents name ↔ zone ≠ [] ∧ 46 :: zone <:+ name := by
  induction name with
  | nil => simp [parents]
  | cons b rest ih =>
    rw [parents, suffix_cons_iff, cons.injEq]
    grind

theorem pairwise_parents (name : Bytes) :
    (name :: parents name).Pairwise fun a b => b.length < a.length := by
  induction name with
  | nil => simp [parents]
  | cons b rest ih =>
    refine pairwise_cons.mpr ⟨fun zone hzone => (mem_parents_iff.mp hzone).2.length_le, ?_⟩
    rw [parents]
    split_ifs
    · exact .nil
    · exact ih
    · exact (pairwise_cons.mp ih).2

end DNSNames
