/-
# The address of a client behind trusted proxies

The reverse proxy takes the address of a client from `X-Forwarded-For` if its direct peer is a
trusted proxy (`ResolveClientIP`).  It walks the addresses from the right to the first untrusted
one, but only those of the first header line, so an address that a trusted proxy appended in a line
of its own is not seen, and the client chooses its address.
-/
import AnonBird.IPText
import AnonBird.GoText

open GoStrings GoText NetIP List

namespace ClientAddress

/-- `netip.ParseAddrPort`, of which only the address is used. -/
def parseAddrPort (s : Bytes) : Option Addr :=
  match lastIndexByte s 58 with
  | none => none
  | some i =>
    let ip := s.take i
    let port := s.drop (i + 1)
    let v6 := byteAt ip 0 = 91
    if ip = [] ∨ port = [] ∨ (v6 ∧ (ip.length < 2 ∨ ip.getLast? ≠ some 93)) then none
    else if parseUint port 16 = none then none
    else (parseAddr (if v6 then slice ip 1 (ip.length - 1) else ip)).filter fun addr =>
      addr.bitLen = if v6 then 128 else 32

/-- The address in a host with or without a port. -/
def extractHostIP (hostPort : Bytes) : Option Addr :=
  ((parseAddrPort hostPort).or (parseAddr hostPort)).map Addr.unmap

variable (trusted : List Prefix)

/-- An address is that of a trusted proxy. -/
def isTrustedAddr : Option Addr → Bool
  | none => false
  | some addr => trusted.any fun p => p.contains addr

/-- The address in a part of the header. -/
def parsePart (part : Bytes) : Option Addr :=
  let ip := trimSpace part
  if ip = [] then none else (parseAddr ip).map Addr.unmap

/-- The body of the loop of `ResolveClientIP`: what it returns. -/
def untrustedPart (part : Bytes) : Option Addr :=
  (parsePart part).filter fun addr => !isTrustedAddr trusted (some addr)

/-- The address of the client behind trusted proxies. -/
def resolveClientIP (remoteAddr xff : Bytes) : Option Addr :=
  let remoteIP := extractHostIP remoteAddr
  if trusted = [] ∨ !isTrustedAddr trusted remoteIP then remoteIP
  else if xff = [] then remoteIP
  else
    let parts := xff.splitOn 44
    match parts.reverse.findSome? (untrustedPart trusted) with
    | some addr => some addr
    | none => (parsePart (parts.headD [])).or remoteIP

/-- `extractSourceIP`, over the lines of the header: `Header.Get` gives the first one. -/
def extractSourceIP (remoteAddr : Bytes) (lines : List Bytes) : Option Addr :=
  resolveClientIP trusted remoteAddr (lines.headD [])

/-! ## The rightmost untrusted address -/

/-- The parts of header lines. -/
def parts (lines : List Bytes) : List Bytes := lines.flatMap fun line => line.splitOn 44

/-- The rightmost untrusted address of some parts. -/
def rightmost (ps : List Bytes) : Option Addr := (ps.filterMap (untrustedPart trusted)).getLast?

variable {trusted}

theorem rightmost_append (ps qs : List Bytes) :
    rightmost trusted (ps ++ qs) = (rightmost trusted qs).or (rightmost trusted ps) := by
  rw [rightmost, filterMap_append, getLast?_append]
  rfl

theorem not_trusted_of_rightmost {ps : List Bytes} {addr : Addr}
    (h : rightmost trusted ps = some addr) : isTrustedAddr trusted (some addr) = false := by
  obtain ⟨part, -, hpart⟩ := mem_filterMap.mp (mem_of_getLast? h)
  simpa using (Option.filter_eq_some_iff.mp hpart).2

/-- **One line.**  With a trusted peer an untrusted address is resolved exactly if it is the
rightmost one of the line. -/
theorem resolveClientIP_iff {remoteAddr : Bytes}
    (hremote : isTrustedAddr trusted (extractHostIP remoteAddr)) {addr : Addr}
    (haddr : isTrustedAddr trusted (some addr) = false) (xff : Bytes) :
    resolveClientIP trusted remoteAddr xff = some addr ↔
      rightmost trusted (xff.splitOn 44) = some addr := by
  have hpeer : extractHostIP remoteAddr ≠ some addr := by
    intro heq
    rw [heq, haddr] at hremote
    cases hremote
  have hnonempty : trusted ≠ [] := by
    rintro rfl
    cases h : extractHostIP remoteAddr <;> simp [h, isTrustedAddr] at hremote
  rw [resolveClientIP, if_neg (by simp [hremote, hnonempty]), rightmost, getLast?_filterMap]
  split
  next hxff =>
    subst hxff
    exact iff_of_false hpeer (by simp [untrustedPart, parsePart, trimSpace, dropWords])
  · dsimp only
    cases hwalk : (xff.splitOn 44).reverse.findSome? (untrustedPart trusted) with
    | some found => rfl
    | none =>
      -- the leftmost address is trusted, as all of them are
      refine iff_of_false (fun h => ?_) (by simp)
      rcases Option.or_eq_some_iff.mp h with hfirst | ⟨-, hlast⟩
      · cases hparts : xff.splitOn 44 with
        | nil => simp [hparts, parsePart, trimSpace, dropWords] at hfirst
        | cons part rest =>
          rw [hparts, headD_cons] at hfirst
          have hnone := findSome?_eq_none_iff.mp hwalk part (by simp [hparts])
          simp [untrustedPart, hfirst, haddr] at hnone
      · exact hpeer hlast

/-- **The address of the client is the rightmost untrusted one exactly if the first header line has
it**: with a trusted peer, and whatever the client put before the part that trusted proxies
appended. -/
theorem resolved_rightmost_iff {remoteAddr : Bytes}
    (hremote : isTrustedAddr trusted (extractHostIP remoteAddr)) {lines : List Bytes}
    (client appended : List Bytes) (hlines : parts lines = client ++ appended) {addr : Addr}
    (haddr : rightmost trusted appended = some addr) :
    extractSourceIP trusted remoteAddr lines = some addr ↔
      ∀ later, rightmost trusted (parts lines.tail) = some later →
        rightmost trusted (parts (lines.take 1)) = some later := by
  have hall : rightmost trusted (parts lines) = some addr := by
    rw [hlines, rightmost_append, haddr, Option.some_or]
  rw [extractSourceIP, resolveClientIP_iff hremote (not_trusted_of_rightmost haddr)]
  cases lines with
  | nil => cases hall
  | cons line lines =>
    have hsplit : parts (line :: lines) = line.splitOn 44 ++ parts lines := flatMap_cons
    have hfirst : parts ((line :: lines).take 1) = line.splitOn 44 := by simp [parts]
    rw [hsplit, rightmost_append] at hall
    rw [hfirst, headD_cons, tail_cons]
    cases hlater : rightmost trusted (parts lines) with
    | none => simpa [hlater] using hall
    | some later =>
      rw [hlater, Option.some_or] at hall
      simp [hall]

/-- A proxy of the private network. -/
def privateNetwork : List Prefix := [⟨.v4 0x0A000000#32, 8⟩]

/-- The client put an address before the one that the trusted proxy appended to its line. -/
theorem resolved_in_one_line :
    extractSourceIP privateNetwork (ascii "10.0.0.1:443") [ascii "1.2.3.4, 5.6.7.8"] =
      some (.v4 0x05060708#32) := by
  refine (resolved_rightmost_iff ?_ [ascii "1.2.3.4"] [ascii " 5.6.7.8"] ?_ ?_).mpr ?_
  all_goals decide +kernel

/-- The trusted proxy appended a line of its own, and the address of the client's line is taken. -/
theorem forged_in_first_line :
    extractSourceIP privateNetwork (ascii "10.0.0.1:443") [ascii "1.2.3.4", ascii "5.6.7.8"] =
      some (.v4 0x01020304#32) ∧
    rightmost privateNetwork (parts [ascii "1.2.3.4", ascii "5.6.7.8"]) =
      some (.v4 0x05060708#32) := by
  decide +kernel

end ClientAddress
