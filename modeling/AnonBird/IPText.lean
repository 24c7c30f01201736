/-
# IP addresses as text

`netip.ParseAddr` and `net.ParseIP`, and the texts that `netip` prints.  An address with a
dot before any colon is an IPv4 address in dotted decimal form; one with a colon is an IPv6
address, whose fields are hexadecimal, with at most one `::`, possibly an embedded IPv4
address at the end and a zone behind a percent sign.
-/
import AnonBird.NetIP

open GoStrings List

namespace NetIP

/-! ## IPv4 -/

/-- A decimal number up to 255, without leading zeros. -/
def octet (s : Bytes) : Option UInt8 :=
  if s = [] ∨ ¬ s.all isDigit ∨ (1 < s.length ∧ byteAt s 0 = 48) ∨ 255 < decimal s then none
  else some (UInt8.ofNat (decimal s))

/-- The four numbers of an IPv4 address. -/
def parseIPv4Fields (s : Bytes) : Option Bytes :=
  match s.splitOn 46 with
  | [a, b, c, d] => do
    let a ← octet a
    let b ← octet b
    let c ← octet c
    let d ← octet d
    return [a, b, c, d]
  | _ => none

/-! ## IPv6 -/

/-- The value of a hexadecimal digit. -/
def hexValue (b : UInt8) : Option ℕ :=
  if isDigit b then some (b.toNat - 48)
  else if 97 ≤ b && b ≤ 102 then some (b.toNat - 87)
  else if 65 ≤ b && b ≤ 70 then some (b.toNat - 55)
  else none

/-- The loop of `parseIPv6` over the fields: the bytes so far, where `::` was, and the rest
of the text.  There are at most eight fields. -/
def parseIPv6Fields : ℕ → Bytes → Option ℕ → Bytes → Option (Bytes × Option ℕ × Bytes)
  | 0, ip, ellipsis, s => some (ip, ellipsis, s)
  | n + 1, ip, ellipsis, s =>
    let digits := (s.takeWhile fun b => (hexValue b).isSome).filterMap hexValue
    let rest := s.dropWhile fun b => (hexValue b).isSome
    if digits.length = 0 ∨ 4 < digits.length then none
    else if rest.head? = some 46 then
      -- the rest has to be an embedded IPv4 address
      if (ellipsis = none ∧ ip.length ≠ 12) ∨ 16 < ip.length + 4 then none
      else (parseIPv4Fields s).map fun fields => (ip ++ fields, ellipsis, [])
    else
      let value := digits.foldl (fun acc d => acc * 16 + d) 0
      let ip := ip ++ [UInt8.ofNat (value / 256), UInt8.ofNat (value % 256)]
      match rest with
      | [] => some (ip, ellipsis, [])
      | [58] => none
      | 58 :: 58 :: rest =>
        if ellipsis.isSome then none
        else if rest = [] then some (ip, some ip.length, [])
        else parseIPv6Fields n ip (some ip.length) rest
      | 58 :: rest => parseIPv6Fields n ip ellipsis rest
      | _ => none

/-- The end of `parseIPv6`: what `::` stands for. -/
def expandEllipsis (ip : Bytes) (ellipsis : Option ℕ) : Option Bytes :=
  match ellipsis with
  | none => if ip.length = 16 then some ip else none
  | some i =>
    if ip.length = 16 then none
    else some (ip.take i ++ replicate (16 - ip.length) 0 ++ ip.drop i)

/-- `parseIPv6`, without its zone. -/
def parseIPv6 (s : Bytes) : Option Bytes :=
  match s with
  | [58, 58] => some (replicate 16 0)
  | 58 :: 58 :: s =>
    match parseIPv6Fields 8 [] (some 0) s with
    | some (ip, ellipsis, []) => expandEllipsis ip ellipsis
    | _ => none
  | s =>
    match parseIPv6Fields 8 [] none s with
    | some (ip, ellipsis, []) => expandEllipsis ip ellipsis
    | _ => none

/-- `netip.ParseAddr`; `none` is its error. -/
def parseAddr (s : Bytes) : Option Addr :=
  match s.find? fun b => b = 46 || b = 58 || b = 37 with
  | some 46 => (parseIPv4Fields s).map fun ip => .v4 (BitVec.ofNat 32 (bigEndian ip))
  | some 58 =>
    match s.idxOf? 37 with
    | none => (parseIPv6 s).map fun ip => .v6 (BitVec.ofNat 128 (bigEndian ip)) []
    | some i =>
      if s.drop (i + 1) = [] then none
      else (parseIPv6 (s.take i)).map fun ip =>
        .v6 (BitVec.ofNat 128 (bigEndian ip)) (s.drop (i + 1))
  | _ => none

/-- `net.ParseIP`, which takes no zone. -/
def parseIP (s : Bytes) : Option Addr := (parseAddr s).filter fun addr => addr.zone = []

/-! ## Printing -/

/-- The dotted decimal form of an IPv4 address. -/
def formatIPv4 (v : ℕ) : Bytes :=
  [46].intercalate ((Addr.toBytes 4 v).map fun b => formatUint b.toNat)

/-- A number in lower-case hexadecimal digits. -/
def formatHex (n : ℕ) : Bytes :=
  if n = 0 then [48]
  else (Nat.digits 16 n).reverse.map fun d => UInt8.ofNat (if d < 10 then 48 + d else 87 + d)

/-- The eight fields of an IPv6 address. -/
def fields16 (v : ℕ) : List ℕ := (range 8).reverse.map fun i => v / 65536 ^ i % 65536

/-- The first of the longest runs of at least two zero fields: where it starts and ends. -/
def zeroRun (fields : List ℕ) : Option (ℕ × ℕ) :=
  (range 8).foldl (fun best i =>
    let len := ((fields.drop i).takeWhile (· = 0)).length
    let longest := (best.map fun run => run.2 - run.1).getD 0
    if 2 ≤ len ∧ longest < len then some (i, i + len) else best) none

/-- `appendTo6`, without the zone. -/
def formatIPv6 (v : ℕ) : Bytes :=
  let text (fields : List ℕ) := [58].intercalate (fields.map formatHex)
  match zeroRun (fields16 v) with
  | none => text (fields16 v)
  | some (i, j) => text ((fields16 v).take i) ++ [58, 58] ++ text ((fields16 v).drop j)

/-- `Addr.String` of an address; the zero `Addr` is `none`. -/
def addrString : Option Addr → Bytes
  | none => ascii "invalid IP"
  | some (.v4 b) => formatIPv4 b.toNat
  | some (.v6 b zone) =>
    let text :=
      if (Addr.v6 b zone).is4In6 then ascii "::ffff:" ++ formatIPv4 (b.toNat % 2 ^ 32)
      else formatIPv6 b.toNat
    if zone = [] then text else text ++ 37 :: zone

/-- `Prefix.String`; the zero `Prefix` is `none`. -/
def prefixString : Option Prefix → Bytes
  | none => ascii "invalid Prefix"
  | some p => addrString (some p.addr) ++ 47 :: formatUint p.bits

example : addrString (some (.v6 0xFD000000000000000001000000000010#128 [])) =
    ascii "fd00::1:0:0:10" := by decide +kernel

/-! ## Addresses without a zone -/

theorem isDigit_of_octet {s : Bytes} {n : UInt8} (h : octet s = some n) : ∀ b ∈ s, isDigit b := by
  rw [octet] at h
  split at h
  · simp at h
  next hcond =>
    simp only [not_or, not_not] at hcond
    exact all_eq_true.mp hcond.2.1

theorem mem_of_parseIPv4Fields {s ip : Bytes} (h : parseIPv4Fields s = some ip) :
    ∀ x ∈ s, isDigit x ∨ x = 46 := by
  rw [parseIPv4Fields] at h
  split at h
  next a b c d hsplit =>
    have hjoin : [46].intercalate (s.splitOn 46) = s := intercalate_splitOn 46
    rw [hsplit, show [46].intercalate [a, b, c, d] = a ++ 46 :: (b ++ 46 :: (c ++ 46 :: d)) by
      simp [intercalate]] at hjoin
    simp only [Option.bind_eq_bind, Option.bind_eq_some_iff] at h
    obtain ⟨_, ha, _, hb, _, hc, _, hd, _⟩ := h
    intro x hx
    rw [← hjoin] at hx
    simp only [mem_append, mem_cons] at hx
    rcases hx with hx | rfl | hx | rfl | hx | rfl | hx
    · exact .inl (isDigit_of_octet ha x hx)
    · exact .inr rfl
    · exact .inl (isDigit_of_octet hb x hx)
    · exact .inr rfl
    · exact .inl (isDigit_of_octet hc x hx)
    · exact .inr rfl
    · exact .inl (isDigit_of_octet hd x hx)
  · simp at h

/-- A byte of an address: a hexadecimal digit, a dot or a colon. -/
def AddrByte (b : UInt8) : Prop := (hexValue b).isSome ∨ b = 46 ∨ b = 58

theorem AddrByte.toNat_cases {b : UInt8} (h : AddrByte b) :
    48 ≤ b.toNat ∧ b.toNat ≤ 57 ∨ 97 ≤ b.toNat ∧ b.toNat ≤ 102 ∨ 65 ≤ b.toNat ∧ b.toNat ≤ 70 ∨
      b.toNat = 46 ∨ b.toNat = 58 := by
  rcases h with hhex | rfl | rfl
  · unfold hexValue isDigit at hhex
    simp only [UInt8.le_iff_toNat_le, UInt8.reduceToNat] at hhex
    grind
  · simp
  · simp

theorem addrByte_of_parseIPv4Fields {s ip : Bytes} (h : parseIPv4Fields s = some ip) :
    ∀ x ∈ s, AddrByte x := by
  intro x hx
  rcases mem_of_parseIPv4Fields h x hx with hdigit | hdot
  · exact .inl (by simp [hexValue, hdigit])
  · exact .inr (.inl hdot)

theorem addrByte_of_parseIPv6Fields {n : ℕ} {ip ip' s : Bytes} {ellipsis ellipsis' : Option ℕ}
    (h : parseIPv6Fields n ip ellipsis s = some (ip', ellipsis', [])) : ∀ x ∈ s, AddrByte x := by
  induction n generalizing ip ellipsis s with
  | zero =>
    cases h
    simp
  | succ n ih =>
    have hdigits : ∀ x ∈ s.takeWhile fun b => (hexValue b).isSome, AddrByte x := by
      intro x hx
      have hsome := mem_takeWhile_imp hx
      exact .inl hsome
    have hcolon : AddrByte 58 := .inr (.inr rfl)
    have hs := takeWhile_append_dropWhile (p := fun b => (hexValue b).isSome) (l := s)
    rw [parseIPv6Fields] at h
    split at h
    · cases h
    · split at h
      · split at h
        · cases h
        · obtain ⟨fields, hfields, -⟩ := Option.map_eq_some_iff.mp h
          exact addrByte_of_parseIPv4Fields hfields
      · -- the digits of a field, and what follows the colons
        rw [← hs]
        dsimp only at h
        split at h
        next hrest =>
          rw [hrest, append_nil]
          exact hdigits
        · cases h
        next rest hrest =>
          rw [hrest]
          split at h
          · cases h
          · split at h
            next hnil =>
              rw [hnil]
              exact forall_mem_append.mpr ⟨hdigits, by simp [hcolon]⟩
            · exact forall_mem_append.mpr
                ⟨hdigits, forall_mem_cons.mpr ⟨hcolon, forall_mem_cons.mpr ⟨hcolon, ih h⟩⟩⟩
        next rest _ _ hrest =>
          rw [hrest]
          exact forall_mem_append.mpr ⟨hdigits, forall_mem_cons.mpr ⟨hcolon, ih h⟩⟩
        · cases h

theorem addrByte_of_parseIPv6 {s ip : Bytes} (h : parseIPv6 s = some ip) :
    ∀ x ∈ s, AddrByte x := by
  have hcolon : AddrByte 58 := .inr (.inr rfl)
  unfold parseIPv6 at h
  split at h
  · simp [hcolon]
  · split at h
    next hfields =>
      exact forall_mem_cons.mpr
        ⟨hcolon, forall_mem_cons.mpr ⟨hcolon, addrByte_of_parseIPv6Fields hfields⟩⟩
    · cases h
  · split at h
    next hfields => exact addrByte_of_parseIPv6Fields hfields
    · cases h

/-- An address without a zone has no other bytes. -/
theorem addrByte_of_parseAddr {s : Bytes} {addr : Addr} (h : parseAddr s = some addr)
    (hzone : addr.zone = []) : ∀ x ∈ s, AddrByte x := by
  rw [parseAddr] at h
  split at h
  · obtain ⟨ip, hip, -⟩ := Option.map_eq_some_iff.mp h
    exact addrByte_of_parseIPv4Fields hip
  · split at h
    · obtain ⟨ip, hip, -⟩ := Option.map_eq_some_iff.mp h
      exact addrByte_of_parseIPv6 hip
    · split at h
      · cases h
      next hne =>
        obtain ⟨ip, -, rfl⟩ := Option.map_eq_some_iff.mp h
        exact absurd hzone hne
  · cases h

end NetIP
