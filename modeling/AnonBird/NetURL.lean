/-
# URLs

`url.Parse` of `net/url` as far as the host goes: the scheme, the authority and its host
with the percent decoding and the checks on the way, and all the ways in which parsing can
fail.  The path, the query and the fragment are checked and dropped.
-/
import AnonBird.GoText
import AnonBird.IPText

open GoStrings GoText

namespace NetURL

/-- The parts of a URL that are decoded differently. -/
inductive Encoding where
  | path
  | host
  | zone
  | userPassword
  | fragment
  deriving DecidableEq

/-- ASCII letters and digits. -/
def isAlnum (b : UInt8) : Bool := (97 ≤ b && b ≤ 122) || (65 ≤ b && b ≤ 90) || isDigit b

/-- `shouldEscape` in a host or a zone. -/
def shouldEscape (b : UInt8) : Bool :=
  !(isAlnum b || (ascii "!$&'()*+,;=:[]<>\"-_.~").contains b)

/-- Whether `unescape` takes the escaped byte. -/
def escapeAllowed (mode : Encoding) (v : ℕ) : Bool :=
  match mode with
  | .host => 128 ≤ v || v = 37
  | .zone => v = 37 || v = 32 || !shouldEscape (UInt8.ofNat v)
  | _ => true

/-- Whether `unescape` takes the byte as it is. -/
def plainAllowed (mode : Encoding) (b : UInt8) : Bool :=
  match mode with
  | .host | .zone => 128 ≤ b || !shouldEscape b
  | _ => true

/-- `unescape`; `none` is its error. -/
def unescape (mode : Encoding) : Bytes → Option Bytes
  | [] => some []
  | b :: s =>
    if b = 37 then
      match s with
      | x :: y :: s =>
        match NetIP.hexValue x, NetIP.hexValue y with
        | some h, some l =>
          if escapeAllowed mode (h * 16 + l) then
            (unescape mode s).map fun t => UInt8.ofNat (h * 16 + l) :: t
          else none
        | _, _ => none
      | _ => none
    else if plainAllowed mode b then (unescape mode s).map fun t => b :: t
    else none

/-- The part before the first `sep`. -/
def before (sep : UInt8) (s : Bytes) : Bytes := s.takeWhile fun b => b ≠ sep

/-- `getScheme`: the scheme and what follows its colon. -/
def getScheme (raw : Bytes) : Option (Bytes × Bytes) :=
  let scheme := raw.takeWhile fun b => isAlnum b || b = 43 || b = 45 || b = 46
  if (raw.drop scheme.length).head? = some 58 then
    if scheme = [] then none
    else if isAlnum (byteAt raw 0) && !isDigit (byteAt raw 0) then
      some (scheme, raw.drop (scheme.length + 1))
    else some ([], raw)
  else some ([], raw)

/-- Nothing, or a colon and digits. -/
def validOptionalPort (port : Bytes) : Bool :=
  match port with
  | [] => true
  | b :: digits => b = 58 && digits.all isDigit

/-- The bracketed case of `parseHost`: only an IPv6 address may stand in brackets. -/
def parseBracketed (host : Bytes) (first : ℕ) : Option Bytes := do
  let last ← lastIndexByte host 93
  let colonPort := host.drop (last + 1)
  if !validOptionalPort colonPort then failure
  let colonPort ← unescape .host colonPort
  let hostname := slice host (first + 1) last
  let hostname ←
    match hostname.tails.findIdx? fun t => (ascii "%25").isPrefixOf t with
    | some zone => do
      let addr ← unescape .host (hostname.take zone)
      let zone ← unescape .zone (hostname.drop zone)
      pure (addr ++ zone)
    | none => unescape .host hostname
  match NetIP.parseAddr hostname with
  | some (.v6 _ _) => return [91] ++ hostname ++ [93] ++ colonPort
  | _ => failure

/-- The host of an authority, unescaped. -/
def parseHost (host : Bytes) : Option Bytes :=
  match lastIndexByte host 91 with
  | some first => parseBracketed host first
  | none =>
    match lastIndexByte host 58 with
    | some i => if validOptionalPort (host.drop i) then unescape .host host else none
    | none => unescape .host host

/-- The characters of user information. -/
def validUserinfo (s : Bytes) : Bool :=
  s.all fun b => isAlnum b || (ascii "-._:~!$&'()*+,;=%@").contains b

/-- `parseAuthority`; the user is checked and dropped. -/
def parseAuthority (authority : Bytes) : Option Bytes :=
  match lastIndexByte authority 64 with
  | none => parseHost authority
  | some i =>
    match parseHost (authority.drop (i + 1)) with
    | none => none
    | some host =>
      let userinfo := authority.take i
      if validUserinfo userinfo && (unescape .userPassword userinfo).isSome then some host else none

/-- What `url.Parse` returns, as far as it is used. -/
structure URL where
  host : Bytes
  deriving DecidableEq

/-- `parse` with the scheme cut off, and the query. -/
def parseRest (scheme rest : Bytes) : Option URL :=
  if !hasPrefix rest (ascii "/") && scheme ≠ [] then some ⟨[]⟩
  else if !hasPrefix rest (ascii "/") && (before 47 rest).contains 58 then none
  else if hasPrefix rest (ascii "//") && (scheme ≠ [] || !hasPrefix rest (ascii "///")) then
    let authority := before 47 (rest.drop 2)
    match parseAuthority authority, unescape .path ((rest.drop 2).drop authority.length) with
    | some host, some _ => some ⟨host⟩
    | _, _ => none
  else (unescape .path rest).map fun _ => ⟨[]⟩

/-- `parse`. -/
def parseNoFragment (raw : Bytes) : Option URL :=
  if raw.any fun b => b < 32 || b = 127 then none
  else if raw = ascii "*" then some ⟨[]⟩
  else
    match getScheme raw with
    | none => none
    | some (scheme, rest) => parseRest scheme (before 63 rest)

/-- `url.Parse`; `none` is its error. -/
def parse (raw : Bytes) : Option URL :=
  match parseNoFragment (before 35 raw),
    unescape .fragment (raw.drop ((before 35 raw).length + 1)) with
  | some u, some _ => some u
  | _, _ => none

/-- `Hostname`: the host without the port and the brackets. -/
def URL.hostname (u : URL) : Bytes :=
  let host :=
    match lastIndexByte u.host 58 with
    | some i => if validOptionalPort (u.host.drop i) then u.host.take i else u.host
    | none => u.host
  if hasPrefix host [91] && hasSuffix host [93] then slice host 1 (host.length - 1) else host

example : (parse (ascii "https://u:p@x.onion:443/keys?q#f")).map URL.hostname =
    some (ascii "x.onion") := by decide +kernel

/-! ## Strings without an authority -/

theorem not_hasPrefix_slash {s : Bytes} (h : s.head? ≠ some 47) (t : Bytes) :
    hasPrefix s (47 :: t) = false := by
  rw [hasPrefix, Bool.eq_false_iff]
  intro hpre
  obtain ⟨r, rfl⟩ := List.isPrefixOf_iff_prefix.mp hpre
  exact h rfl

open Option

theorem mem_of_getScheme {raw scheme rest : Bytes} (h : getScheme raw = some (scheme, rest)) :
    ∀ b ∈ rest, b ∈ raw := by
  rw [getScheme] at h
  split at h
  · split at h
    · simp at h
    · split at h
      · obtain ⟨_, rfl⟩ := Prod.mk.inj (some.inj h)
        exact fun b hb => List.mem_of_mem_drop hb
      · obtain ⟨_, rfl⟩ := Prod.mk.inj (some.inj h)
        exact fun b hb => hb
  · obtain ⟨_, rfl⟩ := Prod.mk.inj (some.inj h)
    exact fun b hb => hb

theorem parseRest_no_slash {scheme rest : Bytes} {u : URL} (hslash : rest.head? ≠ some 47)
    (h : parseRest scheme rest = some u) : u = ⟨[]⟩ := by
  have hone : hasPrefix rest (ascii "/") = false := not_hasPrefix_slash hslash []
  have htwo : hasPrefix rest (ascii "//") = false := not_hasPrefix_slash hslash (ascii "/")
  rw [parseRest, hone, htwo] at h
  split at h
  · exact (some.inj h).symm
  · split at h
    · simp at h
    · rw [if_neg (by simp)] at h
      obtain ⟨_, _, hu⟩ := map_eq_some_iff.mp h
      exact hu.symm

/-- There is no host unless a slash follows the scheme. -/
theorem hostname_eq_nil {raw : Bytes} {u : URL} (h : parse raw = some u)
    (hrest : ∀ scheme rest, getScheme (before 35 raw) = some (scheme, rest) →
      (before 63 rest).head? ≠ some 47) : u.hostname = [] := by
  suffices hu : u = ⟨[]⟩ by
    rw [hu]
    rfl
  rw [parse] at h
  split at h
  next v _ hparse _ =>
    cases h
    rw [parseNoFragment] at hparse
    split at hparse
    · simp at hparse
    · split at hparse
      · exact (some.inj hparse).symm
      · split at hparse
        · simp at hparse
        next scheme rest hscheme =>
          exact parseRest_no_slash (hrest scheme rest hscheme) hparse
  · simp at h

theorem mem_of_mem_before {sep b : UInt8} {s : Bytes} (h : b ∈ before sep s) : b ∈ s := by
  have hfront : before sep s <+: s := List.takeWhile_prefix _
  exact hfront.subset h

theorem hostname_of_no_slash {raw : Bytes} {u : URL} (hslash : 47 ∉ raw)
    (h : parse raw = some u) : u.hostname = [] := by
  refine hostname_eq_nil h fun scheme rest hscheme hhead => hslash ?_
  have hmem := mem_of_mem_before (List.mem_of_head? hhead)
  exact mem_of_mem_before (mem_of_getScheme hscheme _ hmem)

end NetURL
