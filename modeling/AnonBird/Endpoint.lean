/-
# The transport of an endpoint

Model of `HostTransport` and `EndpointTransport`, which stand with the same text in
`shared/anonymous/endpoint.go` and `client/internal/anonymous/anonymous.go`.  An endpoint is taken
for a URL first.  When no host comes out of that, the whole string is tested as if it were a host,
and then the suffix may be found in a path, a query, a fragment or behind a user name.
-/
import AnonBird.GoRunes
import AnonBird.HostPort
import AnonBird.NetURL

open GoStrings GoText HostPort List UInt8

namespace Anonymous

/-- The transports that an endpoint can ask for. -/
inductive EndpointKind where
  | tor
  | i2p
  deriving DecidableEq

/-- The suffix of the hosts of a kind. -/
def EndpointKind.suffix : EndpointKind → Bytes
  | .tor => ascii ".onion"
  | .i2p => ascii ".b32.i2p"

/-- The port is cut off when there is one. -/
def withoutPort (host : Bytes) : Bytes :=
  if host.contains 58 then
    match splitHostPort host with
    | .ok (h, _) => trim h (ascii "[]")
    | .error _ => host
  else host

/-- The tests at the end of `HostTransport`. -/
def suffixTransport (host : Bytes) : Option EndpointKind :=
  if (NetIP.parseIP (trim host (ascii "[]"))).isSome then none
  else if hasSuffix host (ascii ".onion") then some .tor
  else if hasSuffix host (ascii ".b32.i2p") then some .i2p
  else none

variable (U : Unicode)

/-- `HostTransport`; `none` is the empty string. -/
def hostTransport (host : Bytes) : Option EndpointKind :=
  -- the dot goes before the port does
  let host := trimSuffix (trimSpace (toLower U host)) (ascii ".")
  if host = [] then none else suffixTransport (withoutPort host)

open NetURL

/-- The anonymous network of an endpoint, if it is of one. -/
def endpointTransport (endpoint : Bytes) : Option EndpointKind :=
  match parse endpoint with
  | some u => if u.hostname ≠ [] then hostTransport U u.hostname else hostTransport U endpoint
  | none => hostTransport U endpoint

/-! ## The host of an endpoint -/

/-- Where the host and the port of an endpoint without a scheme stand: before the first `/`, `?` or
`#`, and behind the user. -/
def hostAndPort (endpoint : Bytes) : Bytes :=
  let authority := endpoint.takeWhile fun b => b ≠ 47 && b ≠ 63 && b ≠ 35
  match lastIndexByte authority 64 with
  | some i => authority.drop (i + 1)
  | none => authority

/-- The host of an endpoint without a scheme. -/
def schemelessHost (endpoint : Bytes) : Bytes :=
  match splitHostPort (hostAndPort endpoint) with
  | .ok (host, _) => host
  | .error _ => hostAndPort endpoint

/-- The host of an endpoint as a URL, empty if there is none. -/
def urlHost (endpoint : Bytes) : Bytes :=
  match parse endpoint with
  | some u => u.hostname
  | none => []

/-- The host that a dialer uses for an endpoint. -/
def dialHost (endpoint : Bytes) : Bytes :=
  if urlHost endpoint ≠ [] then urlHost endpoint else schemelessHost endpoint

/-- A host of a kind: no IP literal, and it ends in the suffix, up to case and one dot. -/
def OfKind (k : EndpointKind) (host : Bytes) : Prop :=
  NetIP.parseAddr host = none ∧ k.suffix <:+ trimSuffix (toLower U host) (ascii ".")

/-- A string with white space at its end. -/
def EndsInSpace (s : Bytes) : Prop := ∃ w ∈ spaces, w <:+ toLower U s

/-- An IP literal with a zone. -/
def Zoned (host : Bytes) : Prop := ∃ addr ∈ NetIP.parseAddr host, addr.zone ≠ []

/-- A string that can be taken apart into a host and a port. -/
def Splits (s : Bytes) : Prop := (splitHostPort s).isOk

/-- A string without a path, a query and a fragment. -/
def NoTail (s : Bytes) : Prop := 47 ∉ s ∧ 63 ∉ s ∧ 35 ∉ s

/-- A string in lower case, without the white space around it and a final dot. -/
def normalized (s : Bytes) : Bytes := trimSuffix (trimSpace (toLower U s)) (ascii ".")

/-- The end of the host is what is tested.  In a URL, the host is not taken apart once more.
Otherwise the endpoint as a whole can be taken apart exactly if the part with the host and the port
can, and behind the host there is nothing but the port, and what follows it. -/
def HostTested (endpoint : Bytes) : Prop :=
  if urlHost endpoint ≠ [] then ¬ Splits (normalized U (urlHost endpoint))
  else
    match splitHostPort (normalized U endpoint) with
    | .ok (host, _) => NoTail host ∧ Splits (hostAndPort endpoint)
    | .error _ => NoTail endpoint ∧ ¬ Splits (hostAndPort endpoint)

/-! ## Suffixes -/

variable {host : Bytes} {k : EndpointKind}

/-- The host ends in the suffix of its network. -/
theorem suffix_of_suffixTransport (h : suffixTransport host = some k) : k.suffix <:+ host := by
  rw [suffixTransport] at h
  split at h
  · simp at h
  · split at h
    next hsuffix =>
      cases h
      exact isSuffixOf_iff_suffix.mp hsuffix
    · split at h
      next hsuffix =>
        cases h
        exact isSuffixOf_iff_suffix.mp hsuffix
      · simp at h

variable {s : Bytes}

/-- Two ends of a text end in the same byte. -/
theorem getLast?_eq_of_suffix {t u : Bytes} (hs : s <:+ u) (ht : t <:+ u) (hne : s ≠ [])
    (hne' : t ≠ []) : s.getLast? = t.getLast? := by
  obtain ⟨p, rfl⟩ := hs
  obtain ⟨q, hq⟩ := ht
  have hlast := congrArg getLast? hq
  rwa [getLast?_append_of_ne_nil _ hne', getLast?_append_of_ne_nil _ hne, eq_comm] at hlast

/-- A host that ends in the suffix of a kind does not end in white space. -/
theorem not_space_of_suffix {w : Bytes} (hs : k.suffix <:+ s) (hw : w ∈ spaces) : ¬ w <:+ s := by
  intro hspace
  have hlast : w.getLast? = k.suffix.getLast? :=
    getLast?_eq_of_suffix hspace hs (spaces_ne_nil w hw) (by cases k <;> decide)
  have hdiffer : ∀ v ∈ spaces, ∀ k : EndpointKind, v.getLast? ≠ k.suffix.getLast? := by
    intro v hv k
    cases k
    · revert v
      decide
    · revert v
      decide
  exact hdiffer w hw k hlast

/-- What ends in the suffix of a network does not end in a dot. -/
theorem not_dot_of_suffix (hs : k.suffix <:+ s) : ¬ ascii "." <:+ s := by
  intro hdot
  have hlast : (ascii ".").getLast? = k.suffix.getLast? :=
    getLast?_eq_of_suffix hdot hs (by decide) (by cases k <;> decide)
  cases k <;> exact absurd hlast (by decide)

/-- What ends in a space does not end in a dot. -/
theorem not_dot_of_space {w : Bytes} (hw : w ∈ spaces) (hs : w <:+ s) : ¬ ascii "." <:+ s := by
  intro hdot
  have hlast : w.getLast? = (ascii ".").getLast? :=
    getLast?_eq_of_suffix hs hdot (spaces_ne_nil w hw) (by decide)
  have hdiffer : ∀ v ∈ spaces, v.getLast? ≠ (ascii ".").getLast? := by decide
  exact hdiffer w hw hlast

/-! ## What is tested -/

/-- Lower case makes no colons or brackets. -/
theorem plain_toLower (h : Plain s) : Plain (toLower U s) :=
  ⟨fun hmem => h.1 (mem_of_mem_toLower U (by decide) hmem),
    fun hmem => h.2.1 (mem_of_mem_toLower U (by decide) hmem),
    fun hmem => h.2.2 (mem_of_mem_toLower U (by decide) hmem)⟩

/-- There are no brackets to trim. -/
theorem trim_brackets (hopen : 91 ∉ s) (hclose : 93 ∉ s) : trim s (ascii "[]") = s := by
  have hnot : ∀ b ∈ s, (ascii "[]").contains b = false := by
    intro b hb
    rw [Bool.eq_false_iff]
    intro hmem
    rw [contains_iff_mem, show ascii "[]" = [91, 93] from rfl, mem_cons, mem_singleton] at hmem
    rcases hmem with rfl | rfl
    · exact hopen hb
    · exact hclose hb
  have hkeep : ∀ t : Bytes, (∀ b ∈ t, (ascii "[]").contains b = false) →
      (t.dropWhile fun b => (ascii "[]").contains b) = t := by
    intro t ht
    cases t with
    | nil => rfl
    | cons b t =>
      rw [dropWhile_cons_of_neg]
      rw [ht b mem_cons_self]
      simp
  rw [trim, hkeep s hnot, hkeep s.reverse fun b hb => hnot b (mem_reverse.mp hb), reverse_reverse]

/-- What cannot be taken apart is left as it is. -/
theorem withoutPort_of_not_splits (h : ¬ Splits s) : withoutPort s = s := by
  unfold withoutPort
  split
  · split
    next hsplit =>
      rw [Splits, hsplit] at h
      exact absurd rfl h
    · rfl
  · rfl

variable {port : Bytes}

/-- The port is taken off. -/
theorem withoutPort_of_splits (h : splitHostPort s = .ok (host, port)) : withoutPort s = host := by
  obtain ⟨⟨hopen, hclose⟩, -, hform⟩ := splitHostPort_eq_ok h
  have hcolon : s.contains 58 = true := by
    rw [contains_iff_mem]
    rcases hform with ⟨-, rfl⟩ | rfl <;> simp
  rw [withoutPort, if_pos hcolon, h]
  exact trim_brackets hopen hclose

/-- A final dot behind another byte is trimmed there. -/
theorem trimDot_append_cons {c : UInt8} (hc : c ≠ 46) (l r : Bytes) :
    trimSuffix (l ++ c :: r) (ascii ".") = l ++ c :: trimSuffix r (ascii ".") := by
  by_cases hdot : ascii "." <:+ r
  · obtain ⟨s, rfl⟩ := hdot
    rw [trimSuffix_concat, ← cons_append, ← append_assoc, trimSuffix_concat]
  · have hnot : c ∉ ascii "." := by
      show c ∉ [46]
      simpa using hc
    rw [trimSuffix_eq_self hdot, trimSuffix_eq_self]
    rwa [suffix_append_cons_iff hnot]

/-- The string that `HostTransport` tests: around a byte that is neither white space nor a
dot the two sides are trimmed on their own. -/
theorem stripped_append_cons {c : UInt8} (hspace : ∀ w ∈ spaces, c ∉ w) (hdot : c ≠ 46)
    (l r : Bytes) : trimSuffix (trimSpace (l ++ c :: r)) (ascii ".") =
      trimFront l ++ c :: trimSuffix (trimBack r) (ascii ".") := by
  rw [trimSpace_append_cons hspace, trimDot_append_cons hdot]

/-- Spaces and a dot are taken off a plain text. -/
theorem plain_stripped {r : Bytes} (hr : Plain r) : Plain (trimSuffix (trimBack r) (ascii ".")) :=
  hr.mono fun _ hx => (trimBack_isPrefix r).subset ((trimSuffix_isPrefix _ _).subset hx)

/-- Trimming adds no bytes. -/
theorem mem_trimSpace {b : UInt8} (h : b ∈ trimSpace s) : b ∈ s := by
  rw [trimSpace, mem_reverse] at h
  have hback := (dropWords_suffix _ _ _).subset h
  rw [mem_reverse] at hback
  exact (trimFront_suffix s).subset hback

/-! ## Hosts -/

/-- A host that ends in the suffix of a kind is no IP literal without a zone. -/
theorem parseAddr_eq_none_iff (hsuffix : ∀ b ∈ k.suffix, b ∈ toLower U host) :
    NetIP.parseAddr host = none ↔ ¬ Zoned host := by
  constructor
  · rintro hnone ⟨addr, haddr, -⟩
    rw [hnone] at haddr
    cases haddr
  · intro hzone
    cases haddr : NetIP.parseAddr host with
    | none => rfl
    | some addr =>
      have hnozone : addr.zone = [] := by
        by_contra hne
        exact hzone ⟨addr, haddr, hne⟩
      -- the bytes of such a literal are hexadecimal digits, dots and colons
      have hbytes := NetIP.addrByte_of_parseAddr haddr hnozone
      have hascii : ∀ b ∈ host, b < 0x80 := by
        intro b hb
        have := (hbytes b hb).toNat_cases
        rw [lt_iff_toNat_lt]
        simp only [reduceToNat]
        omega
      have hletters : ∀ b ∈ host, asciiLower b.toNat ≠ 111 ∧ asciiLower b.toNat ≠ 105 := by
        intro b hb
        have := (hbytes b hb).toNat_cases
        unfold asciiLower
        grind
      have hlower : ∀ b : UInt8, b < 0x80 → b ∈ k.suffix →
          ∃ c ∈ host, b.toNat = asciiLower c.toNat :=
        fun b hb hmem => exists_of_mem_toLower U hascii hb (hsuffix b hmem)
      cases k with
      | tor =>
        obtain ⟨c, hc, heq⟩ := hlower 111 (by decide) (by decide)
        exact absurd heq.symm (hletters c hc).1
      | i2p =>
        obtain ⟨c, hc, heq⟩ := hlower 105 (by decide) (by decide)
        exact absurd heq.symm (hletters c hc).2

variable {U : Unicode}

/-- A host with the suffix is of the network unless it has a zone. -/
theorem ofKind_of_suffix (h : k.suffix <:+ trimSuffix (toLower U host) (ascii ".")) :
    OfKind U k host ↔ ¬ Zoned host := by
  have hbytes : ∀ b ∈ k.suffix, b ∈ toLower U host :=
    fun b hb => (trimSuffix_isPrefix _ _).subset (h.subset hb)
  rw [OfKind, and_iff_left h, parseAddr_eq_none_iff U hbytes]

/-- The suffix is looked for in the normalized host without the port. -/
theorem suffixTransport_of_hostTransport (h : hostTransport U host = some k) :
    suffixTransport (withoutPort (normalized U host)) = some k := by
  rw [hostTransport] at h
  split at h
  · simp at h
  · exact h

/-- The normalized host without the port has the suffix. -/
theorem suffix_of_hostTransport (h : hostTransport U host = some k) :
    k.suffix <:+ withoutPort (normalized U host) :=
  suffix_of_suffixTransport (suffixTransport_of_hostTransport h)

/-- Without a colon there is no port. -/
theorem not_splits_of_no_colon (hcolon : 58 ∉ host) : ¬ Splits (normalized U host) := by
  intro hsplits
  cases hsplit : splitHostPort (normalized U host) with
  | error e =>
    rw [Splits, hsplit] at hsplits
    cases hsplits
  | ok hp =>
    have hmem : 58 ∈ normalized U host := by
      obtain ⟨-, -, ⟨-, heq⟩ | heq⟩ := splitHostPort_eq_ok hsplit <;> simp [heq]
    have hmem' := mem_trimSpace ((trimSuffix_isPrefix _ _).subset hmem)
    exact hcolon (mem_of_mem_toLower U (by decide) hmem')

/-- Before a host stands nothing, or a user. -/
def IsUser (user : Bytes) : Prop := user = [] ∨ ∃ name, user = name ++ [64]

variable {user : Bytes}

/-- A suffix without an at sign is one of the host behind the user. -/
theorem suffix_of_suffix_user (huser : IsUser user) {w : Bytes} (hw : 64 ∉ w)
    (h : w <:+ toLower U (user ++ host)) : w <:+ toLower U host := by
  rcases huser with rfl | ⟨name, rfl⟩
  · exact h
  · rw [append_assoc, singleton_append, toLower_append U (by decide),
      suffix_append_cons_iff hw] at h
    exact h

/-- No suffix has an at sign. -/
theorem at_not_mem_suffix (k : EndpointKind) : 64 ∉ k.suffix := by
  cases k <;> decide

/-- White space at the end of a string in front of which a user stands. -/
theorem not_endsInSpace_user (huser : IsUser user) (h : ¬ EndsInSpace U host) :
    ¬ EndsInSpace U (user ++ host) := by
  rintro ⟨w, hw, hspace⟩
  have hat : ∀ w ∈ spaces, 64 ∉ w := by decide
  exact h ⟨w, hw, suffix_of_suffix_user huser (hat w hw) hspace⟩

/-- The final dot behind a user is that of the host. -/
theorem suffix_of_trimDot_user (huser : IsUser user)
    (h : k.suffix <:+ trimSuffix (toLower U (user ++ host)) (ascii ".")) :
    k.suffix <:+ trimSuffix (toLower U host) (ascii ".") := by
  rcases huser with rfl | ⟨name, rfl⟩
  · exact h
  · rw [append_assoc, singleton_append, toLower_append U (by decide),
      trimDot_append_cons (by decide), suffix_append_cons_iff (at_not_mem_suffix k)] at h
    exact h

/-- The end of a string that does not end in white space is not changed but for its dot. -/
theorem suffix_of_normalized (hspace : ¬ EndsInSpace U host)
    (h : k.suffix <:+ normalized U host) :
    k.suffix <:+ trimSuffix (toLower U host) (ascii ".") := by
  have hplain : ∀ w ∈ spaces, ¬ w <:+ toLower U host := fun w hw hs => hspace ⟨w, hw, hs⟩
  rw [normalized, trimSpace_eq_trimFront hplain] at h
  obtain ⟨front, hfront⟩ := trimFront_suffix (toLower U host)
  -- what was trimmed in front does not matter for the end
  by_cases hdot : ascii "." <:+ trimFront (toLower U host)
  · obtain ⟨s, hs⟩ := hdot
    rw [← hs, trimSuffix_concat] at h
    rw [← hfront, ← hs, ← append_assoc, trimSuffix_concat]
    exact h.trans (suffix_append front s)
  · rw [trimSuffix_eq_self hdot] at h
    have hwhole : k.suffix <:+ toLower U host := h.trans ⟨front, hfront⟩
    rw [trimSuffix_eq_self (not_dot_of_suffix hwhole)]
    exact hwhole

/-- **A host at the end of what is tested**, possibly behind a user, is of the kind it is classified
as, unless it ends in white space or is a literal with a zone. -/
theorem ofKind_of_not_splits (huser : IsUser user) (hsplit : ¬ Splits (normalized U (user ++ host)))
    (h : hostTransport U (user ++ host) = some k) :
    OfKind U k host ↔ ¬ EndsInSpace U host ∧ ¬ Zoned host := by
  have hsuffix := suffix_of_hostTransport h
  rw [withoutPort_of_not_splits hsplit] at hsuffix
  by_cases hspace : EndsInSpace U host
  · refine iff_of_false ?_ fun hnot => hnot.1 hspace
    rintro ⟨-, hend⟩
    obtain ⟨w, hw, hspace⟩ := hspace
    rw [trimSuffix_eq_self (not_dot_of_space hw hspace)] at hend
    exact not_space_of_suffix hend hw hspace
  · rw [and_iff_right hspace]
    exact ofKind_of_suffix (suffix_of_trimDot_user huser
      (suffix_of_normalized (not_endsInSpace_user huser hspace) hsuffix))

/-- What follows a host and its port: nothing, or a path, a query or a fragment. -/
def IsTail (tail : Bytes) : Prop := tail = [] ∨ ∃ c t, tail = c :: t ∧ (c = 47 ∨ c = 63 ∨ c = 35)

/-- Two cuts at a byte, the second one behind the last of them. -/
theorem append_cons_cases {c : UInt8} {l m r s : Bytes} (h : l ++ c :: r = m ++ c :: s)
    (hs : c ∉ s) : l = m ∨ ∃ x, m = l ++ c :: x ∧ r = x ++ c :: s := by
  rcases append_eq_append_iff.mp h with ⟨x, rfl, hx⟩ | ⟨x, rfl, hx⟩
  · cases x with
    | nil => exact .inl (append_nil l).symm
    | cons b x =>
      obtain ⟨rfl, rfl⟩ := cons.inj hx
      exact .inr ⟨x, rfl, rfl⟩
  · cases x with
    | nil => exact .inl (append_nil m)
    | cons b x =>
      obtain ⟨rfl, rfl⟩ := cons.inj hx
      exact absurd (mem_append_right x mem_cons_self) hs

variable {tail : Bytes}

/-- The text behind the colon of a port has a closing bracket only behind a `/`, `?` or `#`. -/
theorem tail_before_bracket (hport : 93 ∉ port) (htail : IsTail tail) {m r : Bytes}
    (h : m ++ 93 :: r <+: toLower U (port ++ tail)) : ¬ NoTail m := by
  have hport' : 93 ∉ toLower U port := fun hmem => hport (mem_of_mem_toLower U (by decide) hmem)
  rcases htail with rfl | ⟨c, t, rfl, hc⟩
  · rw [append_nil] at h
    exact absurd (h.subset (mem_append_right m mem_cons_self)) hport'
  · have hcaseless : Caseless c := by rcases hc with rfl | rfl | rfl <;> decide
    have hne : (93 : UInt8) ≠ c := by rcases hc with rfl | rfl | rfl <;> decide
    rw [toLower_append U hcaseless] at h
    obtain ⟨rest, hrest⟩ := h
    rw [append_assoc, cons_append] at hrest
    have hmem : c ∈ m := by
      rcases append_eq_append_iff.mp hrest with ⟨x, hx, hcons⟩ | ⟨x, rfl, hcons⟩
      · cases x with
        | nil => exact absurd (cons.inj hcons).1 hne
        | cons b x =>
          obtain ⟨rfl, -⟩ := cons.inj hcons
          exact absurd (hx ▸ mem_append_right m mem_cons_self) hport'
      · cases x with
        | nil => exact absurd (cons.inj hcons).1.symm hne
        | cons b x =>
          obtain ⟨rfl, -⟩ := cons.inj hcons
          exact mem_append_right _ mem_cons_self
    rintro ⟨hslash, hquery, hfrag⟩
    rcases hc with rfl | rfl | rfl
    · exact hslash hmem
    · exact hquery hmem
    · exact hfrag hmem

variable {h p : Bytes}

/-- The host before a port is cut out of the whole endpoint, with the user. -/
theorem suffix_of_splits_plain (huser : IsUser user) (htail : IsTail tail) (hhost : 93 ∉ host)
    (hport : 93 ∉ port)
    (hcut : splitHostPort (normalized U (user ++ (host ++ 58 :: port) ++ tail)) = .ok (h, p))
    (hno : NoTail h) (hsuffix : k.suffix <:+ h) : k.suffix <:+ toLower U host := by
  obtain ⟨-, hp, hform⟩ := splitHostPort_eq_ok hcut
  have hnorm : normalized U (user ++ (host ++ 58 :: port) ++ tail) =
      trimFront (toLower U (user ++ host)) ++
        58 :: trimSuffix (trimBack (toLower U (port ++ tail))) (ascii ".") := by
    rw [show user ++ (host ++ 58 :: port) ++ tail = (user ++ host) ++ 58 :: (port ++ tail) by simp,
      normalized, toLower_append U (by decide), stripped_append_cons (by decide) (by decide)]
  have hback : trimSuffix (trimBack (toLower U (port ++ tail))) (ascii ".") <+:
      toLower U (port ++ tail) := (trimSuffix_isPrefix _ _).trans (trimBack_isPrefix _)
  rw [hnorm] at hform
  rcases hform with ⟨hcolon, heq⟩ | heq
  · rcases append_cons_cases heq hp.1 with hh | ⟨m, rfl, -⟩
    · rw [← hh] at hsuffix
      exact suffix_of_suffix_user huser (at_not_mem_suffix k)
        (hsuffix.trans (trimFront_suffix _))
    · exact absurd (mem_append_right _ mem_cons_self) hcolon
  · -- brackets would be closed in the host, or behind a path
    exfalso
    rw [show 91 :: h ++ 93 :: 58 :: p = (91 :: h ++ [93]) ++ 58 :: p by simp] at heq
    rcases append_cons_cases heq hp.1 with hh | ⟨m, hm, hrest⟩
    · have hclosed : [93] <:+ toLower U (user ++ host) := by
        refine IsSuffix.trans ?_ (trimFront_suffix _)
        rw [hh]
        exact suffix_append _ _
      have hmem := (suffix_of_suffix_user huser (by decide) hclosed).subset mem_cons_self
      exact hhost (mem_of_mem_toLower U (by decide) hmem)
    · rcases eq_nil_or_concat' m with rfl | ⟨m, b, rfl⟩
      · have hlast := (append_inj' hm rfl).2
        simp at hlast
      · rw [← cons_append, ← append_assoc] at hm
        obtain ⟨hh, hb⟩ := append_inj' hm rfl
        obtain rfl : (93 : UInt8) = b := (cons.inj hb).1
        rw [hrest, append_assoc, singleton_append] at hback
        refine tail_before_bracket hport htail hback ?_
        have hsub : ∀ c ∈ m, c = 91 ∨ c ∈ h := by
          intro c hc
          rw [← mem_cons, hh]
          exact mem_append_right _ (mem_cons_of_mem _ hc)
        exact ⟨fun hc => (hsub 47 hc).elim (by decide) hno.1,
          fun hc => (hsub 63 hc).elim (by decide) hno.2.1,
          fun hc => (hsub 35 hc).elim (by decide) hno.2.2⟩

/-- The host in brackets is cut out of the whole endpoint. -/
theorem suffix_of_splits_bracketed
    (hcut : splitHostPort (normalized U (user ++ (91 :: host ++ 93 :: 58 :: port) ++ tail)) =
      .ok (h, p)) (hsuffix : k.suffix <:+ h) : k.suffix <:+ toLower U host := by
  obtain ⟨⟨hopen', hclose'⟩, hp, hform⟩ := splitHostPort_eq_ok hcut
  have hnorm : normalized U (user ++ (91 :: host ++ 93 :: 58 :: port) ++ tail) =
      trimFront (toLower U user) ++ 91 :: (toLower U host ++
        93 :: trimSuffix (trimBack (toLower U (58 :: port ++ tail))) (ascii ".")) := by
    rw [show user ++ (91 :: host ++ 93 :: 58 :: port) ++ tail =
        (user ++ 91 :: host) ++ 93 :: (58 :: port ++ tail) by simp,
      normalized, toLower_append U (by decide), stripped_append_cons (by decide) (by decide),
      toLower_append U (by decide), trimFront_append_cons (by decide), append_assoc, cons_append]
  rw [hnorm] at hform
  rcases hform with ⟨-, heq⟩ | heq
  · have hmem : 91 ∈ h ++ 58 :: p := by
      rw [← heq]
      exact mem_append_right _ mem_cons_self
    rcases mem_append.mp hmem with hmem | hmem
    · exact absurd hmem hopen'
    · rcases mem_cons.mp hmem with hmem | hmem
      · exact absurd hmem (by decide)
      · exact absurd hmem hp.2.1
  · have hrest : 91 ∉ h ++ 93 :: 58 :: p := by
      simp [hopen', hp.2.1]
    rcases append_cons_cases (m := []) heq hrest with hnil | ⟨m, hm, -⟩
    · rw [hnil, nil_append, cons_append] at heq
      rcases append_cons_cases (cons.inj heq).2 (by simp [hp.2.2]) with hh | ⟨m, rfl, -⟩
      · rwa [hh]
      · exact absurd (mem_append_right _ mem_cons_self) hclose'
    · exact absurd hm (by simp)

/-- The end of a string in lower case is a dot exactly when that of the string is. -/
theorem dot_suffix_toLower (U : Unicode) (s : Bytes) :
    ascii "." <:+ toLower U s ↔ ascii "." <:+ s := by
  constructor
  · intro hdot
    have hmem : 46 ∈ s := mem_of_mem_toLower U (by decide) (hdot.subset (by decide))
    obtain ⟨l, r, rfl, hr⟩ := exists_last_of_mem hmem
    rw [toLower_append U (by decide)] at hdot
    have hr' : 46 ∉ toLower U r := fun hc => hr (mem_of_mem_toLower U (by decide) hc)
    cases r with
    | nil => exact suffix_append l (ascii ".")
    | cons b r =>
      -- the last byte of the lower case would be a dot behind the last one
      exfalso
      have hlast := getLast?_eq_of_suffix hdot
        (suffix_append_of_suffix (suffix_cons 46 _)) (by decide)
        (toLower_cons_ne_nil U b r)
      exact hr' (mem_of_getLast? (hlast.symm.trans rfl))
  · rintro ⟨l, rfl⟩
    rw [show l ++ ascii "." = l ++ 46 :: [] from rfl, toLower_append U (by decide)]
    exact suffix_append _ _

/-! ## Endpoints -/

/-- A host name: no colon, no bracket and no slash. -/
def HostName (h : Bytes) : Prop := Plain h ∧ 47 ∉ h

instance (U : Unicode) (k : EndpointKind) (host : Bytes) : Decidable (OfKind U k host) :=
  inferInstanceAs (Decidable (_ ∧ _))

instance (U : Unicode) (s : Bytes) : Decidable (EndsInSpace U s) :=
  inferInstanceAs (Decidable (∃ w ∈ spaces, _))

instance (host : Bytes) : Decidable (Zoned host) :=
  inferInstanceAs (Decidable (∃ addr ∈ NetIP.parseAddr host, _))

instance (s : Bytes) : Decidable (Splits s) := inferInstanceAs (Decidable (_ = true))

instance (s : Bytes) : Decidable (NoTail s) := inferInstanceAs (Decidable (_ ∧ _ ∧ _))

instance (U : Unicode) (endpoint : Bytes) : Decidable (HostTested U endpoint) := by
  unfold HostTested
  split
  · infer_instance
  · split <;> infer_instance

variable {endpoint : Bytes}

/-- An endpoint without a scheme: the user, the host with its port, and the rest. -/
theorem exists_parts (endpoint : Bytes) : ∃ user tail, IsUser user ∧ IsTail tail ∧
    endpoint = user ++ hostAndPort endpoint ++ tail := by
  obtain ⟨user, huser, hparts⟩ : ∃ user, IsUser user ∧
      (endpoint.takeWhile fun b => b ≠ 47 && b ≠ 63 && b ≠ 35) = user ++ hostAndPort endpoint := by
    unfold hostAndPort
    dsimp only
    by_cases hmem : 64 ∈ endpoint.takeWhile fun b => b ≠ 47 && b ≠ 63 && b ≠ 35
    · obtain ⟨l, r, heq, hr⟩ := exists_last_of_mem hmem
      refine ⟨l ++ [64], .inr ⟨l, rfl⟩, ?_⟩
      rw [heq, lastIndexByte_append_cons l hr]
      simp [drop_append]
    · rw [lastIndexByte_eq_none hmem]
      exact ⟨[], .inl rfl, rfl⟩
  refine ⟨user, endpoint.dropWhile fun b => b ≠ 47 && b ≠ 63 && b ≠ 35, huser, ?_, ?_⟩
  · cases htail : endpoint.dropWhile fun b => b ≠ 47 && b ≠ 63 && b ≠ 35 with
    | nil => exact .inl rfl
    | cons c t =>
      have hc := head?_dropWhile_not (fun b : UInt8 => b ≠ 47 && b ≠ 63 && b ≠ 35) endpoint
      rw [htail] at hc
      simp only [head?_cons, ne_eq, decide_not, Bool.and_eq_false_imp, Bool.not_eq_eq_eq_not,
        Bool.not_false, decide_eq_true_eq] at hc
      refine .inr ⟨c, t, rfl, ?_⟩
      grind
  · rw [← hparts, takeWhile_append_dropWhile]

/-- **The host of an endpoint without a scheme**, where the end of the host is what is tested. -/
theorem ofKind_schemeless (hurl : urlHost endpoint = []) (htested : HostTested U endpoint)
    (hk : hostTransport U endpoint = some k) : OfKind U k (schemelessHost endpoint) ↔
      ¬ EndsInSpace U (schemelessHost endpoint) ∧ ¬ Zoned (schemelessHost endpoint) := by
  obtain ⟨user, tail, huser, htail, hparts⟩ := exists_parts endpoint
  rw [HostTested, if_neg (by simpa using hurl)] at htested
  split at htested
  next host' port' hcut =>
    -- both are taken apart
    obtain ⟨hno, hsplits⟩ := htested
    cases hdial : splitHostPort (hostAndPort endpoint) with
    | error e =>
      rw [Splits, hdial] at hsplits
      cases hsplits
    | ok hp =>
      obtain ⟨host, port⟩ := hp
      have hhost : schemelessHost endpoint = host := by rw [schemelessHost, hdial]
      have hfound := suffix_of_hostTransport hk
      rw [withoutPort_of_splits hcut] at hfound
      have hsuffix : k.suffix <:+ toLower U host := by
        obtain ⟨⟨-, hclose⟩, hport, ⟨-, hform⟩ | hform⟩ := splitHostPort_eq_ok hdial
        · rw [hparts, hform] at hcut
          exact suffix_of_splits_plain huser htail hclose hport.2.2 hcut hno hfound
        · rw [hparts, hform] at hcut
          exact suffix_of_splits_bracketed hcut hfound
      have hspace : ¬ EndsInSpace U host := by
        rintro ⟨w, hw, hspace⟩
        exact not_space_of_suffix hsuffix hw hspace
      rw [hhost, and_iff_right hspace]
      refine ofKind_of_suffix ?_
      rwa [trimSuffix_eq_self (not_dot_of_suffix hsuffix)]
  next hcut =>
    obtain ⟨hno, hsplits⟩ := htested
    have hhost : schemelessHost endpoint = hostAndPort endpoint := by
      unfold schemelessHost
      split
      next hdial => exact absurd (by rw [Splits, hdial]; rfl) hsplits
      · rfl
    have hnil : tail = [] := by
      rcases htail with rfl | ⟨c, t, rfl, hc⟩
      · rfl
      · have hmem : c ∈ endpoint := by
          rw [hparts]
          exact mem_append_right _ mem_cons_self
        rcases hc with rfl | rfl | rfl
        · exact absurd hmem hno.1
        · exact absurd hmem hno.2.1
        · exact absurd hmem hno.2.2
    rw [hnil, append_nil] at hparts
    have hunsplit : ¬ Splits (normalized U (user ++ hostAndPort endpoint)) := by
      rw [← hparts, Splits, hcut]
      exact Bool.false_ne_true
    rw [hparts] at hk
    rw [hhost]
    exact ofKind_of_not_splits huser hunsplit hk

/-- The host of the URL is tested, or the whole text if it has none. -/
theorem endpointTransport_eq : endpointTransport U endpoint =
    hostTransport U (if urlHost endpoint ≠ [] then urlHost endpoint else endpoint) := by
  unfold endpointTransport urlHost
  split
  · split <;> rfl
  · rfl

/-- A host name with a port has no host as a URL. -/
theorem endpointTransport_port {h p : Bytes} (hname : HostName h) (hp : p.all isDigit) :
    endpointTransport U (h ++ 58 :: p) = suffixTransport (trimFront (toLower U h)) := by
  have hdigit : ∀ b : UInt8, isDigit b = false → b ∉ p := by
    intro b hb hmem
    rw [all_eq_true.mp hp b hmem] at hb
    exact absurd hb (by decide)
  have hpPlain : Plain p :=
    ⟨hdigit 58 (by decide), hdigit 91 (by decide), hdigit 93 (by decide)⟩
  have hslash : 47 ∉ h ++ 58 :: p := by
    simp only [mem_append, mem_cons, not_or]
    exact ⟨hname.2, by decide, hdigit 47 (by decide)⟩
  have hport := plain_stripped (plain_toLower U hpPlain)
  have hhost := (plain_toLower U hname.1).mono (trimFront_suffix _).subset
  have hurl : urlHost (h ++ 58 :: p) = [] := by
    unfold urlHost
    split
    next hparse => exact hostname_of_no_slash hslash hparse
    · rfl
  rw [endpointTransport_eq, if_neg (by simpa using hurl), hostTransport,
    toLower_append U (by decide), stripped_append_cons (by decide) (by decide),
    if_neg (by simp), withoutPort_of_splits (splitHostPort_plain hhost hport)]

/-- With a port, a space or a dot at the end of the host is not taken off. -/
theorem endpointTransport_port_iff {h p : Bytes} (hk : hostTransport U h = some k)
    (hname : HostName h) (hp : p.all isDigit) :
    endpointTransport U (h ++ 58 :: p) = some k ↔ ¬ EndsInSpace U h ∧ ¬ ascii "." <:+ h := by
  rw [endpointTransport_port hname hp]
  constructor
  · intro hport
    have hsuffix : k.suffix <:+ toLower U h :=
      (suffix_of_suffixTransport hport).trans (trimFront_suffix _)
    refine ⟨fun ⟨w, hw, hspace⟩ => not_space_of_suffix hsuffix hw hspace, ?_⟩
    rw [← dot_suffix_toLower U]
    exact not_dot_of_suffix hsuffix
  · rintro ⟨hspace, hdot⟩
    have htested := suffixTransport_of_hostTransport hk
    rw [← dot_suffix_toLower U] at hdot
    rwa [withoutPort_of_not_splits (not_splits_of_no_colon hname.1.1), normalized,
      trimSpace_eq_trimFront fun w hw hs => hspace ⟨w, hw, hs⟩,
      trimSuffix_eq_self fun hc => hdot (hc.trans (trimFront_suffix _))] at htested

/-- **Classification looks at the host.** Where the end of the host is what is tested, the host that
is dialed is of the kind of the endpoint exactly when it does not end in white space and is no
literal with a zone; and a port keeps the kind of a name exactly when the name ends neither in white
space nor in a dot. -/
theorem endpointTransport_looks_at_host (U : Unicode) :
    (∀ (endpoint : Bytes) (k : EndpointKind), endpointTransport U endpoint = some k →
      HostTested U endpoint → (OfKind U k (dialHost endpoint) ↔
        ¬ EndsInSpace U (dialHost endpoint) ∧ ¬ Zoned (dialHost endpoint))) ∧
    ∀ (h p : Bytes) (k : EndpointKind), hostTransport U h = some k → HostName h →
      p.all isDigit = true →
      (endpointTransport U (h ++ 58 :: p) = some k ↔ ¬ EndsInSpace U h ∧ ¬ ascii "." <:+ h) := by
  constructor
  · intro endpoint k hk htested
    rw [endpointTransport_eq] at hk
    rw [dialHost]
    by_cases hurl : urlHost endpoint ≠ []
    · rw [if_pos hurl] at hk ⊢
      rw [HostTested, if_pos hurl] at htested
      exact ofKind_of_not_splits (.inl rfl : IsUser []) htested hk
    · rw [if_neg hurl] at hk ⊢
      exact ofKind_schemeless (not_not.mp hurl) htested hk
  · intro h p k hk hname hp
    exact endpointTransport_port_iff hk hname hp

/-- A URL, a host with a port, also behind a user or before a path, and a host name to which a port
is added. -/
theorem endpointTransport_looks_at_plain_host :
    OfKind asciiOnly .tor (dialHost (ascii "https://x.onion/keys")) ∧
    OfKind asciiOnly .i2p (dialHost (ascii "x.b32.i2p:443")) ∧
    OfKind asciiOnly .tor (dialHost (ascii "user@x.onion:443/path")) ∧
    endpointTransport asciiOnly (ascii "x.onion" ++ 58 :: ascii "443") = some .tor := by
  obtain ⟨hhost, hport⟩ := endpointTransport_looks_at_host asciiOnly
  refine ⟨?_, ?_, ?_, ?_⟩
  · exact (hhost _ _ (by decide +kernel) (by decide +kernel)).mpr (by decide +kernel)
  · exact (hhost _ _ (by decide +kernel) (by decide +kernel)).mpr (by decide +kernel)
  · exact (hhost _ _ (by decide +kernel) (by decide +kernel)).mpr (by decide +kernel)
  · exact (hport (ascii "x.onion") (ascii "443") .tor (by decide +kernel)
      ⟨⟨by decide, by decide, by decide⟩, by decide⟩ (by decide)).mpr (by decide +kernel)

/-- A suffix in a path, before a user, in a zone or before a blank is enough; and a port after a
final dot makes a Tor host a clearnet one. -/
theorem endpointTransport_misled :
    (endpointTransport asciiOnly (ascii "evil.com/x.onion") = some .tor ∧
      dialHost (ascii "evil.com/x.onion") = ascii "evil.com" ∧
      ¬ OfKind asciiOnly .tor (ascii "evil.com")) ∧
    (endpointTransport asciiOnly (ascii "x.onion:pw@evil.com") = some .tor ∧
      dialHost (ascii "x.onion:pw@evil.com") = ascii "evil.com") ∧
    (endpointTransport asciiOnly (ascii "http://[fe80::1%25x.onion]/") = some .tor ∧
      dialHost (ascii "http://[fe80::1%25x.onion]/") = ascii "fe80::1%x.onion" ∧
      ¬ OfKind asciiOnly .tor (ascii "fe80::1%x.onion")) ∧
    (endpointTransport asciiOnly (ascii "x.onion ") = some .tor ∧
      ¬ OfKind asciiOnly .tor (dialHost (ascii "x.onion "))) ∧
    hostTransport asciiOnly (ascii "abc.onion.") = some .tor ∧
    endpointTransport asciiOnly (ascii "abc.onion.:80") = none := by
  decide +kernel

end Anonymous
