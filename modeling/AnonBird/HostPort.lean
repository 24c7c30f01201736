/-
# Host and port

`net.SplitHostPort` and `net.JoinHostPort`, with the texts of their errors: a caller
may look into the text, which quotes the address.
-/
import AnonBird.GoText

open GoStrings GoText List

namespace HostPort

/-- The error of `SplitHostPort`. -/
structure AddrError where
  err : Bytes
  addr : Bytes
  deriving DecidableEq

/-- There is no port. -/
def missingPort : Bytes := ascii "missing port in address"
/-- There are colons outside brackets. -/
def tooManyColons : Bytes := ascii "too many colons in address"

/-- `AddrError.Error`. -/
def AddrError.text (e : AddrError) : Bytes :=
  if e.addr = [] then e.err else ascii "address " ++ e.addr ++ ascii ": " ++ e.err

/-- The check at the end of `SplitHostPort`: no bracket from `j` resp. `k` on. -/
def splitAt (hostport host : Bytes) (i j k : ℕ) : Except AddrError (Bytes × Bytes) :=
  if (hostport.drop j).contains 91 then .error ⟨ascii "unexpected '[' in address", hostport⟩
  else if (hostport.drop k).contains 93 then
    .error ⟨ascii "unexpected ']' in address", hostport⟩
  else .ok (host, hostport.drop (i + 1))

/-- `net.SplitHostPort`: the port starts after the last colon, and a host with colons
stands in brackets. -/
def splitHostPort (hostport : Bytes) : Except AddrError (Bytes × Bytes) :=
  match lastIndexByte hostport 58 with
  | none => .error ⟨missingPort, hostport⟩
  | some i =>
    if byteAt hostport 0 = 91 then
      match hostport.idxOf? 93 with
      | none => .error ⟨ascii "missing ']' in address", hostport⟩
      | some last =>
        if last + 1 = hostport.length then .error ⟨missingPort, hostport⟩
        else if last + 1 = i then splitAt hostport (slice hostport 1 last) i 1 (last + 1)
        else if byteAt hostport (last + 1) = 58 then .error ⟨tooManyColons, hostport⟩
        else .error ⟨missingPort, hostport⟩
    else if (hostport.take i).contains 58 then .error ⟨tooManyColons, hostport⟩
    else splitAt hostport (hostport.take i) i 0 0

/-- `JoinHostPort`. -/
def joinHostPort (host port : Bytes) : Bytes :=
  if host.contains 58 then [91] ++ host ++ [93, 58] ++ port else host ++ [58] ++ port

example : splitHostPort (ascii "::1") = .error ⟨tooManyColons, ascii "::1"⟩ := by decide

/-! ## Hosts without a colon -/

/-- A string without brackets and without colons. -/
def Plain (s : Bytes) : Prop := 58 ∉ s ∧ 91 ∉ s ∧ 93 ∉ s

theorem Plain.mono {s t : Bytes} (h : Plain s) (hsub : t ⊆ s) : Plain t :=
  ⟨fun hmem => h.1 (hsub hmem), fun hmem => h.2.1 (hsub hmem), fun hmem => h.2.2 (hsub hmem)⟩

theorem splitHostPort_plain {host port : Bytes} (hhost : Plain host) (hport : Plain port) :
    splitHostPort (host ++ 58 :: port) = .ok (host, port) := by
  obtain ⟨hcolon, hopen, hclose⟩ := hhost
  have hfirst : byteAt (host ++ 58 :: port) 0 ≠ 91 := by
    cases host with
    | nil => simp [byteAt]
    | cons b host =>
      intro hb
      exact hopen (by rw [show (91 : UInt8) = b from hb.symm]; exact mem_cons_self)
  rw [splitHostPort, lastIndexByte_append_cons host hport.1]
  dsimp only
  rw [if_neg hfirst, take_left, if_neg (by simpa using hcolon), splitAt,
    if_neg (by simp [hopen, hport.2.1]), if_neg (by simp [hclose, hport.2.2])]
  simp [drop_append]

theorem splitAt_eq_ok {hostport host host' port : Bytes} {i j k : ℕ}
    (h : splitAt hostport host i j k = .ok (host', port)) :
    91 ∉ hostport.drop j ∧ 93 ∉ hostport.drop k ∧ host' = host ∧ port = hostport.drop (i + 1) := by
  rw [splitAt] at h
  split at h
  · simp at h
  next hopen =>
    split at h
    · simp at h
    next hclose =>
      cases h
      exact ⟨by simpa using hopen, by simpa using hclose, rfl, rfl⟩

/-- What `SplitHostPort` takes apart is a host and a port, or a host in brackets and a port. -/
theorem splitHostPort_eq_ok {hostport host port : Bytes}
    (h : splitHostPort hostport = .ok (host, port)) : (91 ∉ host ∧ 93 ∉ host) ∧ Plain port ∧
      (58 ∉ host ∧ hostport = host ++ 58 :: port ∨ hostport = 91 :: host ++ 93 :: 58 :: port) := by
  by_cases hmem : 58 ∈ hostport
  · obtain ⟨l, r, rfl, hr⟩ := exists_last_of_mem hmem
    rw [splitHostPort, lastIndexByte_append_cons l hr] at h
    dsimp only at h
    have hport : (l ++ 58 :: r).drop (l.length + 1) = r := by simp [drop_append]
    split at h
    next hfirst =>
      split at h
      · simp at h
      next last hlast =>
        have hmem' : 93 ∈ l ++ 58 :: r := by
          by_contra hnot
          rw [idxOf?_eq_none_iff.mpr hnot] at hlast
          simp at hlast
        obtain ⟨pre, post, heq, hpre⟩ := eq_append_cons_of_mem hmem'
        rw [heq, idxOf?_append_cons hpre, Option.some.injEq] at hlast
        subst hlast
        split at h
        · simp at h
        · split at h
          · -- the bracket is closed right before the last colon
            rename_i hlen
            obtain ⟨hopen, hclose, rfl, rfl⟩ := splitAt_eq_ok h
            have hcut : l ++ 58 :: r = (pre ++ [93]) ++ post := by
              rw [heq]
              simp
            obtain ⟨rfl, rfl⟩ := append_inj hcut (by simpa using hlen.symm)
            cases pre with
            | nil => simp [byteAt] at hfirst
            | cons b pre =>
              obtain rfl : b = 91 := hfirst
              have hhost : slice ((91 :: pre ++ [93]) ++ 58 :: r) 1 (91 :: pre).length = pre := by
                simp [slice]
              have hrest : ((91 :: pre ++ [93]) ++ 58 :: r).drop ((91 :: pre).length + 1) =
                  58 :: r := by
                simp
              rw [hrest] at hclose
              rw [hhost, hport]
              simp only [cons_append, drop_one, tail_cons, mem_append,
                mem_cons, not_or] at hopen hclose hpre
              exact ⟨⟨hopen.1.1, hpre.2⟩, ⟨hr, hopen.2.2, hclose.2⟩, .inr (by simp)⟩
          · split at h <;> simp at h
    · split at h
      · simp at h
      next hcolon =>
        obtain ⟨hopen, hclose, rfl, rfl⟩ := splitAt_eq_ok h
        rw [take_left, contains_iff_mem] at hcolon
        rw [take_left, hport]
        simp only [drop_zero, mem_append, mem_cons, not_or] at hopen hclose
        exact ⟨⟨hopen.1, hclose.1⟩, ⟨hr, hopen.2.2, hclose.2.2⟩, .inl ⟨hcolon, rfl⟩⟩
  · rw [splitHostPort, lastIndexByte_eq_none hmem] at h
    simp at h

end HostPort
