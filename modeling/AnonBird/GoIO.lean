/-
# Buffered reading

`bufio.Reader` over an arbitrary source, with the two ways of reading that the SAM client uses:
`ReadString` and, through `io.ReadFull`, `Read`.  A `LawfulSource` has fixed contents that arrive in
order, in pieces of any size; over such a source the reader is a stream (`readString_spec`,
`readFull_spec`).
-/
import AnonBird.GoStrings

open GoStrings List

namespace GoIO

/-- `io.Reader`, on a source that ends.  A read returns at most the number of bytes it
is asked for, or an error. -/
class Source (σ : Type) where
  read : σ → ℕ → Option (Bytes × σ)
  size : σ → ℕ
  size_lt : ∀ {s s' : σ} {n : ℕ} {p : Bytes}, read s n = some (p, s') → size s' < size s

/-- A source of fixed contents: every read takes a non-empty piece off the front, until
nothing is left. -/
class LawfulSource (σ : Type) extends Source σ where
  contents : σ → Bytes
  read_some : ∀ (s : σ) (n : ℕ), 0 < n → contents s ≠ [] →
    ∃ p s', read s n = some (p, s') ∧ p ≠ [] ∧ p.length ≤ n ∧ contents s = p ++ contents s'

/-- `bufio.defaultBufSize`. -/
def bufferSize : ℕ := 4096

/-- `bufio.Reader`: the bytes read ahead, and the source behind them. -/
structure Bufio (σ : Type) where
  buffered : Bytes
  src : σ

/-- A reader with nothing buffered. -/
def newReader {σ : Type} (src : σ) : Bufio σ := ⟨[], src⟩

open Source

section Reading

variable {σ : Type} [Source σ]

/-- The bytes up to the first `delim`, and those behind it. -/
def cutAfter (delim : UInt8) (s : Bytes) : Option (Bytes × Bytes) :=
  (s.idxOf? delim).map fun i => (s.take (i + 1), s.drop (i + 1))

/-- The loop of `ReadString`: a full buffer is set aside in `acc`, and otherwise the
buffer is filled by one read. -/
def readStringLoop (delim : UInt8) : ℕ → Bytes → Bufio σ → Option Bytes × Bufio σ
  | 0, _, r => (none, r)
  | fuel + 1, acc, r =>
    match cutAfter delim r.buffered with
    | some (line, rest) => (some (acc ++ line), { r with buffered := rest })
    | none =>
      if bufferSize ≤ r.buffered.length then
        readStringLoop delim fuel (acc ++ r.buffered) { r with buffered := [] }
      else
        match read r.src (bufferSize - r.buffered.length) with
        | none => (none, { r with buffered := [] })
        | some (p, src) => readStringLoop delim fuel acc ⟨r.buffered ++ p, src⟩

/-- `Reader.ReadString`; `none` is an error of the source. -/
def Bufio.readString (r : Bufio σ) (delim : UInt8) : Option Bytes × Bufio σ :=
  readStringLoop delim (2 * size r.src + 2) [] r

/-- The loop of `io.ReadFull` over `Reader.Read`: what is buffered is taken first, and
a long read goes past the empty buffer. -/
def readFullLoop : ℕ → ℕ → Bytes → Bufio σ → Option Bytes × Bufio σ
  | 0, _, _, r => (none, r)
  | fuel + 1, need, acc, r =>
    if need = 0 then (some acc, r)
    else if r.buffered ≠ [] then
      readFullLoop fuel (need - r.buffered.length) (acc ++ r.buffered.take need)
        { r with buffered := r.buffered.drop need }
    else if bufferSize ≤ need then
      match read r.src need with
      | none => (none, r)
      | some (p, src) => readFullLoop fuel (need - p.length) (acc ++ p) ⟨[], src⟩
    else
      match read r.src bufferSize with
      | none => (none, r)
      | some (p, src) => readFullLoop fuel need acc ⟨p, src⟩

/-- `io.ReadFull` of `n` bytes; `none` is an error. -/
def Bufio.readFull (r : Bufio σ) (n : ℕ) : Option Bytes × Bufio σ :=
  readFullLoop (2 * size r.src + 2) n [] r

end Reading

/-! ## Lines -/

variable {delim : UInt8}

theorem cutAfter_eq_none {s : Bytes} (h : delim ∉ s) : cutAfter delim s = none := by
  rw [cutAfter, Option.map_eq_none_iff, idxOf?_eq_none_iff]
  exact h

theorem cutAfter_line {body rest : Bytes} (h : delim ∉ body) :
    cutAfter delim (body ++ delim :: rest) = some (body ++ [delim], rest) := by
  rw [cutAfter, idxOf?_append_cons h, Option.map_some]
  simp [take_append, drop_append]

theorem line_unique {body body' rest rest' : Bytes} (h : delim ∉ body)
    (h' : delim ∉ body') (heq : body ++ delim :: rest = body' ++ delim :: rest') :
    body = body' ∧ rest = rest' := by
  have hcut : cutAfter delim (body ++ delim :: rest) = some (body ++ [delim], rest) :=
    cutAfter_line h
  rw [heq, cutAfter_line h', Option.some.injEq, Prod.mk.injEq, append_cancel_right_eq] at hcut
  exact ⟨hcut.1.symm, hcut.2.symm⟩

theorem line_of_append {s t body rest : Bytes} (h : delim ∉ s)
    (heq : s ++ t = body ++ delim :: rest) :
    ∃ body', body = s ++ body' ∧ t = body' ++ delim :: rest := by
  rcases append_eq_append_iff.mp heq with ⟨body', hbody, ht⟩ | ⟨tail, hs, hrest⟩
  · exact ⟨body', hbody, ht⟩
  · cases tail with
    | nil =>
      refine ⟨[], ?_, ?_⟩
      · simpa using hs.symm
      · simpa using hrest.symm
    | cons b tail =>
      -- the delimiter would be in `s`
      obtain rfl : delim = b := by
        exact (List.cons.inj hrest).1
      exact absurd (by simp [hs]) h

/-- A piece that is not longer than the front of the string is part of it. -/
theorem split_front {p s front rest : Bytes} (hlen : p.length ≤ front.length)
    (heq : p ++ s = front ++ rest) : ∃ front', front = p ++ front' ∧ s = front' ++ rest := by
  obtain ⟨front', rfl⟩ : p <+: front :=
    prefix_of_prefix_length_le ⟨s, heq⟩ (prefix_append _ _) hlen
  rw [append_assoc] at heq
  exact ⟨front', rfl, append_cancel_left heq⟩

/-! ## Reading from a lawful source -/

open Bufio

section Lawful

variable {σ : Type} [LawfulSource σ]

/-- All that can still be read. -/
def Bufio.contents (r : Bufio σ) : Bytes := r.buffered ++ LawfulSource.contents r.src

theorem readStringLoop_spec (rest : Bytes) :
    ∀ (fuel : ℕ) (acc body : Bytes) (r : Bufio σ), delim ∉ body →
      r.contents = body ++ delim :: rest →
      2 * size r.src + (if bufferSize ≤ r.buffered.length then 2 else 1) ≤ fuel →
      ∃ r', readStringLoop delim fuel acc r = (some (acc ++ body ++ [delim]), r') ∧
        r'.contents = rest := by
  intro fuel
  -- a read makes the source smaller; setting a full buffer aside is the one turn without
  -- a read, and no two of these follow each other
  induction fuel with
  | zero =>
    intro acc body r _ _ hfuel
    split at hfuel <;> omega
  | succ fuel ih =>
    intro acc body r hbody hcont hfuel
    rw [readStringLoop]
    by_cases hmem : delim ∈ r.buffered
    · -- the line ends in the buffer
      obtain ⟨line, rest', hbuf, hline⟩ := eq_append_cons_of_mem hmem
      rw [Bufio.contents, hbuf, append_assoc, cons_append] at hcont
      obtain ⟨rfl, hrest⟩ := line_unique hline hbody hcont
      rw [hbuf, cutAfter_line hline]
      exact ⟨{ r with buffered := rest' }, by simp, hrest⟩
    · rw [cutAfter_eq_none hmem]
      by_cases hfull : bufferSize ≤ r.buffered.length
      · rw [if_pos hfull]
        rw [if_pos hfull] at hfuel
        obtain ⟨body', rfl, hsrc⟩ := line_of_append hmem hcont
        have hbody' : delim ∉ body' := fun hc => hbody (mem_append_right _ hc)
        rw [← append_assoc]
        exact ih (acc ++ r.buffered) body' { r with buffered := [] } hbody'
          (by simpa [contents] using hsrc) (by
            rw [if_neg (by simp [bufferSize])]
            dsimp only
            omega)
      · -- the source still has the end of the line, so the read succeeds
        rw [if_neg hfull]
        rw [if_neg hfull] at hfuel
        obtain ⟨body', hb, hsrc⟩ := line_of_append hmem hcont
        have hne : LawfulSource.contents r.src ≠ [] := by simp [hsrc]
        obtain ⟨p, src, hread, _, _, hp⟩ := LawfulSource.read_some r.src
          (bufferSize - r.buffered.length) (by omega) hne
        have hlt := size_lt hread
        rw [hread]
        exact ih acc body ⟨r.buffered ++ p, src⟩ hbody
          (by rw [← hcont, contents, contents, hp, append_assoc]) (by
            dsimp only
            split <;> omega)

/-- `ReadString` returns the first line of the stream, and leaves what follows it. -/
theorem readString_spec {r : Bufio σ} {body rest : Bytes} (hbody : delim ∉ body)
    (hcont : r.contents = body ++ delim :: rest) :
    ∃ r', r.readString delim = (some (body ++ [delim]), r') ∧ r'.contents = rest :=
  readStringLoop_spec rest _ [] body r hbody hcont (by split <;> omega)

theorem readFullLoop_spec (rest : Bytes) :
    ∀ (fuel : ℕ) (acc payload : Bytes) (r : Bufio σ), r.contents = payload ++ rest →
      2 * size r.src + (if r.buffered = [] ∨ payload = [] then 1 else 2) ≤ fuel →
      ∃ r', readFullLoop fuel payload.length acc r = (some (acc ++ payload), r') ∧
        r'.contents = rest := by
  intro fuel
  induction fuel with
  | zero =>
    intro acc payload r _ hfuel
    split at hfuel <;> omega
  | succ fuel ih =>
    intro acc payload r hcont hfuel
    rw [readFullLoop]
    by_cases hneed : payload.length = 0
    · rw [if_pos hneed]
      obtain rfl := length_eq_zero_iff.mp hneed
      exact ⟨r, by simp, hcont⟩
    · rw [if_neg hneed]
      have hpayload : payload ≠ [] := fun hc => hneed (by simp [hc])
      by_cases hbuf : r.buffered = []
      · rw [if_neg (by simpa using hbuf)]
        rw [if_pos (.inl hbuf)] at hfuel
        have hsrc : LawfulSource.contents r.src = payload ++ rest := by
          rw [← hcont, Bufio.contents, hbuf, nil_append]
        have hne : LawfulSource.contents r.src ≠ [] := by simp [hsrc, hpayload]
        by_cases hlong : bufferSize ≤ payload.length
        · -- a long read takes its bytes from the source directly
          rw [if_pos hlong]
          obtain ⟨p, src, hread, _, hlen, hp⟩ :=
            LawfulSource.read_some r.src payload.length (by omega) hne
          have hlt := size_lt hread
          obtain ⟨payload', rfl, hsrc'⟩ := split_front hlen (hp.symm.trans hsrc)
          rw [hread]
          dsimp only
          rw [length_append, Nat.add_sub_cancel_left, ← append_assoc]
          exact ih (acc ++ p) payload' ⟨[], src⟩ hsrc' (by
            rw [if_pos (.inl rfl)]
            dsimp only
            omega)
        · rw [if_neg hlong]
          obtain ⟨p, src, hread, _, _, hp⟩ :=
            LawfulSource.read_some r.src bufferSize (by simp [bufferSize]) hne
          have hlt := size_lt hread
          rw [hread]
          exact ih acc payload ⟨p, src⟩ (by rw [Bufio.contents, ← hp, hsrc]) (by
            dsimp only
            split <;> omega)
      · rw [if_pos hbuf]
        rw [if_neg (by simp [hbuf, hpayload])] at hfuel
        rcases append_eq_append_iff.mp hcont with ⟨payload', rfl, hsrc⟩ | ⟨extra, hb, hrest⟩
        · -- the buffer is used up
          rw [length_append, Nat.add_sub_cancel_left,
            take_of_length_le (by omega), drop_eq_nil_of_le (by omega), ← append_assoc]
          exact ih (acc ++ r.buffered) payload' { r with buffered := [] }
            (by simpa [contents] using hsrc) (by
              rw [if_pos (.inl rfl)]
              dsimp only
              omega)
        · -- the payload was in the buffer
          rw [hb, length_append, Nat.sub_eq_zero_of_le (by omega), take_left, drop_left]
          have hlast := ih (acc ++ payload) [] { r with buffered := extra }
            (by rw [contents, nil_append, hrest]) (by
              rw [if_pos (.inr rfl)]
              dsimp only
              omega)
          rwa [append_nil] at hlast

/-- `ReadFull` returns that many bytes of the stream, and leaves what follows them. -/
theorem readFull_spec {r : Bufio σ} {payload rest : Bytes} (hcont : r.contents = payload ++ rest) :
    ∃ r', r.readFull payload.length = (some payload, r') ∧ r'.contents = rest :=
  readFullLoop_spec rest _ [] payload r hcont (by split <;> omega)

end Lawful

/-! ## Sources -/

/-- The pieces in which a stream arrives.  A read takes a piece, or the part of it for
which there is room. -/
structure Segments where
  pieces : List Bytes
  nonempty : ∀ p ∈ pieces, p ≠ []

/-- A read of at most `n` bytes. -/
def Segments.read (s : Segments) (n : ℕ) : Option (Bytes × Segments) :=
  match s with
  | ⟨[], _⟩ => none
  | ⟨p :: pieces, h⟩ =>
    if n = 0 then none
    else if hlen : p.length ≤ n then
      some (p, ⟨pieces, fun q hq => h q (mem_cons_of_mem _ hq)⟩)
    else
      some (p.take n, ⟨p.drop n :: pieces, by
        intro q hq
        rcases mem_cons.mp hq with rfl | hq
        · intro hc
          exact hlen (drop_eq_nil_iff.mp hc)
        · exact h q (mem_cons_of_mem _ hq)⟩)

instance : LawfulSource Segments where
  read := Segments.read
  size s := s.pieces.flatten.length
  size_lt := by
    rintro ⟨pieces, h⟩ s' n p hread
    cases pieces with
    | nil => simp [Segments.read] at hread
    | cons q pieces =>
      rw [Segments.read] at hread
      have hq : 0 < q.length := length_pos_iff.mpr (h q (by simp))
      split at hread
      · simp at hread
      · split at hread
        all_goals
          cases hread
          simp
          omega
  contents s := s.pieces.flatten
  read_some := by
    rintro ⟨pieces, h⟩ n hn hne
    cases pieces with
    | nil => simp at hne
    | cons q pieces =>
      have hq := h q (by simp)
      by_cases hlen : q.length ≤ n
      · exact ⟨q, _, by rw [Segments.read, if_neg (Nat.ne_of_gt hn), dif_pos hlen], hq, hlen, rfl⟩
      · refine ⟨q.take n, _, by rw [Segments.read, if_neg (Nat.ne_of_gt hn), dif_neg hlen], ?_, ?_,
          ?_⟩
        · simp [hq, Nat.ne_of_gt hn]
        · simp
        · simp [← append_assoc]

/-- The results of the reads of a connection. One that is empty or longer than what was asked for
ends the script. -/
structure Script where
  reads : List Bytes

instance : Source Script where
  read s n :=
    match s.reads with
    | [] => none
    | p :: reads => if p ≠ [] ∧ p.length ≤ n then some (p, ⟨reads⟩) else none
  size s := s.reads.length
  size_lt := by
    rintro ⟨reads⟩ s' n p hread
    cases reads with
    | nil => simp at hread
    | cons q reads =>
      dsimp only at hread
      split at hread
      · cases hread
        simp
      · simp at hread

/-! ## Reading from a script -/

/-- What a line cost: the reads `taken` complete it, all but the last end inside of it, and
`buffered` is what the last one brought along. -/
structure TookLine (delim : UInt8) (start : Bytes) (reads : List Bytes) (body : Bytes)
    (r' : Bufio Script) (taken : List Bytes) : Prop where
  reads_eq : reads = taken ++ r'.src.reads
  body_free : delim ∉ body
  bytes_eq : start ++ taken.flatten = body ++ delim :: r'.buffered
  needed : taken ≠ [] → (start ++ taken.dropLast.flatten).length ≤ body.length

theorem readStringLoop_script :
    ∀ (fuel : ℕ) (acc start : Bytes) (reads : List Bytes) (out : Bytes) (r' : Bufio Script),
      readStringLoop delim fuel acc ⟨start, ⟨reads⟩⟩ = (some out, r') →
      ∃ body taken, out = acc ++ body ++ [delim] ∧ TookLine delim start reads body r' taken := by
  intro fuel
  induction fuel with
  | zero =>
    intro acc start reads out r' h
    simp [readStringLoop] at h
  | succ fuel ih =>
    intro acc start reads out r' h
    rw [readStringLoop] at h
    by_cases hmem : delim ∈ start
    · obtain ⟨line, rest, rfl, hline⟩ := eq_append_cons_of_mem hmem
      rw [cutAfter_line hline] at h
      obtain ⟨hout, rfl⟩ := Prod.mk.inj h
      refine ⟨line, [], ?_, rfl, hline, by simp, by simp⟩
      rw [← Option.some.inj hout, append_assoc]
    · rw [cutAfter_eq_none hmem] at h
      by_cases hfull : bufferSize ≤ start.length
      · rw [if_pos hfull] at h
        obtain ⟨body, taken, rfl, htook⟩ := ih _ _ _ _ _ h
        refine ⟨start ++ body, taken, by simp, htook.reads_eq, ?_, ?_, ?_⟩
        · simp [hmem, htook.body_free]
        · rw [append_assoc, ← htook.bytes_eq, nil_append]
        · intro hne
          have := htook.needed hne
          simp only [nil_append, length_append] at this ⊢
          omega
      · rw [if_neg hfull] at h
        cases reads with
        | nil => simp [Source.read] at h
        | cons p reads =>
          by_cases hp : p ≠ [] ∧ p.length ≤ bufferSize - start.length
          · simp only [Source.read, if_pos hp] at h
            obtain ⟨body, taken, rfl, htook⟩ := ih _ _ _ _ _ h
            refine ⟨body, p :: taken, rfl, ?_, htook.body_free, ?_, ?_⟩
            · rw [htook.reads_eq, cons_append]
            · rw [← htook.bytes_eq, flatten_cons, append_assoc]
            · -- before `p` came there was no delimiter, so all of it is in the line
              intro _
              cases taken with
              | nil =>
                have heq := htook.bytes_eq
                rw [append_assoc] at heq
                obtain ⟨body', rfl, _⟩ := line_of_append hmem heq
                simp
              | cons q taken =>
                have := htook.needed (by simp)
                rw [dropLast_cons_of_ne_nil (by simp), flatten_cons, ← append_assoc]
                exact this
          · simp only [Source.read, if_neg hp] at h
            simp at h

/-- `ReadString` on a script, when it succeeds. -/
theorem readString_script {start : Bytes} {reads : List Bytes} {out : Bytes}
    {r' : Bufio Script} (h : readString ⟨start, ⟨reads⟩⟩ delim = (some out, r')) :
    ∃ body taken, out = body ++ [delim] ∧ TookLine delim start reads body r' taken := by
  obtain ⟨body, taken, hout, htook⟩ := readStringLoop_script _ _ _ _ _ _ h
  exact ⟨body, taken, by simpa using hout, htook⟩

end GoIO
