/-
# Merging prefixes

Model of `MergeIPRanges` in `client/firewall/manager/firewall.go`, which is applied to prefixes that
`SortPrefixes` has ordered.  A prefix is compared with the last one that was kept, and by its
address only: a wider prefix behind a narrower one with the same address is skipped, and
`SortPrefixes` puts the narrower one first.  The addresses stay the same exactly if what such a
prefix covers is covered by the others, and sorted prefixes come out disjoint exactly if no prefix
contains the address of one that was kept before the last (`merge_covers_iff`).
-/
import AnonBird.RouteACL

open NetIP List

namespace Uspfilter

/-- One turn of the loop of `MergeIPRanges`; the last prefix that was kept is in front. -/
def mergeStep (merged : List Prefix) (pfx : Prefix) : List Prefix :=
  match merged with
  | [] => [pfx]
  | last :: rest =>
    if last.contains pfx.addr then merged
    else if pfx.contains last.addr then pfx :: rest
    else pfx :: merged

/-- `MergeIPRanges`. -/
def mergeIPRanges (prefixes : List Prefix) : List Prefix := (prefixes.foldl mergeStep []).reverse

/-- What `netip.Prefix` is: an address without a zone and a number of its bits. -/
def Valid (p : Prefix) : Prop := p.addr.zone = [] ∧ p.bits ≤ p.addr.bitLen

/-- An address is in one of the prefixes. -/
def Covers (prefixes : List Prefix) (ip : Addr) : Prop := ∃ p ∈ prefixes, p.contains ip

/-- Two prefixes have no address in common. -/
def Apart (p q : Prefix) : Prop := ∀ ip, ¬ (p.contains ip ∧ q.contains ip)

theorem contains_iff {p : Prefix} {ip : Addr} : p.contains ip ↔ p.bits ≤ p.addr.bitLen ∧
    ip.zone = [] ∧ p.addr.bitLen = ip.bitLen ∧
    ip.value / 2 ^ (ip.bitLen - p.bits) = p.addr.value / 2 ^ (ip.bitLen - p.bits) := by
  simp [Prefix.contains, and_assoc]

variable {p q r : Prefix} {ip : Addr} {l : List Prefix}

theorem Valid.contains_self (h : Valid p) : p.contains p.addr :=
  contains_iff.mpr ⟨h.2, h.1, rfl, rfl⟩

/-- Of two prefixes with a common address, the wider one contains the other. -/
theorem contains_of_common (hq : Valid q) (hp : p.contains ip) (hqip : q.contains ip)
    (hle : p.bits ≤ q.bits) {x : Addr} (hx : q.contains x) : p.contains x := by
  obtain ⟨hbits, -, hlen, hdiv⟩ := contains_iff.mp hp
  obtain ⟨-, -, hlen', hdiv'⟩ := contains_iff.mp hqip
  obtain ⟨-, hzone, hlen'', hdiv''⟩ := contains_iff.mp hx
  have hfamily : x.bitLen = ip.bitLen := hlen''.symm.trans hlen'
  rw [hfamily] at hdiv''
  refine contains_iff.mpr ⟨hbits, hzone, hlen.trans hfamily.symm, ?_⟩
  -- values that agree in the bits of `q` agree in the bits of `p`
  have hsplit : 2 ^ (ip.bitLen - p.bits) = 2 ^ (ip.bitLen - q.bits) * 2 ^ (q.bits - p.bits) := by
    rw [← pow_add]
    congr 1
    have := hq.2
    omega
  rw [hfamily, ← hdiv, hsplit, ← Nat.div_div_eq_div_mul, ← Nat.div_div_eq_div_mul,
    hdiv''.trans hdiv'.symm]

/-- A prefix that contains the address of another one and is not contained in it is wider. -/
theorem bits_le_of_contains (hq : Valid q) (hp : Valid p) (hnot : ¬ q.contains p.addr)
    (hin : p.contains q.addr) : p.bits ≤ q.bits := by
  by_contra hlt
  exact hnot (contains_of_common hp hq.contains_self hin (by omega) hp.contains_self)

/-- Prefixes with a common address contain the address of one of them. -/
theorem apart_iff (hp : Valid p) (hq : Valid q) :
    Apart p q ↔ ¬ p.contains q.addr ∧ ¬ q.contains p.addr := by
  constructor
  · intro h
    exact ⟨fun hin => h q.addr ⟨hin, hq.contains_self⟩, fun hin => h p.addr ⟨hp.contains_self, hin⟩⟩
  · rintro ⟨hpq, hqp⟩ ip ⟨hpip, hqip⟩
    rcases le_total p.bits q.bits with hle | hle
    · exact hpq (contains_of_common hq hpip hqip hle hq.contains_self)
    · exact hqp (contains_of_common hp hqip hpip hle hp.contains_self)

variable {merged : List Prefix}

theorem mem_mergeStep (h : q ∈ mergeStep merged p) : q = p ∨ q ∈ merged := by
  unfold mergeStep at h
  split at h
  · exact .inl (mem_singleton.mp h)
  · split_ifs at h
    · exact .inr h
    · exact (mem_cons.mp h).imp_right (mem_cons_of_mem _)
    · exact mem_cons.mp h

theorem mem_of_mem_foldl (h : q ∈ l.foldl mergeStep []) : q ∈ l := by
  induction l using reverseRecOn with
  | nil => cases h
  | append_singleton l p ih =>
    rw [foldl_concat] at h
    rcases mem_mergeStep h with rfl | h
    · simp
    · exact mem_append_left _ (ih h)

/-! ## Coverage -/

/-- A turn of the loop skips a prefix that is wider than the last one that was kept. -/
def SkipsWider (merged : List Prefix) (p : Prefix) : Prop :=
  ∃ last ∈ merged.head?, last.contains p.addr ∧ p.bits < last.bits

/-- A prefix of the list that the loop does not skip in favour of a narrower one. -/
def Considered (l : List Prefix) (p : Prefix) : Prop :=
  ∃ pre post, l = pre ++ p :: post ∧ ¬ SkipsWider (pre.foldl mergeStep []) p

/-- The addresses of a prefix that is skipped in favour of a narrower one are in others that are
not. -/
def WiderCovered (l : List Prefix) : Prop :=
  ∀ pre p post, l = pre ++ p :: post → SkipsWider (pre.foldl mergeStep []) p →
    ∀ ip, p.contains ip → ∃ q, Considered l q ∧ q.contains ip

theorem mergeStep_of_skipsWider (h : SkipsWider merged p) : mergeStep merged p = merged := by
  obtain ⟨last, hlast, hin, -⟩ := h
  cases merged with
  | nil => cases hlast
  | cons first rest =>
    obtain rfl : first = last := Option.some.inj hlast
    exact if_pos hin

/-- A turn adds the addresses of the prefix, unless it skips one that is wider. -/
theorem covers_mergeStep (hvalid : ∀ q ∈ merged, Valid q) (hp : Valid p)
    (hskip : ¬ SkipsWider merged p) :
    Covers (mergeStep merged p) ip ↔ Covers merged ip ∨ p.contains ip := by
  unfold Covers mergeStep
  split
  · simp
  next last rest =>
    have hlast := hvalid last mem_cons_self
    split_ifs with hin hin'
    · -- the skipped prefix is not wider
      have hle : last.bits ≤ p.bits := not_lt.mp fun hlt => hskip ⟨last, rfl, hin, hlt⟩
      refine (or_iff_left_of_imp fun hip => ⟨last, mem_cons_self, ?_⟩).symm
      exact contains_of_common hp hin hp.contains_self hle hip
    · -- the replaced prefix is not wider
      have hwider : last.contains ip → p.contains ip :=
        contains_of_common hlast hin' hlast.contains_self (bits_le_of_contains hlast hp hin hin')
      simp only [mem_cons, or_and_right, exists_or, exists_eq_left]
      rw [or_comm, or_right_comm, or_iff_right_of_imp hwider, or_comm]
    · simp only [mem_cons, or_and_right, exists_or, exists_eq_left]
      rw [or_comm]

theorem considered_concat : Considered (l ++ [p]) q ↔
    Considered l q ∨ q = p ∧ ¬ SkipsWider (l.foldl mergeStep []) p := by
  constructor
  · rintro ⟨pre, post, heq, hskip⟩
    rcases eq_nil_or_concat post with rfl | ⟨post, r, rfl⟩
    · obtain ⟨rfl, hlast⟩ := append_inj' heq rfl
      obtain rfl : p = q := (cons.inj hlast).1
      exact .inr ⟨rfl, hskip⟩
    · rw [concat_eq_append, ← cons_append, ← append_assoc] at heq
      exact .inl ⟨pre, post, (append_inj' heq rfl).1, hskip⟩
  · rintro (⟨pre, post, rfl, hskip⟩ | ⟨rfl, hskip⟩)
    · exact ⟨pre, post ++ [p], by simp, hskip⟩
    · exact ⟨l, [], rfl, hskip⟩

/-- What the merged prefixes cover. -/
theorem covers_foldl (hvalid : ∀ p ∈ l, Valid p) :
    Covers (l.foldl mergeStep []) ip ↔ ∃ q, Considered l q ∧ q.contains ip := by
  induction l using reverseRecOn with
  | nil => simp [Covers, Considered]
  | append_singleton l p ih =>
    have hvalid' : ∀ q ∈ l, Valid q := fun q hq => hvalid q (mem_append_left _ hq)
    have hkept : ∀ q ∈ l.foldl mergeStep [], Valid q := fun q hq => hvalid' q (mem_of_mem_foldl hq)
    rw [foldl_concat]
    by_cases hskip : SkipsWider (l.foldl mergeStep []) p
    · rw [mergeStep_of_skipsWider hskip, ih hvalid']
      simp only [considered_concat, hskip, not_true_eq_false, and_false, or_false]
    · rw [covers_mergeStep hkept (hvalid p (by simp)) hskip, ih hvalid']
      simp only [considered_concat, hskip, not_false_eq_true, and_true, or_and_right, exists_or,
        exists_eq_left]

theorem covers_foldl_iff (hvalid : ∀ p ∈ l, Valid p) :
    (∀ ip, Covers (l.foldl mergeStep []) ip ↔ Covers l ip) ↔ WiderCovered l := by
  simp only [covers_foldl hvalid]
  constructor
  · rintro h pre p post rfl - ip hip
    exact (h ip).mpr ⟨p, mem_append_right _ mem_cons_self, hip⟩
  · intro h ip
    constructor
    · rintro ⟨q, ⟨pre, post, rfl, -⟩, hq⟩
      exact ⟨q, mem_append_right _ mem_cons_self, hq⟩
    · rintro ⟨p, hp, hip⟩
      obtain ⟨pre, post, rfl⟩ := append_of_mem hp
      by_cases hskip : SkipsWider (pre.foldl mergeStep []) p
      · exact h pre p post rfl hskip ip hip
      · exact ⟨p, ⟨pre, post, rfl, hskip⟩, hip⟩

/-! ## Disjointness -/

/-- The address of a prefix is behind all addresses of another one. -/
def Beyond (p q : Prefix) : Prop := q.addr.bitLen < p.addr.bitLen ∨
  q.addr.bitLen = p.addr.bitLen ∧
    q.addr.value / 2 ^ (q.addr.bitLen - q.bits) < p.addr.value / 2 ^ (q.addr.bitLen - q.bits)

/-- Sorted prefixes are ordered by family and address. -/
theorem le_of_sortPrefixesLE (h : sortPrefixesLE q p) : q.addr.bitLen < p.addr.bitLen ∨
    q.addr.bitLen = p.addr.bitLen ∧ q.addr.value ≤ p.addr.value := by
  unfold sortPrefixesLE Addr.cmp at h
  rcases lt_trichotomy q.addr.bitLen p.addr.bitLen with hlen | hlen | hlen
  · exact .inl hlen
  · refine .inr ⟨hlen, ?_⟩
    by_contra hlt
    rw [Nat.compare_eq_eq.mpr hlen, Nat.compare_eq_gt.mpr (not_le.mp hlt)] at h
    simp at h
  · rw [Nat.compare_eq_gt.mpr hlen] at h
    simp at h

theorem beyond_of_not_contains (hq : Valid q) (hp : Valid p) (hle : sortPrefixesLE q p)
    (hnot : ¬ q.contains p.addr) : Beyond p q := by
  refine (le_of_sortPrefixesLE hle).imp_right fun ⟨hlen, hval⟩ => ⟨hlen, ?_⟩
  refine lt_of_le_of_ne (Nat.div_le_div_right hval) fun heq => hnot ?_
  exact contains_iff.mpr ⟨hq.2, hp.1, hlen, by rw [← hlen, heq]⟩

theorem Beyond.trans (h : Beyond q r) (hle : sortPrefixesLE q p) : Beyond p r := by
  unfold Beyond at h ⊢
  rcases le_of_sortPrefixesLE hle with hlt | ⟨heq, hval⟩
  · omega
  · have := Nat.div_le_div_right (c := 2 ^ (r.addr.bitLen - r.bits)) hval
    omega

theorem Beyond.not_contains (h : Beyond p q) : ¬ q.contains p.addr := by
  intro hin
  obtain ⟨-, -, hlen, hdiv⟩ := contains_iff.mp hin
  rcases h with hlt | ⟨-, hlt⟩
  · omega
  · rw [hlen] at hlt
    omega

/-- The kept prefixes of a sorted list follow each other. -/
theorem pairwise_beyond (hvalid : ∀ p ∈ l, Valid p)
    (hsorted : l.Pairwise fun a b => sortPrefixesLE a b) :
    (l.foldl mergeStep []).Pairwise Beyond := by
  induction l using reverseRecOn with
  | nil => exact .nil
  | append_singleton l p ih =>
    obtain ⟨hl, -, hle⟩ := pairwise_append.mp hsorted
    have hpair := ih (fun q hq => hvalid q (mem_append_left _ hq)) hl
    have hkept : ∀ q ∈ l.foldl mergeStep [], Valid q ∧ sortPrefixesLE q p := fun q hq =>
      ⟨hvalid q (mem_append_left _ (mem_of_mem_foldl hq)), hle q (mem_of_mem_foldl hq) p (by simp)⟩
    rw [foldl_concat]
    generalize l.foldl mergeStep [] = merged at hpair hkept ⊢
    unfold mergeStep
    split
    · exact pairwise_singleton _ _
    next last rest =>
      obtain ⟨hlast, hlastp⟩ := hkept last mem_cons_self
      obtain ⟨hrest, hpairs⟩ := pairwise_cons.mp hpair
      have hbehind : ∀ r ∈ rest, Beyond p r := fun r hr => (hrest r hr).trans hlastp
      split_ifs with hin hin'
      · exact hpair
      · exact pairwise_cons.mpr ⟨hbehind, hpairs⟩
      · refine pairwise_cons.mpr ⟨fun r hr => ?_, hpair⟩
        rcases mem_cons.mp hr with rfl | hr
        · exact beyond_of_not_contains hlast (hvalid p (by simp)) hlastp hin
        · exact hbehind r hr

/-- No turn of the loop keeps a prefix that contains the address of one kept before the last. -/
def ReachesLastOnly (l : List Prefix) : Prop :=
  ∀ pre p post, l = pre ++ p :: post → ∀ last rest, pre.foldl mergeStep [] = last :: rest →
    ¬ last.contains p.addr → ∀ r ∈ rest, ¬ p.contains r.addr

theorem reachesLastOnly_concat : ReachesLastOnly (l ++ [p]) ↔ ReachesLastOnly l ∧
    ∀ last rest, l.foldl mergeStep [] = last :: rest → ¬ last.contains p.addr →
      ∀ r ∈ rest, ¬ p.contains r.addr := by
  constructor
  · intro h
    exact ⟨fun pre q post heq => h pre q (post ++ [p]) (by simp [heq]), h l p [] rfl⟩
  · rintro ⟨hl, hp⟩ pre q post heq
    rcases eq_nil_or_concat post with rfl | ⟨post, r, rfl⟩
    · obtain ⟨rfl, hlast⟩ := append_inj' heq rfl
      obtain rfl : p = q := (cons.inj hlast).1
      exact hp
    · rw [concat_eq_append, ← cons_append, ← append_assoc] at heq
      exact hl pre q post (append_inj' heq rfl).1

/-- What a turn does to disjoint prefixes that follow each other. -/
theorem pairwise_apart_mergeStep {last : Prefix} {rest : List Prefix}
    (hvalid : ∀ q ∈ last :: rest, Valid q) (hp : Valid p) (hle : sortPrefixesLE last p)
    (hbeyond : ∀ r ∈ rest, Beyond last r) :
    (mergeStep (last :: rest) p).Pairwise Apart ↔ (last :: rest).Pairwise Apart ∧
      (¬ last.contains p.addr → ∀ r ∈ rest, ¬ p.contains r.addr) := by
  have hlast : Valid last := hvalid last mem_cons_self
  have hrest : ∀ r ∈ rest, Apart p r ↔ ¬ p.contains r.addr := by
    intro r hr
    rw [apart_iff hp (hvalid r (mem_cons_of_mem _ hr))]
    exact and_iff_left ((hbeyond r hr).trans hle).not_contains
  unfold mergeStep
  simp only
  split_ifs with hin hin'
  · simp [hin]
  · -- the prefix that is replaced is in the new one
    have hwider : ∀ r, Apart p r → Apart last r := fun r h ip hip => h ip
      ⟨contains_of_common hlast hin' hlast.contains_self (bits_le_of_contains hlast hp hin hin')
        hip.1, hip.2⟩
    rw [pairwise_cons, pairwise_cons]
    constructor
    · rintro ⟨hpr, hpairs⟩
      exact ⟨⟨fun r hr => hwider r (hpr r hr), hpairs⟩, fun _ r hr => (hrest r hr).mp (hpr r hr)⟩
    · rintro ⟨⟨-, hpairs⟩, hpr⟩
      exact ⟨fun r hr => (hrest r hr).mpr (hpr hin r hr), hpairs⟩
  · rw [pairwise_cons]
    constructor
    · rintro ⟨hpr, hpairs⟩
      exact ⟨hpairs, fun _ r hr => (hrest r hr).mp (hpr r (mem_cons_of_mem _ hr))⟩
    · rintro ⟨hpairs, hpr⟩
      refine ⟨fun r hr => ?_, hpairs⟩
      rcases mem_cons.mp hr with rfl | hr
      · exact (apart_iff hp hlast).mpr ⟨hin', hin⟩
      · exact (hrest r hr).mpr (hpr hin r hr)

theorem pairwise_apart_iff (hvalid : ∀ p ∈ l, Valid p)
    (hsorted : l.Pairwise fun a b => sortPrefixesLE a b) :
    (l.foldl mergeStep []).Pairwise Apart ↔ ReachesLastOnly l := by
  induction l using reverseRecOn with
  | nil => simp [ReachesLastOnly]
  | append_singleton l p ih =>
    obtain ⟨hl, -, hle⟩ := pairwise_append.mp hsorted
    have hvalid' : ∀ q ∈ l, Valid q := fun q hq => hvalid q (mem_append_left _ hq)
    have hpair := pairwise_beyond hvalid' hl
    have hkept : ∀ q ∈ l.foldl mergeStep [], Valid q ∧ sortPrefixesLE q p := fun q hq =>
      ⟨hvalid' q (mem_of_mem_foldl hq), hle q (mem_of_mem_foldl hq) p (by simp)⟩
    rw [foldl_concat, reachesLastOnly_concat, ← ih hvalid' hl]
    generalize l.foldl mergeStep [] = merged at hpair hkept ⊢
    cases merged with
    | nil => simp [mergeStep]
    | cons last rest =>
      rw [pairwise_apart_mergeStep (fun q hq => (hkept q hq).1) (hvalid p (by simp))
        (hkept last mem_cons_self).2 (pairwise_cons.mp hpair).1]
      refine and_congr_right fun _ => ⟨?_, fun h => h last rest rfl⟩
      rintro h _ _ ⟨⟩
      exact h

/-- **Merging** keeps the addresses exactly if those of a prefix that is skipped in favour of a
narrower one are in other prefixes, and sorted prefixes come out disjoint exactly if no turn of the
loop keeps one that contains the address of a prefix kept before the last. -/
theorem merge_covers_iff (hvalid : ∀ p ∈ l, Valid p) :
    ((∀ ip, Covers (mergeIPRanges l) ip ↔ Covers l ip) ↔ WiderCovered l) ∧
      ((l.Pairwise fun a b => sortPrefixesLE a b) →
        ((mergeIPRanges l).Pairwise Apart ↔ ReachesLastOnly l)) := by
  have hsymm : ∀ p q, Apart p q ↔ Apart q p := fun p q =>
    forall_congr' fun ip => not_congr and_comm
  constructor
  · rw [← covers_foldl_iff hvalid]
    simp only [Covers, mergeIPRanges, mem_reverse]
  · intro hsorted
    rw [← pairwise_apart_iff hvalid hsorted, mergeIPRanges, pairwise_reverse]
    simp only [hsymm]

/-- Two halves of a prefix are both kept, and cover what they covered. -/
theorem merge_covers_halves :
    let l : List Prefix := [⟨.v4 0x0a000000#32, 9⟩, ⟨.v4 0x0a800000#32, 9⟩]
    (∀ p ∈ l, Valid p) ∧ ∀ ip, Covers (mergeIPRanges l) ip ↔ Covers l ip := by
  have hvalid : ∀ p ∈ [⟨.v4 0x0a000000#32, 9⟩, ⟨.v4 0x0a800000#32, 9⟩], Valid p := by
    simp only [forall_mem_cons, Valid]
    decide
  refine ⟨hvalid, (merge_covers_iff hvalid).1.mpr ?_⟩
  rintro pre p post hl ⟨last, hlast, hin, -⟩
  -- the second half is not in the first, and nothing is before the first
  rcases pre with _ | ⟨first, _ | ⟨second, pre⟩⟩
  · cases hlast
  · obtain ⟨rfl, rfl, -⟩ : _ ∧ _ ∧ _ := by simpa using hl
    obtain rfl : _ = last := Option.some.inj hlast
    exact absurd hin (by decide)
  · simp at hl

/-- 10.0.0.0/24 and 10.0.0.0/8, as `SortPrefixes` orders them, become 10.0.0.0/24.  Of 10.0.0.5/32,
10.0.0.7/32 and 10.0.0.9/8 the last replaces the second and overlaps the first. -/
theorem merge_loses_addresses :
    (let l : List Prefix := [⟨.v4 0x0a000000#32, 24⟩, ⟨.v4 0x0a000000#32, 8⟩];
      sortPrefixes l = l ∧ Covers l (.v4 0x0a010000#32) ∧
        ¬ Covers (mergeIPRanges l) (.v4 0x0a010000#32)) ∧
    let l := [⟨.v4 0x0a000005#32, 32⟩, ⟨.v4 0x0a000007#32, 32⟩, ⟨.v4 0x0a000009#32, 8⟩];
    sortPrefixes l = l ∧ ¬ (mergeIPRanges l).Pairwise Apart := by
  refine ⟨?_, by decide, fun h => ?_⟩
  · unfold Covers
    decide
  · have hpair : [(⟨.v4 0x0a000005#32, 32⟩ : Prefix), ⟨.v4 0x0a000009#32, 8⟩].Pairwise Apart := h
    exact pairwise_pair.mp hpair (.v4 0x0a000005#32) (by decide)

end Uspfilter
