/-
# The handler chain of the DNS server

Model of `client/internal/dns/handler_chain.go`: the handlers of the DNS server with their patterns
and priorities, in the order in which a query is offered to them.  A chain has at most one entry
for a pattern, up to case, and a priority; entries stand by priority, and those of one priority by
the number of dots of their patterns.
-/
import AnonBird.DNSNames

open GoStrings DNSNames List

namespace DNS

/-- The priority of the cache of management domains. -/
def priorityMgmtCache : ℤ := 150
/-- The priority of domain routes. -/
def priorityDNSRoute : ℤ := 100
/-- The priority of local records. -/
def priorityLocal : ℤ := 75
/-- The priority of match domains. -/
def priorityUpstream : ℤ := 50
/-- The priority of the primary name servers. -/
def priorityDefault : ℤ := 1
/-- The priority of the host's own name servers. -/
def priorityFallback : ℤ := -100

/-- `SubdomainMatcher`, with `false` for handlers that do not implement it. -/
class SubdomainMatcher (H : Type) where
  matchSubdomains : H → Bool

/-- A registered handler. -/
structure HandlerEntry (H : Type) where
  handler : H
  priority : ℤ
  pattern : Bytes
  origPattern : Bytes
  isWildcard : Bool
  matchSubdomains : Bool
  deriving DecidableEq

variable {H : Type}

namespace HandlerEntry

/-- What `removeEntry` looks for. -/
def key (e : HandlerEntry H) : Bytes × ℤ := (e.origPattern, e.priority)

/-- `strings.Count(pattern, ".")`. -/
def dots (e : HandlerEntry H) : ℕ := e.pattern.count 46

/-- The condition of `findHandlerPosition` to place a new entry before an old one. -/
def goesBefore (newEntry h : HandlerEntry H) : Bool :=
  h.priority < newEntry.priority || (h.priority = newEntry.priority && h.dots < newEntry.dots)

/-- The condition of `removeEntry`. -/
def isFor (pattern : Bytes) (priority : ℤ) (e : HandlerEntry H) : Bool :=
  equalFold e.origPattern pattern && e.priority = priority

/-- The order of the chain. -/
def Precedes (a b : HandlerEntry H) : Prop :=
  b.priority < a.priority ∨ (b.priority = a.priority ∧ b.dots ≤ a.dots)

theorem Precedes.trans {a b c : HandlerEntry H} (hab : a.Precedes b) (hbc : b.Precedes c) :
    a.Precedes c := by
  unfold Precedes at *
  omega

theorem precedes_of_goesBefore {a b : HandlerEntry H} (h : a.goesBefore b) : a.Precedes b := by
  simp only [goesBefore, Bool.or_eq_true, Bool.and_eq_true, decide_eq_true_eq] at h
  unfold Precedes
  omega

theorem precedes_of_not_goesBefore {a b : HandlerEntry H} (h : a.goesBefore b = false) :
    b.Precedes a := by
  simp only [goesBefore, Bool.or_eq_false_iff, Bool.and_eq_false_iff,
    decide_eq_false_iff_not] at h
  unfold Precedes
  omega

end HandlerEntry

open HandlerEntry

/-- `HandlerChain`: at most one entry for a pattern and a priority, in order. -/
structure HandlerChain (H : Type) where
  handlers : List (HandlerEntry H)
  nodup : (handlers.map key).Nodup
  lower : ∀ e ∈ handlers, toLower e.origPattern = e.origPattern
  sorted : handlers.Pairwise Precedes

/-- The chain without handlers. -/
def newHandlerChain : HandlerChain H := ⟨[], nodup_nil, by simp, List.Pairwise.nil⟩

/-- The entry that `AddHandler` makes. -/
def newEntry [SubdomainMatcher H] (pattern : Bytes) (handler : H) (priority : ℤ) :
    HandlerEntry H :=
  let origPattern := canonical pattern
  let isWildcard := (ascii "*.").isPrefixOf origPattern
  { handler, priority, origPattern, isWildcard
    pattern := if isWildcard then origPattern.drop 2 else origPattern
    matchSubdomains := SubdomainMatcher.matchSubdomains handler }

variable (pattern : Bytes) (handler : H)

theorem newEntry_lower [SubdomainMatcher H] (priority : ℤ) :
    toLower (newEntry pattern handler priority).origPattern =
      (newEntry pattern handler priority).origPattern :=
  toLower_canonical pattern

namespace HandlerChain

variable (c : HandlerChain H)

/-- Chains keep their invariant when entries are left out. -/
def restrict (handlers : List (HandlerEntry H)) (h : handlers.Sublist c.handlers) :
    HandlerChain H where
  handlers := handlers
  nodup := c.nodup.sublist (h.map _)
  lower e he := c.lower e (h.subset he)
  sorted := c.sorted.sublist h

/-- `removeEntry`: the last entry for the pattern and the priority is removed. -/
def removeEntry (pattern : Bytes) (priority : ℤ) : HandlerChain H :=
  c.restrict ((c.handlers.reverse.eraseP (isFor pattern priority)).reverse) <| by
    have hsub : (c.handlers.reverse.eraseP (isFor pattern priority)).Sublist
        c.handlers.reverse := eraseP_sublist
    simpa using hsub.reverse

/-- The handler at a pattern and a priority is removed. -/
def removeHandler (pattern : Bytes) (priority : ℤ) : HandlerChain H :=
  c.removeEntry (fqdn pattern) priority

theorem isFor_iff {e : HandlerEntry H} (he : e ∈ c.handlers) (pattern : Bytes) (priority : ℤ) :
    e.isFor pattern priority ↔ e.key = (toLower pattern, priority) := by
  rw [isFor, key, equalFold, c.lower e he]
  simp

/-- No second entry is for the same pattern and priority, so the last is the only one. -/
theorem mem_removeEntry (priority : ℤ) (e : HandlerEntry H) :
    e ∈ (c.removeEntry pattern priority).handlers ↔
      e ∈ c.handlers ∧ e.key ≠ (toLower pattern, priority) := by
  have hone : c.handlers.reverse.Pairwise fun a b =>
      a.isFor pattern priority → ¬ b.isFor pattern priority := by
    rw [pairwise_reverse]
    refine (pairwise_map.mp c.nodup).imp_of_mem fun {a b} ha hb hne hforb hfora => ?_
    rw [isFor_iff c hb] at hforb
    rw [isFor_iff c ha] at hfora
    exact hne (hfora.trans hforb.symm)
  show e ∈ (c.handlers.reverse.eraseP _).reverse ↔ _
  rw [mem_reverse]
  constructor
  · intro he
    have hmem := mem_of_mem_eraseP he
    refine ⟨mem_reverse.mp hmem, fun hkey => ?_⟩
    have hfor := (c.isFor_iff (mem_reverse.mp hmem) pattern priority).mpr hkey
    -- only the first entry for the key is removed, and there is no other
    obtain ⟨a, before, after, hbefore, ha, hsplit, herase⟩ := exists_of_eraseP hmem hfor
    rw [herase] at he
    rw [hsplit, pairwise_append, pairwise_cons] at hone
    rcases mem_append.mp he with he | he
    · exact hbefore e he hfor
    · exact hone.2.1.1 e he ha hfor
  · rintro ⟨he, hkey⟩
    refine (mem_eraseP_of_neg fun hfor => hkey ?_).mpr (mem_reverse.mpr he)
    exact (c.isFor_iff he pattern priority).mp hfor

@[simp] theorem mem_removeHandler (priority : ℤ) (e : HandlerEntry H) :
    e ∈ (c.removeHandler pattern priority).handlers ↔
      e ∈ c.handlers ∧ e.key ≠ (canonical pattern, priority) :=
  c.mem_removeEntry _ _ e

/-- Where an entry is inserted. -/
def findHandlerPosition (entry : HandlerEntry H) : ℕ := c.handlers.findIdx entry.goesBefore

/-- An entry takes its place in a chain that has none for its pattern and priority. -/
def insert (entry : HandlerEntry H) (hlower : toLower entry.origPattern = entry.origPattern)
    (hnew : ∀ e ∈ c.handlers, e.key ≠ entry.key) : HandlerChain H where
  handlers :=
    c.handlers.take (c.findHandlerPosition entry) ++
      entry :: c.handlers.drop (c.findHandlerPosition entry)
  nodup := by
    have hperm : (c.handlers.take (c.findHandlerPosition entry) ++
        entry :: c.handlers.drop (c.findHandlerPosition entry)).Perm (entry :: c.handlers) := by
      refine perm_middle.trans (List.Perm.cons _ ?_)
      rw [take_append_drop]
    rw [(hperm.map key).nodup_iff, map_cons, nodup_cons]
    refine ⟨fun hmem => ?_, c.nodup⟩
    obtain ⟨e, he, hkey⟩ := mem_map.mp hmem
    exact hnew e he hkey
  lower := by
    intro e he
    rcases mem_append.mp he with h | h
    · exact c.lower e (mem_of_mem_take h)
    · rcases mem_cons.mp h with rfl | h
      · exact hlower
      · exact c.lower e (mem_of_mem_drop h)
  sorted := by
    -- the new entry goes before the first one that it may precede
    have hsplit : c.handlers.take (c.findHandlerPosition entry) =
        c.handlers.takeWhile fun h => !entry.goesBefore h := by
      rw [takeWhile_eq_take_findIdx_not]
      simp only [Bool.not_not, findHandlerPosition]
    have hrest : c.handlers.drop (c.findHandlerPosition entry) =
        c.handlers.dropWhile fun h => !entry.goesBefore h := by
      rw [dropWhile_eq_drop_findIdx_not]
      simp only [Bool.not_not, findHandlerPosition]
    have hsorted := c.sorted
    rw [← take_append_drop (c.findHandlerPosition entry) c.handlers,
      pairwise_append] at hsorted
    obtain ⟨htake, hdrop, hcross⟩ := hsorted
    rw [pairwise_append, pairwise_cons]
    refine ⟨htake, ⟨fun b hb => ?_, hdrop⟩, fun a ha b hb => ?_⟩
    · rw [hrest] at hb hdrop
      cases hcase : c.handlers.dropWhile (fun h => !entry.goesBefore h) with
      | nil =>
        rw [hcase] at hb
        cases hb
      | cons first rest =>
        have hfirst : entry.Precedes first := by
          have h := List.head?_dropWhile_not (fun h => !entry.goesBefore h) c.handlers
          rw [hcase] at h
          exact precedes_of_goesBefore (by simpa using h)
        rw [hcase] at hb hdrop
        rcases mem_cons.mp hb with rfl | hb
        · exact hfirst
        · exact hfirst.trans ((pairwise_cons.mp hdrop).1 b hb)
    · rcases mem_cons.mp hb with rfl | hb
      · rw [hsplit] at ha
        exact precedes_of_not_goesBefore (by simpa using mem_takeWhile_imp ha)
      · exact hcross a ha b hb

theorem mem_insert {entry : HandlerEntry H} (hlower : toLower entry.origPattern = entry.origPattern)
    (hnew : ∀ e ∈ c.handlers, e.key ≠ entry.key) (e : HandlerEntry H) :
    e ∈ (c.insert entry hlower hnew).handlers ↔ e = entry ∨ e ∈ c.handlers := by
  show e ∈ c.handlers.take (c.findHandlerPosition entry) ++
    entry :: c.handlers.drop (c.findHandlerPosition entry) ↔ _
  have hmem : e ∈ c.handlers ↔ e ∈ c.handlers.take (c.findHandlerPosition entry) ∨
      e ∈ c.handlers.drop (c.findHandlerPosition entry) := by
    rw [← mem_append, take_append_drop]
  rw [mem_append, mem_cons, hmem]
  tauto

theorem key_ne_newEntry [SubdomainMatcher H] (priority : ℤ) :
    ∀ e ∈ (c.removeEntry (newEntry pattern handler priority).origPattern priority).handlers,
      e.key ≠ (newEntry pattern handler priority).key := by
  intro e he
  rw [mem_removeEntry, newEntry_lower] at he
  exact he.2

/-- A handler is added in place of the one at its pattern and priority. -/
def addHandler [SubdomainMatcher H] (pattern : Bytes) (handler : H) (priority : ℤ) :
    HandlerChain H :=
  let entry := newEntry pattern handler priority
  (c.removeEntry entry.origPattern priority).insert entry
    (newEntry_lower pattern handler priority) (c.key_ne_newEntry pattern handler priority)

@[simp] theorem mem_addHandler [SubdomainMatcher H] (priority : ℤ) (e : HandlerEntry H) :
    e ∈ (c.addHandler pattern handler priority).handlers ↔ e = newEntry pattern handler priority ∨
        e ∈ c.handlers ∧ e.key ≠ (canonical pattern, priority) := by
  rw [addHandler, mem_insert, mem_removeEntry, newEntry_lower]
  rfl

end HandlerChain

/-! ## Dispatch -/

/-- A name matches the pattern of an entry. -/
def isHandlerMatch (qname : Bytes) (entry : HandlerEntry H) : Bool :=
  if entry.pattern = [46] then true
  else if entry.isWildcard then (46 :: entry.pattern).isSuffixOf qname
  else if entry.matchSubdomains then
    equalFold qname entry.pattern || (46 :: entry.pattern).isSuffixOf qname
  else equalFold qname entry.pattern

variable (continues : HandlerEntry H → Bool) (name : Bytes) (maxPriority : ℤ)

/-- The entries at which `dispatch` can end: `continues` says whose handler asks it to go on. -/
def settles (entry : HandlerEntry H) : Bool :=
  entry.priority ≤ maxPriority && isHandlerMatch (toLower name) entry && !continues entry

/-- `dispatch`: the entry whose handler has the last word; without one the query is refused. -/
def HandlerChain.dispatch (c : HandlerChain H) : Option (HandlerEntry H) :=
  c.handlers.find? (settles continues name maxPriority)

/-- A pattern other than the root matches at the start of a label. -/
theorem ends_of_isHandlerMatch {name : Bytes} {a : HandlerEntry H} (hroot : a.pattern ≠ [46])
    (h : isHandlerMatch (toLower name) a) :
    toLower name = toLower a.pattern ∨ 46 :: toLower a.pattern <:+ toLower name := by
  have hsuffix (h : (46 :: a.pattern).isSuffixOf (toLower name)) :
      46 :: toLower a.pattern <:+ toLower name := by
    rw [← toLower_toLower name]
    exact (isSuffixOf_iff_suffix.mp h).map lowerByte
  simp only [isHandlerMatch, if_neg hroot, equalFold, toLower_toLower] at h
  split_ifs at h
  · exact .inr (hsuffix h)
  · exact (Bool.or_eq_true_iff.mp h).imp of_decide_eq_true hsuffix
  · exact .inl (of_decide_eq_true h)

/-- Of two such endings, the one with as many dots ends in the other. -/
theorem suffix_of_dots_le {q s t : Bytes} (hs : q = s ∨ 46 :: s <:+ q) (ht : q = t ∨ 46 :: t <:+ q)
    (hdots : t.count 46 ≤ s.count 46) : t <:+ s := by
  have htq : t <:+ q := ht.elim (fun h => h ▸ suffix_rfl) (suffix_cons 46 t).trans
  rcases hs with rfl | hs
  · exact htq
  obtain hlen | hlen := le_or_gt t.length s.length
  · exact suffix_of_suffix_length_le htq ((suffix_cons 46 s).trans hs) hlen
  · -- the longer one has the dot before the shorter one as well
    have hcount := (suffix_of_suffix_length_le hs htq hlen).sublist.count_le 46
    rw [count_cons_self] at hcount
    omega

theorem count_toLower (s : Bytes) : (toLower s).count 46 = s.count 46 := by
  rw [count, toLower, countP_map]
  exact countP_congr fun b _ => by grind [lowerByte]

/-- **The most specific handler answers**: a query is refused only if all that match ask to go on,
and else ends at the highest priority and the longest pattern; the root counts as one label. -/
theorem dispatch_most_specific (c : HandlerChain H) :
    (c.dispatch continues name maxPriority = none → ∀ b ∈ c.handlers, b.priority ≤ maxPriority →
      isHandlerMatch (toLower name) b → continues b) ∧
    ∀ a, c.dispatch continues name maxPriority = some a →
      a ∈ c.handlers ∧ settles continues name maxPriority a ∧
      ∀ b ∈ c.handlers, settles continues name maxPriority b → a.Precedes b ∧
        (b.priority = a.priority →
          toLower b.pattern <:+ toLower a.pattern ∨ a.pattern = [46] ∨ b.pattern = [46]) := by
  refine ⟨fun h => by simpa [settles] using find?_eq_none.mp h, fun a h => ?_⟩
  obtain ⟨ha, before, rest, hsplit, hbefore⟩ := find?_eq_some_iff_append.mp h
  refine ⟨mem_of_find?_eq_some h, ha, fun b hb hb' => ?_⟩
  have hprec : a.Precedes b := by
    have hsorted := c.sorted
    rw [hsplit, pairwise_append, pairwise_cons] at hsorted
    rw [hsplit, mem_append, mem_cons] at hb
    rcases hb with hb | rfl | hb
    · exact absurd (hbefore b hb) (by simp [hb'])
    · exact .inr ⟨rfl, le_rfl⟩
    · exact hsorted.2.1.1 b hb
  refine ⟨hprec, fun hprio => or_iff_not_imp_right.mpr fun hroot => ?_⟩
  simp only [settles, Bool.and_eq_true] at ha hb'
  refine suffix_of_dots_le (ends_of_isHandlerMatch (not_or.mp hroot).1 ha.1.2)
    (ends_of_isHandlerMatch (not_or.mp hroot).2 hb'.1.2) ?_
  rw [count_toLower, count_toLower]
  exact (hprec.resolve_left hprio.not_lt).2

end DNS
