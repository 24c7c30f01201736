/-
# Access rules for routed traffic

Model of the route rules of the userspace router in `client/firewall/uspfilter/filter.go`.  The
rules are kept in a slice that is sorted with the drop rules first, and in a map by their key;
`routeACLsPass` takes the first rule of the slice that matches.  A rule for a set of destinations
gets its prefixes by `UpdateSet`.
-/
import AnonBird.FilterRules
import AnonBird.GoMap
import AnonBird.IPText

open NetIP GoStrings List GoMap

namespace Uspfilter

export GoMap (get set)

/-! ## Destinations and keys -/

/-- `firewall.Set`. -/
structure DestinationSet where
  hash : Bytes := [0, 0, 0, 0]
  comment : Bytes := []
  deriving DecidableEq, Repr

/-- `firewall.Network`; the zero prefix is `none`. -/
structure Network where
  set : DestinationSet := {}
  pfx : Option Prefix := none
  deriving DecidableEq, Repr

/-- The name of a set in the firewall. -/
def DestinationSet.hashedName (s : DestinationSet) : Bytes := ascii "nb-" ++ hexEncode s.hash

/-- The destination is a set. -/
def Network.isSet (n : Network) : Bool := n.set ≠ {}

/-- The destination as text. -/
def Network.string (n : Network) : Bytes :=
  match n.pfx with
  | some p => prefixString (some p)
  | none => if n.isSet then n.set.hashedName else ascii "<invalid network>"

/-- The ports as text. -/
def Port.string (p : Port) : Bytes :=
  let ports := [44].intercalate (p.values.map fun v => formatUint v.toNat)
  if p.isRange then ascii "range:" ++ ports else ports

/-- The protocol as text. -/
def Protocol.text : Protocol → Bytes
  | .tcp => ascii "tcp"
  | .udp => ascii "udp"
  | .icmp => ascii "icmp"
  | .all => ascii "all"
  | .other text => text

/-- The action as a number in text. -/
def Action.itoa : Action → Bytes
  | .accept => ascii "0"
  | .drop => ascii "1"

/-- The order of `SortPrefixes`: longer prefixes of one address first. -/
def sortPrefixesLE (a b : Prefix) : Bool :=
  match a.addr.cmp b.addr with
  | .lt => true
  | .gt => false
  | .eq => b.bits ≤ a.bits

/-- The prefixes in their order. -/
def sortPrefixes (prefixes : List Prefix) : List Prefix :=
  prefixes.insertionSort fun a b => sortPrefixesLE a b

/-- The arguments of `AddRouteFiltering` but for the management id. -/
structure RouteParams where
  sources : List Prefix
  destination : Network
  proto : Protocol
  sPort : Option Port
  dPort : Option Port
  action : Action
  deriving DecidableEq

/-- The sources of a call are sorted in place. -/
def RouteParams.sorted (p : RouteParams) : RouteParams :=
  { p with sources := sortPrefixes p.sources }

/-- The text that `GenerateRouteRuleKey` hashes, for sorted sources. -/
def RouteParams.keyText (p : RouteParams) : Bytes :=
  ascii "sources:" ++ (p.sources.flatMap fun src => prefixString (some src) ++ [44]) ++
    ascii "destination:" ++ p.destination.string ++ ascii "proto:" ++ p.proto.text ++
    ascii "sPort:" ++ (p.sPort.elim (ascii "<nil>") Port.string) ++
    ascii "dPort:" ++ (p.dPort.elim (ascii "<nil>") Port.string) ++
    ascii "action:" ++ p.action.itoa

/-- `GenerateRouteRuleKey` with a hash function in the place of SHA-256, for sorted sources. -/
def generateRouteRuleKey (sha256 : Bytes → Bytes) (p : RouteParams) : Bytes :=
  p.destination.string ++ ascii "-" ++ (hexEncode (sha256 p.keyText)).take 16

/-! ## Rules -/

/-- `RouteRule`; `ref` is the identity of the object. -/
structure RouteRule where
  ref : ℕ
  id : Bytes
  mgmtId : Bytes
  sources : List Prefix
  dstSet : DestinationSet
  destinations : List Prefix
  protoLayer : RuleLayer
  srcPort : Option Port
  dstPort : Option Port
  action : Action
  deriving DecidableEq

/-- The comparison of `RouteRules.Sort`: drop rules come first. -/
def RouteRule.cmp (a b : RouteRule) : Ordering :=
  if a.action = .drop ∧ b.action ≠ .drop then .lt
  else if a.action ≠ .drop ∧ b.action = .drop then .gt
  else compare a.id b.id

/-- `a` may stand before `b`. -/
def RouteRule.le (a b : RouteRule) : Prop := (a.cmp b).isLE = true

instance : DecidableRel RouteRule.le := fun _ _ => inferInstanceAs (Decidable (_ = true))

/-- The family of a prefix. -/
def ipLayerFromPrefix : Option Prefix → Layer
  | some ⟨.v6 _ _, _⟩ => .ipv6
  | _ => .ipv4

/-- The part of the `Manager` that holds the route rules; the map holds references to the
objects of the slice. -/
structure RouteRules where
  routeRules : List RouteRule := []
  routeRulesMap : List (Bytes × ℕ) := []
  created : ℕ := 0

/-- The errors of the methods. -/
inductive RouteError where
  | notFound (key : Bytes)
  | notFoundInSlice (key : Bytes)
  | noRuleForSet (set : DestinationSet)
  deriving DecidableEq

/-- The rule that `addRouteFiltering` makes from sorted arguments. -/
def newRouteRule (ref : ℕ) (key id : Bytes) (p : RouteParams) : RouteRule where
  ref := ref
  id := key
  mgmtId := id
  sources := p.sources
  dstSet := p.destination.set
  destinations := p.destination.pfx.toList
  protoLayer := protoToLayer p.proto (ipLayerFromPrefix p.destination.pfx)
  srcPort := p.sPort
  dstPort := p.dPort
  action := p.action

/-- The order in which `UpdateSet` sorts prefixes. -/
def updateSetLE (a b : Prefix) : Bool :=
  match a.addr.cmp b.addr with
  | .lt => true
  | .gt => false
  | .eq => a.bits ≤ b.bits

namespace RouteRules

variable (sha256 : Bytes → Bytes) (m : RouteRules)

/-- `addRouteFiltering`; a rule whose key exists is not made again. -/
def addRouteFiltering (id : Bytes) (p : RouteParams) : RouteRules :=
  let ruleKey := generateRouteRuleKey sha256 p.sorted
  match get m.routeRulesMap ruleKey with
  | some _ => m
  | none =>
    let rule := newRouteRule m.created ruleKey id p.sorted
    { routeRules := (m.routeRules ++ [rule]).insertionSort RouteRule.le
      routeRulesMap := set m.routeRulesMap ruleKey rule.ref
      created := m.created + 1 }

/-- A rule is removed by its key. -/
def deleteRouteRule (ruleKey : Bytes) : Except RouteError RouteRules :=
  match get m.routeRulesMap ruleKey with
  | none => .error (.notFound ruleKey)
  | some _ =>
    if m.routeRules.all fun r => r.id ≠ ruleKey then .error (.notFoundInSlice ruleKey)
    else .ok { m with
      routeRules := m.routeRules.eraseP fun r => r.id = ruleKey
      routeRulesMap := erase m.routeRulesMap ruleKey }

/-- `UpdateSet`: the prefixes of the first rule for the set and the new ones become the prefixes
of all of them. -/
def updateSet (set : DestinationSet) (prefixes : List Prefix) : Except RouteError RouteRules :=
  match m.routeRules.filter fun r => r.dstSet = set with
  | [] => .error (.noRuleForSet set)
  | first :: _ =>
    let destinations := ((first.destinations ++ prefixes).insertionSort
      fun a b => updateSetLE a b).destutter (· ≠ ·)
    .ok { m with
      routeRules := m.routeRules.map fun r =>
        if r.dstSet = set then { r with destinations := destinations } else r }

end RouteRules

/-- A packet matches a rule. -/
def RouteRule.ruleMatches (rule : RouteRule) (srcAddr dstAddr : Addr) (protoLayer : Layer)
    (srcPort dstPort : UInt16) : Bool :=
  if rule.protoLayer ≠ .all && !protoLayerMatches rule.protoLayer protoLayer then false
  else if (protoLayer = .tcp || protoLayer = .udp) &&
      (!portsMatch rule.srcPort srcPort || !portsMatch rule.dstPort dstPort) then false
  else if !(rule.destinations.any fun dst => dst.contains dstAddr) then false
  else rule.sources.any fun src => src.contains srcAddr

/-- `routeACLsPass`: the management id of the first rule that matches, and whether it accepts. -/
def RouteRules.routeACLsPass (m : RouteRules) (srcIP dstIP : Addr) (protoLayer : Layer)
    (srcPort dstPort : UInt16) : Bytes × Bool :=
  match m.routeRules.find? fun r => r.ruleMatches srcIP dstIP protoLayer srcPort dstPort with
  | some rule => (rule.mgmtId, rule.action = .accept)
  | none => ([], false)

/-! ## Histories -/

/-- A call that changes the rules. -/
inductive RouteOp where
  | addRouteFiltering (id : Bytes) (p : RouteParams)
  | deleteRouteRule (ruleKey : Bytes)
  | updateSet (set : DestinationSet) (prefixes : List Prefix)

namespace RouteRules

/-- The rules after a call; one that fails changes nothing. -/
def apply (sha256 : Bytes → Bytes) (m : RouteRules) : RouteOp → RouteRules
  | .addRouteFiltering id p => m.addRouteFiltering sha256 id p
  | .deleteRouteRule ruleKey =>
    match m.deleteRouteRule ruleKey with
    | .error _ => m
    | .ok m => m
  | .updateSet set prefixes =>
    match m.updateSet set prefixes with
    | .error _ => m
    | .ok m => m

/-- The rules after operations. -/
def after (sha256 : Bytes → Bytes) (m : RouteRules) (ops : List RouteOp) : RouteRules :=
  ops.foldl (apply sha256) m

end RouteRules

/-! ## What is installed -/

/-- A rule as the calls describe it. -/
structure RouteEntry where
  params : RouteParams
  destinations : Finset Prefix
  deriving DecidableEq

/-- The set that an entry is for. -/
def RouteEntry.set (e : RouteEntry) : DestinationSet := e.params.destination.set

variable (sha256 : Bytes → Bytes)

/-- The order of the rules: drop rules first, then by key. -/
def RouteParams.Precedes (p q : RouteParams) : Prop :=
  p.action = .drop ∧ q.action = .accept ∨
    p.action = q.action ∧
      (compare (generateRouteRuleKey sha256 p) (generateRouteRuleKey sha256 q)).isLE = true

instance (sha256 : Bytes → Bytes) (p q : RouteParams) : Decidable (p.Precedes sha256 q) :=
  inferInstanceAs (Decidable (_ ∨ _))

/-- The entry that leads those for its set. -/
def RouteEntry.Leads (entries : List RouteEntry) (set : DestinationSet) (e : RouteEntry) : Prop :=
  e.set = set ∧ ∀ e' ∈ entries, e'.set = set → e.params.Precedes sha256 e'.params

instance (sha256 : Bytes → Bytes) (entries : List RouteEntry) (set : DestinationSet)
    (e : RouteEntry) : Decidable (e.Leads sha256 entries set) :=
  inferInstanceAs (Decidable (_ ∧ _))

/-- What a call does to the installed rules.  The prefixes of a set are added to those that its
leading rule has. -/
def installRoute (entries : List RouteEntry) : RouteOp → List RouteEntry
  | .addRouteFiltering _ p =>
    if ∃ e ∈ entries, e.params = p.sorted then entries
    else entries ++ [⟨p.sorted, p.destination.pfx.toFinset⟩]
  | .deleteRouteRule ruleKey =>
    entries.filter fun e => generateRouteRuleKey sha256 e.params ≠ ruleKey
  | .updateSet set prefixes =>
    match entries.find? fun e => e.Leads sha256 entries set with
    | none => entries
    | some lead => entries.map fun e =>
      if e.set = set then { e with destinations := lead.destinations ∪ prefixes.toFinset } else e

/-- The entries that operations leave. -/
def installedRoutes (ops : List RouteOp) : List RouteEntry :=
  ops.foldl (installRoute sha256) []

/-- A protocol covers a layer; ICMP has two. -/
def Protocol.Covers (proto : Protocol) (l : Layer) : Prop :=
  match proto with
  | .tcp => l = .tcp
  | .udp => l = .udp
  | .icmp => l = .icmpv4 ∨ l = .icmpv6
  | .all => True
  | .other _ => False

/-- **An installed rule matches a packet** in its source, its destination, its protocol and, for
TCP and UDP, its ports. -/
def RouteEntry.Matches (e : RouteEntry) (srcIP dstIP : Addr) (protoLayer : Layer)
    (srcPort dstPort : UInt16) : Prop :=
  (∃ src ∈ e.params.sources, src.contains srcIP = true) ∧
  (∃ dst ∈ e.destinations, dst.contains dstIP = true) ∧
  e.params.proto.Covers protoLayer ∧
  (protoLayer = .tcp ∨ protoLayer = .udp →
    portsMatch e.params.sPort srcPort = true ∧ portsMatch e.params.dPort dstPort = true)

/-- The arguments with which a history adds rules. -/
def addedRoutes (ops : List RouteOp) : List RouteParams :=
  ops.filterMap fun
    | .addRouteFiltering _ p => some p.sorted
    | _ => none

/-- The keys of some rules are free of collisions. -/
def CollisionFree (added : List RouteParams) : Prop :=
  ∀ p ∈ added, ∀ q ∈ added,
    generateRouteRuleKey sha256 p = generateRouteRuleKey sha256 q → p = q

/-! ## The order of the rules -/

/-- Drop rules stand before accept rules, and rules of one action stand by their ids. -/
def DenyFirst (rules : List RouteRule) : Prop :=
  rules.Pairwise fun a b =>
    (b.action = .drop → a.action = .drop) ∧ (a.action = b.action → (compare a.id b.id).isLE = true)

theorem RouteRule.le_iff (a b : RouteRule) : a.le b ↔ (b.action = .drop → a.action = .drop) ∧
      (a.action = b.action → (compare a.id b.id).isLE) := by
  unfold RouteRule.le RouteRule.cmp
  cases a.action <;> cases b.action <;> simp

theorem RouteRule.cmp_eq : RouteRule.cmp =
    compareLex (compareOn fun r => if r.action = .drop then 0 else 1) (compareOn RouteRule.id) := by
  funext a b
  simp only [RouteRule.cmp, compareLex, compareOn]
  cases a.action <;> cases b.action <;> rfl

instance : Std.TransCmp RouteRule.cmp := by
  rw [RouteRule.cmp_eq]
  infer_instance

variable {α : Type*}

theorem pairwise_insertionSort_cmp (cmp : α → α → Ordering) [Std.TransCmp cmp]
    (l : List α) : (l.insertionSort fun a b => (cmp a b).isLE).Pairwise
      fun a b => (cmp a b).isLE := by
  have htrans : IsTrans α fun a b => (cmp a b).isLE := ⟨fun _ _ _ => Std.TransCmp.isLE_trans⟩
  have htotal : Std.Total fun a b => ((cmp a b).isLE : Prop) := by
    refine ⟨fun a b => ?_⟩
    have hswap : cmp b a = (cmp a b).swap := Std.OrientedCmp.eq_swap
    rw [hswap]
    cases cmp a b <;> simp
  exact pairwise_insertionSort _ l

/-- Sorted rules have the denying ones first. -/
theorem denyFirst_insertionSort (rules : List RouteRule) :
    DenyFirst (rules.insertionSort RouteRule.le) :=
  (pairwise_insertionSort_cmp RouteRule.cmp rules).imp fun h => (RouteRule.le_iff _ _).mp h

variable {m : RouteRules}

/-- A packet passes if a rule accepts it and none drops it. -/
theorem DenyFirst.routeACLsPass_iff (h : DenyFirst m.routeRules)
    (srcIP dstIP : Addr) (protoLayer : Layer) (srcPort dstPort : UInt16) :
    (m.routeACLsPass srcIP dstIP protoLayer srcPort dstPort).2 ↔
      (∃ r ∈ m.routeRules, r.action = .accept ∧
        r.ruleMatches srcIP dstIP protoLayer srcPort dstPort) ∧
      ∀ r ∈ m.routeRules, r.action = .drop →
        r.ruleMatches srcIP dstIP protoLayer srcPort dstPort = false := by
  unfold RouteRules.routeACLsPass
  cases hfind : m.routeRules.find? fun r =>
      r.ruleMatches srcIP dstIP protoLayer srcPort dstPort with
  | none =>
    rw [find?_eq_none] at hfind
    constructor
    · intro hpass
      cases hpass
    · rintro ⟨⟨r, hr, -, hmatch⟩, -⟩
      exact absurd hmatch (hfind r hr)
  | some rule =>
    obtain ⟨hrule, before, behind, hsplit, hbefore⟩ := find?_eq_some_iff_append.mp hfind
    have hmem : rule ∈ m.routeRules := mem_of_find?_eq_some hfind
    constructor
    · intro hpass
      have haccept : rule.action = .accept := of_decide_eq_true hpass
      refine ⟨⟨rule, hmem, haccept, hrule⟩, fun r hr hdrop => ?_⟩
      -- a drop rule cannot stand behind the accept rule
      rw [hsplit, mem_append, mem_cons] at hr
      rcases hr with hr | rfl | hr
      · simpa using hbefore r hr
      · rw [haccept] at hdrop
        cases hdrop
      · rw [DenyFirst, hsplit] at h
        have hle := rel_of_pairwise_cons (pairwise_append.mp h).2.1 hr
        rw [hle.1 hdrop] at haccept
        cases haccept
    · rintro ⟨-, hno⟩
      apply decide_eq_true
      cases haction : rule.action with
      | accept => rfl
      | drop =>
        rw [hno rule hmem haction] at hrule
        cases hrule

/-! ## Rules and entries -/

/-- The rule object stands for an entry. -/
structure RouteRule.Of (sha256 : Bytes → Bytes) (e : RouteEntry) (r : RouteRule) : Prop where
  id : r.id = generateRouteRuleKey sha256 e.params
  sources : r.sources = e.params.sources
  dstSet : r.dstSet = e.set
  destinations : r.destinations.toFinset = e.destinations
  protoLayer : r.protoLayer = protoToLayer e.params.proto
    (ipLayerFromPrefix e.params.destination.pfx)
  srcPort : r.srcPort = e.params.sPort
  dstPort : r.dstPort = e.params.dPort
  action : r.action = e.params.action

/-- The layers that a protocol covers. -/
theorem covers_iff (proto : Protocol) (ipLayer l : Layer) : (protoToLayer proto ipLayer = .all ∨
      protoLayerMatches (protoToLayer proto ipLayer) l) ↔ proto.Covers l := by
  have hicmp : ∀ ip : Layer, (protoToLayer .icmp ip = .layer .icmpv4 ∨
      protoToLayer .icmp ip = .layer .icmpv6) := by
    intro ip
    by_cases hip : ip = .ipv6 <;> simp [protoToLayer, hip]
  cases proto with
  | tcp | udp => cases l <;> simp [protoToLayer, protoLayerMatches, Protocol.Covers]
  | icmp =>
    rcases hicmp ipLayer with h | h
    all_goals
      rw [h]
      cases l <;> simp [protoLayerMatches, Protocol.Covers]
  | all => simp [protoToLayer, Protocol.Covers]
  | other text => simp [protoToLayer, protoLayerMatches, Protocol.Covers]

/-- When a packet matches a rule. -/
theorem RouteRule.ruleMatches_iff (r : RouteRule) (srcIP dstIP : Addr) (protoLayer : Layer)
    (srcPort dstPort : UInt16) : r.ruleMatches srcIP dstIP protoLayer srcPort dstPort ↔
      (r.protoLayer = .all ∨ protoLayerMatches r.protoLayer protoLayer) ∧
      (protoLayer = .tcp ∨ protoLayer = .udp →
        portsMatch r.srcPort srcPort ∧ portsMatch r.dstPort dstPort) ∧
      (∃ dst ∈ r.destinations, dst.contains dstIP) ∧ ∃ src ∈ r.sources, src.contains srcIP := by
  rw [RouteRule.ruleMatches, ← any_eq_true, ← any_eq_true]
  grind

/-- A rule matches what its entry matches. -/
theorem RouteRule.Of.ruleMatches_iff {sha256 : Bytes → Bytes} {e : RouteEntry} {r : RouteRule}
    (h : r.Of sha256 e) (srcIP dstIP : Addr) (protoLayer : Layer) (srcPort dstPort : UInt16) :
    r.ruleMatches srcIP dstIP protoLayer srcPort dstPort ↔
      e.Matches srcIP dstIP protoLayer srcPort dstPort := by
  rw [RouteRule.ruleMatches_iff, h.protoLayer, covers_iff, h.srcPort, h.dstPort, h.sources]
  have hdst : (∃ dst ∈ r.destinations, dst.contains dstIP) ↔
      ∃ dst ∈ e.destinations, dst.contains dstIP := by
    simp only [← h.destinations, mem_toFinset]
  rw [hdst, RouteEntry.Matches]
  tauto

/-! ## The index of the rules -/

/-- **The map is in bijection with the slice**: ids and objects are distinct, and a key has the
object of the slice with that id. -/
structure RouteRules.Indexed (m : RouteRules) : Prop where
  nodup_keys : (keys m.routeRulesMap).Nodup
  nodup_ids : (m.routeRules.map RouteRule.id).Nodup
  nodup_refs : (m.routeRules.map RouteRule.ref).Nodup
  get_iff : ∀ key ref, get m.routeRulesMap key = some ref ↔
    ∃ r ∈ m.routeRules, r.id = key ∧ r.ref = ref

/-- A key without a rule. -/
theorem RouteRules.Indexed.get_eq_none_iff (h : m.Indexed) (key : Bytes) :
    get m.routeRulesMap key = none ↔ ∀ r ∈ m.routeRules, r.id ≠ key := by
  rw [Option.eq_none_iff_forall_ne_some]
  constructor
  · intro hnone r hr hid
    exact hnone r.ref ((h.get_iff key r.ref).mpr ⟨r, hr, hid, rfl⟩)
  · intro hno ref hsome
    obtain ⟨r, hr, hid, -⟩ := (h.get_iff key ref).mp hsome
    exact hno r hr hid

/-- A rule is added. -/
theorem RouteRules.Indexed.insert (h : m.Indexed) {key : Bytes}
    (hget : get m.routeRulesMap key = none) {rule : RouteRule} (hid : rule.id = key)
    (hfresh : ∀ r ∈ m.routeRules, r.ref < m.created) (href : rule.ref = m.created)
    {rules : List RouteRule} (hperm : rules.Perm (rule :: m.routeRules)) {created : ℕ} :
    RouteRules.Indexed ⟨rules, set m.routeRulesMap key rule.ref, created⟩ := by
  have hids := (h.get_eq_none_iff key).mp hget
  refine ⟨nodup_keys_set h.nodup_keys _ _, ?_, ?_, ?_⟩
  · rw [(hperm.map RouteRule.id).nodup_iff, map_cons, nodup_cons, mem_map]
    refine ⟨?_, h.nodup_ids⟩
    rintro ⟨r, hr, hrid⟩
    exact hids r hr (hrid.trans hid)
  · rw [(hperm.map RouteRule.ref).nodup_iff, map_cons, nodup_cons, mem_map]
    refine ⟨?_, h.nodup_refs⟩
    rintro ⟨r, hr, hrref⟩
    have hlt := hfresh r hr
    omega
  · intro k ref
    simp only [hperm.mem_iff, mem_cons, exists_eq_or_imp, ← h.get_iff, get_set, hid]
    by_cases hk : k = key
    · simp [hk, hget]
    · simp [hk, Ne.symm hk]

/-- A rule is removed. -/
theorem RouteRules.Indexed.erase (h : m.Indexed) (key : Bytes) {created : ℕ} :
    RouteRules.Indexed ⟨m.routeRules.filter fun r => r.id ≠ key,
      erase m.routeRulesMap key, created⟩ := by
  have hsub : (m.routeRules.filter fun r => r.id ≠ key).Sublist m.routeRules := filter_sublist
  refine ⟨nodup_keys_filter h.nodup_keys _, h.nodup_ids.sublist (hsub.map _),
    h.nodup_refs.sublist (hsub.map _), ?_⟩
  intro k ref
  show get (GoMap.erase m.routeRulesMap key) k = some ref ↔
    ∃ r ∈ m.routeRules.filter fun r => r.id ≠ key, r.id = k ∧ r.ref = ref
  simp only [mem_filter, decide_eq_true_eq, and_assoc]
  by_cases hk : k = key
  · rw [hk, get_erase_self]
    refine iff_of_false (Option.some_ne_none ref).symm ?_
    rintro ⟨r, -, hne, hrid, -⟩
    exact hne hrid
  · rw [get_erase_of_ne hk, h.get_iff]
    refine exists_congr fun r => and_congr_right' (and_iff_right_of_imp ?_).symm
    rintro ⟨rfl, -⟩
    exact hk

/-- Rules change, but not their ids. -/
theorem RouteRules.Indexed.map (h : m.Indexed) {f : RouteRule → RouteRule}
    (hid : ∀ r, (f r).id = r.id) (href : ∀ r, (f r).ref = r.ref) :
    RouteRules.Indexed { m with routeRules := m.routeRules.map f } := by
  refine ⟨h.nodup_keys, ?_, ?_, ?_⟩
  · show ((m.routeRules.map f).map RouteRule.id).Nodup
    rw [map_map, show RouteRule.id ∘ f = RouteRule.id from funext hid]
    exact h.nodup_ids
  · show ((m.routeRules.map f).map RouteRule.ref).Nodup
    rw [map_map, show RouteRule.ref ∘ f = RouteRule.ref from funext href]
    exact h.nodup_refs
  · simp only [mem_map, exists_exists_and_eq_and, hid, href]
    exact h.get_iff

/-- With distinct values, erasing the first element that has one drops all that do. -/
theorem eraseP_eq_filter {α β : Type*} [DecidableEq β] (f : α → β) (b : β) {l : List α}
    (h : (l.map f).Nodup) : (l.eraseP fun x => f x = b) = l.filter fun x => f x ≠ b := by
  induction l with
  | nil => rfl
  | cons x l ih =>
    rw [map_cons, nodup_cons] at h
    by_cases hx : f x = b
    · rw [eraseP_cons_of_pos (by simpa using hx), filter_cons_of_neg (by simpa using hx)]
      refine (filter_eq_self.mpr fun y hy => ?_).symm
      have hne : f y ≠ b := fun hyb => h.1 (mem_map.mpr ⟨y, hy, hyb.trans hx.symm⟩)
      simpa using hne
    · rw [eraseP_cons_of_neg (by simpa using hx),
        filter_cons_of_pos (by simpa using hx), ih h.2]

theorem mem_destutter_ne [DecidableEq α] (l : List α) (x : α) :
    x ∈ l.destutter (· ≠ ·) ↔ x ∈ l := by
  have hrest : ∀ (l : List α) (a : α), x ∈ l.destutter' (· ≠ ·) a ↔ x ∈ a :: l := by
    intro l
    induction l with
    | nil => intro a; simp
    | cons b l ih =>
      intro a
      by_cases hab : a = b
      · rw [destutter'_cons_neg _ (by simpa using hab), ih a, hab]
        simp
      · rw [destutter'_cons_pos _ hab, mem_cons, ih b]
        exact mem_cons.symm
  cases l with
  | nil => simp
  | cons a l => rw [destutter_cons', hrest]

/-! ## The rules of a history -/

section Histories

variable {sha256 : Bytes → Bytes} {added : List RouteParams} {m : RouteRules}
  {entries : List RouteEntry}

/-- The rules hold what is installed. -/
structure Holds (sha256 : Bytes → Bytes) (added : List RouteParams) (m : RouteRules)
    (entries : List RouteEntry) : Prop where
  denyFirst : DenyFirst m.routeRules
  indexed : m.Indexed
  fresh : ∀ r ∈ m.routeRules, r.ref < m.created
  entry_of_rule : ∀ r ∈ m.routeRules, ∃ e ∈ entries, r.Of sha256 e
  rule_of_entry : ∀ e ∈ entries, ∃ r ∈ m.routeRules, r.Of sha256 e
  distinct : ∀ e ∈ entries, ∀ e' ∈ entries, e.params = e'.params → e = e'
  added : ∀ e ∈ entries, e.params ∈ added

theorem Holds.empty : Holds sha256 added {} [] where
  denyFirst := List.Pairwise.nil
  indexed := ⟨nodup_nil, nodup_nil, nodup_nil, by simp [get]⟩
  fresh := by simp
  entry_of_rule := by simp
  rule_of_entry := by simp
  distinct := by simp
  added := by simp

variable {e e' : RouteEntry}

section

variable (h : Holds sha256 added m entries)

include h

/-- Entries are told apart by their keys. -/
theorem Holds.entry_unique (hfree : CollisionFree sha256 added) (he : e ∈ entries)
    (he' : e' ∈ entries)
    (hkey : generateRouteRuleKey sha256 e.params = generateRouteRuleKey sha256 e'.params) :
    e = e' :=
  h.distinct e he e' he' (hfree _ (h.added e he) _ (h.added e' he') hkey)

/-- What the rules have in common, their entries have. -/
theorem Holds.forall_iff {P : RouteRule → Prop} {Q : RouteEntry → Prop}
    (hPQ : ∀ r e, r.Of sha256 e → (P r ↔ Q e)) :
    (∀ r ∈ m.routeRules, P r) ↔ ∀ e ∈ entries, Q e := by
  constructor
  · intro hall e he
    obtain ⟨r, hr, hof⟩ := h.rule_of_entry e he
    exact (hPQ r e hof).mp (hall r hr)
  · intro hall r hr
    obtain ⟨e, he, hof⟩ := h.entry_of_rule r hr
    exact (hPQ r e hof).mpr (hall e he)

theorem Holds.get_eq_none_iff (key : Bytes) : get m.routeRulesMap key = none ↔
      ∀ e ∈ entries, generateRouteRuleKey sha256 e.params ≠ key :=
  (h.indexed.get_eq_none_iff key).trans (h.forall_iff fun r e hof => by rw [hof.id])

omit h in
/-- A new rule is that of its entry. -/
theorem newRouteRule_of (ref : ℕ) (id : Bytes) (p : RouteParams) :
    (newRouteRule ref (generateRouteRuleKey sha256 p.sorted) id p.sorted).Of sha256
      ⟨p.sorted, p.destination.pfx.toFinset⟩ where
  id := rfl
  sources := rfl
  dstSet := rfl
  destinations := by
    ext d
    simp [newRouteRule, RouteParams.sorted]
  protoLayer := rfl
  srcPort := rfl
  dstPort := rfl
  action := rfl

/-- A rule and its entry are added. -/
theorem Holds.addRouteFiltering
    (hfree : CollisionFree sha256 added) (id : Bytes) {p : RouteParams} (hp : p.sorted ∈ added) :
    Holds sha256 added (m.addRouteFiltering sha256 id p)
      (installRoute sha256 entries (.addRouteFiltering id p)) := by
  cases hget : get m.routeRulesMap (generateRouteRuleKey sha256 p.sorted) with
  | some ref =>
    obtain ⟨r, hr, hid, -⟩ := (h.indexed.get_iff _ ref).mp hget
    obtain ⟨e, he, hof⟩ := h.entry_of_rule r hr
    have hsame : e.params = p.sorted := hfree _ (h.added e he) _ hp (hof.id.symm.trans hid)
    simp only [RouteRules.addRouteFiltering, installRoute, hget]
    rw [if_pos ⟨e, he, hsame⟩]
    exact h
  | none =>
    have hno : ¬ ∃ e ∈ entries, e.params = p.sorted := by
      rintro ⟨e, he, hsame⟩
      exact (h.get_eq_none_iff _).mp hget e he (by rw [hsame])
    simp only [RouteRules.addRouteFiltering, installRoute, hget]
    rw [if_neg hno]
    set rule := newRouteRule m.created (generateRouteRuleKey sha256 p.sorted) id p.sorted
    have hof : rule.Of sha256 ⟨p.sorted, p.destination.pfx.toFinset⟩ := newRouteRule_of _ id p
    have hperm := (perm_insertionSort RouteRule.le (m.routeRules ++ [rule])).trans
      (perm_append_singleton rule m.routeRules)
    refine ⟨denyFirst_insertionSort _, h.indexed.insert hget rfl h.fresh rfl hperm,
      ?_, ?_, ?_, ?_, ?_⟩
    · simp only [hperm.mem_iff, forall_mem_cons]
      exact ⟨Nat.lt_succ_self _, fun r hr => Nat.lt_succ_of_lt (h.fresh r hr)⟩
    · simp only [hperm.mem_iff, forall_mem_cons]
      refine ⟨⟨_, mem_append_right _ (mem_singleton_self _), hof⟩, fun r hr => ?_⟩
      obtain ⟨e, he, hof⟩ := h.entry_of_rule r hr
      exact ⟨e, mem_append_left _ he, hof⟩
    · refine forall_mem_append.mpr ⟨fun e he => ?_, forall_mem_singleton.mpr ?_⟩
      · obtain ⟨r, hr, hof⟩ := h.rule_of_entry e he
        exact ⟨r, hperm.mem_iff.mpr (mem_cons_of_mem _ hr), hof⟩
      · exact ⟨rule, hperm.mem_iff.mpr mem_cons_self, hof⟩
    · simp only [forall_mem_append, forall_mem_singleton]
      refine ⟨fun e he => ⟨h.distinct e he, fun hsame => ?_⟩, fun e he hsame => ?_, by simp⟩
      · exact absurd ⟨e, he, hsame⟩ hno
      · exact absurd ⟨e, he, hsame.symm⟩ hno
    · exact forall_mem_append.mpr ⟨h.added, forall_mem_singleton.mpr hp⟩

/-- A rule and its entry are removed. -/
theorem Holds.deleteRouteRule (key : Bytes) :
    Holds sha256 added (m.apply sha256 (.deleteRouteRule key))
      (installRoute sha256 entries (.deleteRouteRule key)) := by
  cases hget : get m.routeRulesMap key with
  | none =>
    have hno := (h.get_eq_none_iff key).mp hget
    have hkept : (entries.filter fun e => generateRouteRuleKey sha256 e.params ≠ key) = entries :=
      filter_eq_self.mpr fun e he => by simpa using hno e he
    simp only [RouteRules.apply, RouteRules.deleteRouteRule, installRoute, hget]
    rw [hkept]
    exact h
  | some ref =>
    obtain ⟨found, hfound, hid, -⟩ := (h.indexed.get_iff key ref).mp hget
    have hsome : ¬ (m.routeRules.all fun r => r.id ≠ key) = true := by
      intro hall
      rw [all_eq_true] at hall
      exact of_decide_eq_true (hall found hfound) hid
    simp only [RouteRules.apply, RouteRules.deleteRouteRule, installRoute, hget]
    rw [if_neg hsome]
    rw [eraseP_eq_filter RouteRule.id key h.indexed.nodup_ids]
    refine ⟨h.denyFirst.sublist filter_sublist, h.indexed.erase key,
      fun r hr => h.fresh r (mem_of_mem_filter hr), ?_, ?_, ?_, ?_⟩
    · refine forall_mem_filter.mpr fun r hr hne => ?_
      obtain ⟨e, he, hof⟩ := h.entry_of_rule r hr
      exact ⟨e, mem_filter.mpr ⟨he, by simpa [← hof.id] using hne⟩, hof⟩
    · refine forall_mem_filter.mpr fun e he hne => ?_
      obtain ⟨r, hr, hof⟩ := h.rule_of_entry e he
      exact ⟨r, mem_filter.mpr ⟨hr, by simpa [← hof.id] using hne⟩, hof⟩
    · intro e he e' he'
      exact h.distinct e (mem_of_mem_filter he) e' (mem_of_mem_filter he')
    · intro e he
      exact h.added e (mem_of_mem_filter he)

end

theorem RouteParams.Precedes.refl (p : RouteParams) : p.Precedes sha256 p := by
  have hself : compare (generateRouteRuleKey sha256 p) (generateRouteRuleKey sha256 p) = .eq :=
    Std.ReflCmp.compare_self
  exact .inr ⟨rfl, by rw [hself]; rfl⟩

theorem RouteParams.Precedes.antisymm {p q : RouteParams} (hpq : p.Precedes sha256 q)
    (hqp : q.Precedes sha256 p) :
    generateRouteRuleKey sha256 p = generateRouteRuleKey sha256 q := by
  rcases hpq with ⟨hp, hq⟩ | ⟨haction, hle⟩
  · rcases hqp with ⟨hq', -⟩ | ⟨haction, -⟩
    · rw [hq] at hq'
      cases hq'
    · rw [hp, hq] at haction
      cases haction
  · rcases hqp with ⟨hq, hp⟩ | ⟨-, hle'⟩
    · rw [hp, hq] at haction
      cases haction
    · exact Std.LawfulEqCmp.eq_of_compare (Std.OrientedCmp.isLE_antisymm hle hle')

theorem RouteRule.Of.precedes {r r' : RouteRule} (h : r.Of sha256 e)
    (h' : r'.Of sha256 e') (hdrop : r'.action = .drop → r.action = .drop)
    (hids : r.action = r'.action → (compare r.id r'.id).isLE) :
    e.params.Precedes sha256 e'.params := by
  rw [h.action, h'.action] at hids hdrop
  rw [h.id, h'.id] at hids
  by_cases haction : e.params.action = e'.params.action
  · exact .inr ⟨haction, hids haction⟩
  · left
    cases he' : e'.params.action with
    | drop => exact absurd ((hdrop he').trans he'.symm) haction
    | accept =>
      cases he : e.params.action with
      | drop => exact ⟨rfl, rfl⟩
      | accept => exact absurd (he.trans he'.symm) haction

variable (h : Holds sha256 added m entries)

include h

variable (hfree : CollisionFree sha256 added)

include hfree

/-- The first rule of a set is that of its leading entry. -/
theorem Holds.leads {set : DestinationSet} {first : RouteRule} {rest : List RouteRule}
    (hfilter : (m.routeRules.filter fun r => r.dstSet = set) = first :: rest) :
    ∃ lead, (entries.find? fun e => e.Leads sha256 entries set) = some lead ∧
      first.Of sha256 lead := by
  have hfirst : first ∈ m.routeRules ∧ first.dstSet = set := by
    have hmem : first ∈ m.routeRules.filter fun r => r.dstSet = set := by simp [hfilter]
    rwa [mem_filter, decide_eq_true_eq] at hmem
  obtain ⟨e, he, hof⟩ := h.entry_of_rule first hfirst.1
  have hleads : e.Leads sha256 entries set := by
    refine ⟨hof.dstSet.symm.trans hfirst.2, fun e' he' hset => ?_⟩
    obtain ⟨r, hr, hof'⟩ := h.rule_of_entry e' he'
    have hmem : r ∈ first :: rest := by
      rw [← hfilter, mem_filter, decide_eq_true_eq]
      exact ⟨hr, hof'.dstSet.trans hset⟩
    rcases mem_cons.mp hmem with rfl | hrest
    · rw [h.entry_unique hfree he he' (hof.id.symm.trans hof'.id)]
      exact RouteParams.Precedes.refl _
    · have hsorted : DenyFirst (first :: rest) := by
        rw [← hfilter]
        exact h.denyFirst.sublist filter_sublist
      have hle := rel_of_pairwise_cons hsorted hrest
      exact hof.precedes hof' hle.1 hle.2
  cases hfind : entries.find? fun e => e.Leads sha256 entries set with
  | none =>
    rw [find?_eq_none] at hfind
    exact absurd (decide_eq_true hleads) (hfind e he)
  | some lead =>
    have hlead : lead.Leads sha256 entries set := by simpa using find?_some hfind
    have hmem := mem_of_find?_eq_some hfind
    have hkey := (hleads.2 lead hmem hlead.1).antisymm (hlead.2 e he hleads.1)
    rw [h.entry_unique hfree he hmem hkey] at hof
    exact ⟨lead, rfl, hof⟩

/-- The rules and entries of a set are updated. -/
theorem Holds.updateSet (set : DestinationSet) (prefixes : List Prefix) :
    Holds sha256 added (m.apply sha256 (.updateSet set prefixes))
      (installRoute sha256 entries (.updateSet set prefixes)) := by
  cases hfilter : m.routeRules.filter fun r => r.dstSet = set with
  | nil =>
    have hno : ∀ r ∈ m.routeRules, r.dstSet ≠ set := by simpa using hfilter
    have hnone : (entries.find? fun e => e.Leads sha256 entries set) = none := by
      rw [find?_eq_none]
      intro e he hleads
      obtain ⟨r, hr, hof⟩ := h.rule_of_entry e he
      exact hno r hr (hof.dstSet.trans (of_decide_eq_true hleads).1)
    simp only [RouteRules.apply, RouteRules.updateSet, installRoute, hfilter, hnone]
    exact h
  | cons first rest =>
    obtain ⟨lead, hfind, hlead⟩ := h.leads hfree hfilter
    simp only [RouteRules.apply, RouteRules.updateSet, installRoute, hfilter, hfind]
    set destinations := ((first.destinations ++ prefixes).insertionSort
      fun a b => updateSetLE a b).destutter (· ≠ ·) with hdestinations
    have hfinset : destinations.toFinset = lead.destinations ∪ prefixes.toFinset := by
      ext d
      rw [mem_toFinset, hdestinations, mem_destutter_ne, mem_insertionSort,
        mem_append, Finset.mem_union, ← hlead.destinations, mem_toFinset,
        mem_toFinset]
    -- the rule and its entry change in step
    have hof : ∀ (r : RouteRule) (e : RouteEntry), r.Of sha256 e →
        (if r.dstSet = set then { r with destinations := destinations } else r).Of sha256
          (if e.set = set then { e with destinations := lead.destinations ∪ prefixes.toFinset }
            else e) := by
      intro r e hof
      by_cases hset : e.set = set
      · rw [if_pos hset, if_pos (hof.dstSet.trans hset)]
        exact { hof with destinations := hfinset }
      · rw [if_neg hset, if_neg fun hr => hset (hof.dstSet.symm.trans hr)]
        exact hof
    refine ⟨?_, h.indexed.map (by intro r; split <;> rfl) (by intro r; split <;> rfl),
      ?_, ?_, ?_, ?_, ?_⟩
    · refine List.Pairwise.map _ ?_ h.denyFirst
      intro a b hab
      split <;> split <;> exact hab
    · refine forall_mem_map.mpr fun r hr => ?_
      have hfresh := h.fresh r hr
      split <;> exact hfresh
    · refine forall_mem_map.mpr fun r hr => ?_
      obtain ⟨e, he, hre⟩ := h.entry_of_rule r hr
      exact ⟨_, mem_map_of_mem he, hof r e hre⟩
    · refine forall_mem_map.mpr fun e he => ?_
      obtain ⟨r, hr, hre⟩ := h.rule_of_entry e he
      exact ⟨_, mem_map_of_mem hr, hof r e hre⟩
    · refine forall_mem_map.mpr fun e₁ he₁ => forall_mem_map.mpr fun e₂ he₂ hsame => ?_
      have hparams : e₁.params = e₂.params := by
        split at hsame <;> split at hsame <;> exact hsame
      rw [h.distinct e₁ he₁ e₂ he₂ hparams]
    · refine forall_mem_map.mpr fun e he => ?_
      have hadded := h.added e he
      split <;> exact hadded

/-- Every operation keeps rules and entries in step. -/
theorem Holds.apply (op : RouteOp) (hop : ∀ p ∈ addedRoutes [op], p ∈ added) :
    Holds sha256 added (m.apply sha256 op) (installRoute sha256 entries op) := by
  cases op with
  | addRouteFiltering id p =>
    exact h.addRouteFiltering hfree id (hop p.sorted (by simp [addedRoutes]))
  | deleteRouteRule key => exact h.deleteRouteRule key
  | updateSet set prefixes => exact h.updateSet hfree set prefixes

/-- Rules and entries are in step along every run. -/
theorem Holds.after (ops : List RouteOp) (hops : ∀ p ∈ addedRoutes ops, p ∈ added) :
    Holds sha256 added (m.after sha256 ops) (ops.foldl (installRoute sha256) entries) := by
  induction ops generalizing m entries with
  | nil => exact h
  | cons op ops ih =>
    have hsplit : addedRoutes (op :: ops) = addedRoutes [op] ++ addedRoutes ops := by
      rw [addedRoutes, ← singleton_append, filterMap_append]
      rfl
    rw [hsplit, forall_mem_append] at hops
    exact ih (h.apply hfree op hops.1) hops.2

end Histories

/-! ## The verdict -/

/-- **Deny overrides accept.** After every sequence of calls whose keys do not collide, the slice
has the drop rules first, and a routed packet passes if and only if an installed accept rule and no
installed drop rule matches it. -/
theorem routeACLs_verdict (sha256 : Bytes → Bytes) (ops : List RouteOp)
    (hfree : CollisionFree sha256 (addedRoutes ops)) : let m := RouteRules.after sha256 {} ops
    let installed := installedRoutes sha256 ops
    DenyFirst m.routeRules ∧ m.Indexed ∧
    ∀ (srcIP dstIP : Addr) (protoLayer : Layer) (srcPort dstPort : UInt16),
      (m.routeACLsPass srcIP dstIP protoLayer srcPort dstPort).2 = true ↔
        (∃ e ∈ installed, e.params.action = .accept ∧
          e.Matches srcIP dstIP protoLayer srcPort dstPort) ∧
        ∀ e ∈ installed, e.params.action = .drop →
          ¬ e.Matches srcIP dstIP protoLayer srcPort dstPort := by
  intro m installed
  have h : Holds sha256 (addedRoutes ops) m installed :=
    Holds.empty.after hfree ops fun p hp => hp
  refine ⟨h.denyFirst, h.indexed, fun srcIP dstIP protoLayer srcPort dstPort => ?_⟩
  rw [h.denyFirst.routeACLsPass_iff]
  refine and_congr (not_iff_not.mp ?_) (h.forall_iff fun r e hof => ?_)
  · simp only [not_exists, not_and]
    exact h.forall_iff fun r e hof => by rw [hof.action, hof.ruleMatches_iff]
  · rw [hof.action, ← hof.ruleMatches_iff, Bool.not_eq_true]

/-- An accept rule for a set and a drop rule for one of its ports, with the text reversed as the
hash: a packet to another port passes. -/
theorem routeACLs_verdict_drop_port : let set : DestinationSet := { hash := [1, 2, 3, 4] }
    let source : Prefix := ⟨.v4 0x64400000#32, 10⟩
    let accept : RouteParams := ⟨[source], { set := set }, .tcp, none, none, .accept⟩
    let drop : RouteParams :=
      ⟨[source], { set := set }, .tcp, none, some ⟨false, [22], by decide⟩, .drop⟩
    let ops : List RouteOp := [.addRouteFiltering (ascii "a") accept,
      .addRouteFiltering (ascii "d") drop, .updateSet set [⟨.v4 0x0A000000#32, 8⟩]]
    let m := RouteRules.after reverse {} ops
    CollisionFree reverse (addedRoutes ops) ∧ DenyFirst m.routeRules ∧
    m.routeACLsPass (.v4 0x64400001#32) (.v4 0x0A000001#32) .tcp 40000 80 = (ascii "a", true) ∧
    m.routeACLsPass (.v4 0x64400001#32) (.v4 0x0A000001#32) .tcp 40000 22 = (ascii "d", false) := by
  intro set source accept drop ops m
  have hfree : CollisionFree reverse (addedRoutes ops) := by
    unfold CollisionFree
    decide +kernel
  exact ⟨hfree, (routeACLs_verdict reverse ops hfree).1, by decide +kernel, by decide +kernel⟩

/-! ## Updates of a set -/

/-- In a sorted list without equal neighbours, no element stands twice. -/
theorem nodup_of_isChain_ne {r : α → α → Prop}
    (hanti : ∀ a b, r a b → r b a → a = b) {l : List α} (hl : l.Pairwise r)
    (hne : l.IsChain (· ≠ ·)) : l.Nodup := by
  induction hne with
  | nil | singleton => simp
  | cons_cons hab _ ih =>
    rw [pairwise_cons] at hl
    refine nodup_cons.mpr ⟨fun hmem => ?_, ih hl.2⟩
    rcases mem_cons.mp hmem with h | h
    · exact hab h
    · exact hab (hanti _ _ (hl.1 _ mem_cons_self) ((pairwise_cons.mp hl.2).1 _ h))

theorem updateSetLE_eq : updateSetLE = fun a b =>
    (compareLex (compareOn Prefix.addr) (compareOn Prefix.bits) a b).isLE := by
  funext a b
  simp only [updateSetLE, compareLex, compareOn, compare]
  cases a.addr.cmp b.addr <;> simp [← Nat.isLE_compare, compare]

/-- Sorted prefixes without repetitions. -/
theorem nodup_destutter_insertionSort (l : List Prefix) :
    ((l.insertionSort fun a b => updateSetLE a b).destutter (· ≠ ·)).Nodup := by
  have hsorted := pairwise_insertionSort_cmp
    (compareLex (compareOn Prefix.addr) (compareOn Prefix.bits)) l
  rw [updateSetLE_eq]
  refine nodup_of_isChain_ne (fun a b hab hba => ?_)
    (hsorted.sublist (destutter_sublist _ _)) (isChain_destutter _ _)
  have heq := Std.OrientedCmp.isLE_antisymm hab hba
  rw [compareLex, Ordering.then_eq_eq] at heq
  exact congrArg₂ Prefix.mk (Addr.eq_of_cmp_eq _ _ heq.1) (Nat.compare_eq_eq.mp heq.2)

/-- The rules for a set get the new prefixes beside those they have, each once, and the other
rules stay as they are. -/
def SetGrown (set : DestinationSet) (prefixes : List Prefix) (before after : RouteRules) : Prop :=
  List.Forall₂ (fun r r' => if r.dstSet = set then
      r'.destinations.Nodup ∧ ∀ p, p ∈ r'.destinations ↔ p ∈ r.destinations ∨ p ∈ prefixes
    else r' = r) before.routeRules after.routeRules

variable (sha256 : Bytes → Bytes) (m : RouteRules) (set : DestinationSet) (prefixes : List Prefix)

/-- **Updates of a set only add** exactly if its rules have the same prefixes, the given ones aside.
-/
theorem setGrown_iff : SetGrown set prefixes m (m.apply sha256 (.updateSet set prefixes)) ↔
      ∀ r ∈ m.routeRules, ∀ r' ∈ m.routeRules, r.dstSet = set → r'.dstSet = set →
        ∀ p ∈ r.destinations, p ∈ r'.destinations ∨ p ∈ prefixes := by
  unfold SetGrown
  cases hfilter : m.routeRules.filter fun r => r.dstSet = set with
  | nil =>
    have hnone : ∀ r ∈ m.routeRules, r.dstSet ≠ set := by simpa using hfilter
    simp only [RouteRules.apply, RouteRules.updateSet, hfilter]
    refine iff_of_true (forall₂_same.mpr fun r hr => ?_) fun r hr _ _ hset =>
      absurd hset (hnone r hr)
    rw [if_neg (hnone r hr)]
  | cons first rest =>
    have hfirst : first ∈ m.routeRules ∧ first.dstSet = set := by
      have hmem : first ∈ first :: rest := mem_cons_self
      rw [← hfilter, mem_filter] at hmem
      simpa using hmem
    have hmem : ∀ p, p ∈ ((first.destinations ++ prefixes).insertionSort
        fun a b => updateSetLE a b).destutter (· ≠ ·) ↔ p ∈ first.destinations ∨ p ∈ prefixes := by
      intro p
      rw [mem_destutter_ne, mem_insertionSort, mem_append]
    simp only [RouteRules.apply, RouteRules.updateSet, hfilter, forall₂_map_right_iff,
      forall₂_same]
    constructor
    · intro h r hr r' hr' hset hset' p hp
      -- the prefixes of each rule are those of the first
      have hsame := h r hr
      have hsame' := h r' hr'
      rw [if_pos hset, if_pos hset] at hsame
      rw [if_pos hset', if_pos hset'] at hsame'
      exact (hsame'.2 p).mp ((hsame.2 p).mpr (.inl hp))
    · intro h r hr
      split
      next hset =>
        refine ⟨nodup_destutter_insertionSort _, fun p => (hmem p).trans ⟨?_, ?_⟩⟩
        · exact fun hp => hp.elim (h first hfirst.1 r hr hfirst.2 hset p) .inr
        · exact fun hp => hp.elim (h r hr first hfirst.1 hset hfirst.2 p) .inr
      · rfl

/-- A drop rule for a resolved set has no prefixes and stands first, so the next update takes the
resolved prefix from the accept rule. -/
theorem resolved_prefix_lost : let set : DestinationSet := { hash := [1, 2, 3, 4] }
    let rule (action : Action) : RouteParams := ⟨[], { set := set }, .tcp, none, none, action⟩
    let m := RouteRules.after reverse {} [.addRouteFiltering (ascii "a") (rule .accept),
      .updateSet set [⟨.v4 0x0A000001#32, 32⟩], .addRouteFiltering (ascii "d") (rule .drop)]
    let prefixes : List Prefix := [⟨.v4 0x0A000002#32, 32⟩]
    (m.routeRules.map fun r => (r.action, r.destinations)) =
      [(.drop, []), (.accept, [⟨.v4 0x0A000001#32, 32⟩])] ∧
    ((m.apply reverse (.updateSet set prefixes)).routeRules.map fun r =>
      (r.action, r.destinations)) = [(.drop, prefixes), (.accept, prefixes)] := by
  decide +kernel

end Uspfilter
