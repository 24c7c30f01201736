/-
# Access rules for peers

Model of the peer rules of `client/firewall/uspfilter/filter.go`.  A packet is to be blocked if a
drop rule matches it or no accept rule does.  Two things keep `peerACLsBlock` from this: drop rules
for the unspecified address are in a table entry that is never read for other sources, and a rule
for all protocols takes a packet without a look at its ports.
-/
import AnonBird.FilterRules
import AnonBird.GoMap
import AnonBird.IPText

open NetIP GoStrings List Option
open GoMap hiding get set

namespace Uspfilter

export GoMap (get set)

/-! ## The tables -/

/-- `PeerRule`.  Ids come from `uuid.New` and never repeat: they are numbered. -/
structure PeerRule where
  id : ℕ
  mgmtId : Bytes
  ip : Addr
  ipLayer : Layer
  matchByIP : Bool
  protoLayer : RuleLayer
  sPort : Option Port
  dPort : Option Port
  drop : Bool
  deriving DecidableEq

/-- `map[netip.Addr]RuleSet`. -/
abbrev RuleTable := List (Addr × List (ℕ × PeerRule))

/-- The part of the `Manager` that holds the peer rules. -/
structure PeerRules where
  incomingDenyRules : RuleTable := []
  incomingRules : RuleTable := []
  created : ℕ := 0

/-- A `firewall.Rule`, which need not be a peer rule. -/
inductive Rule where
  | peer (r : PeerRule)
  | other

/-- The errors of the two methods. -/
inductive RuleError where
  | invalidIP (ip : Bytes)
  | invalidRuleType
  | noRuleWithID (id : ℕ)
  deriving DecidableEq

/-- The rule that `AddPeerFiltering` makes for an address. -/
def newPeerRule (uuid : ℕ) (id : Bytes) (ip : Addr) (proto : Protocol) (sPort dPort : Option Port)
    (action : Action) : PeerRule :=
  let ipLayer : Layer := match ip with
    | .v4 _ => .ipv4
    | .v6 _ _ => .ipv6
  { id := uuid
    mgmtId := id
    ip := ip
    ipLayer := ipLayer
    matchByIP := !(addrString (some ip) = ascii "0.0.0.0" || addrString (some ip) = ascii "::")
    protoLayer := protoToLayer proto ipLayer
    sPort := sPort
    dPort := dPort
    drop := action = .drop }

/-- `ruleset[id]` of the rule set of an address; a missing set is empty. -/
def RuleTable.ruleSet (t : RuleTable) (ip : Addr) : List (ℕ × PeerRule) := (get t ip).getD []

/-- `targetMap[r.ip][r.id] = r`, with a new rule set where there is none. -/
def RuleTable.insert (t : RuleTable) (r : PeerRule) : RuleTable :=
  set t r.ip (set (t.ruleSet r.ip) r.id r)

/-- The deletion of a rule; a rule set that becomes empty goes too. -/
def RuleTable.delete (t : RuleTable) (r : PeerRule) : Except RuleError RuleTable :=
  match get t r.ip with
  | none => .error (.noRuleWithID r.id)
  | some ruleset =>
    match get ruleset r.id with
    | none => .error (.noRuleWithID r.id)
    | some _ =>
      let ruleset := erase ruleset r.id
      .ok (if ruleset = [] then erase t r.ip else set t r.ip ruleset)

namespace PeerRules

/-- The table of the drop rules, or that of the others. -/
def table (m : PeerRules) (drop : Bool) : RuleTable :=
  if drop then m.incomingDenyRules else m.incomingRules

/-- One of the two tables is replaced. -/
def setTable (m : PeerRules) (drop : Bool) (t : RuleTable) : PeerRules :=
  if drop then { m with incomingDenyRules := t } else { m with incomingRules := t }

/-- A rule for an address is added. -/
def addPeerFiltering (m : PeerRules) (id ip : Bytes) (proto : Protocol) (sPort dPort : Option Port)
    (action : Action) : Except RuleError (PeerRule × PeerRules) :=
  match Addr.fromSlice ip with
  | none => .error (.invalidIP ip)
  | some i =>
    let r := newPeerRule m.created id i.unmap proto sPort dPort action
    .ok (r, { m.setTable r.drop ((m.table r.drop).insert r) with created := m.created + 1 })

/-- A rule is removed. -/
def deletePeerRule (m : PeerRules) (rule : Rule) : Except RuleError PeerRules :=
  match rule with
  | .other => .error .invalidRuleType
  | .peer r => ((m.table r.drop).delete r).map (m.setTable r.drop)

end PeerRules

/-! ## The verdict -/

/-- Whether the loop of `validateRule` returns at a rule. -/
def PeerRule.takes (rule : PeerRule) (ip : Addr) (d : Decoded) : Bool :=
  if rule.matchByIP && ip.cmp rule.ip ≠ .eq then false
  else if rule.protoLayer = .all then true
  else if !protoLayerMatches rule.protoLayer d.transport then false
  else
    match d.transport with
    | .tcp => portsMatch rule.sPort d.tcpSrcPort && portsMatch rule.dPort d.tcpDstPort
    | .udp => portsMatch rule.sPort d.udpSrcPort && portsMatch rule.dPort d.udpDstPort
    | .icmpv4 | .icmpv6 => true
    | _ => false

/-- `validateRule`: the management id and the verdict of the rule it finds. -/
def validateRule (ord : RangeOrder ℕ) (ip : Addr) (rules : List (ℕ × PeerRule))
    (d : Decoded) : Option (Bytes × Bool) :=
  ((range ord rules).find? fun e => e.2.takes ip d).map fun e => (e.2.mgmtId, e.2.drop)

/-- `netip.IPv4Unspecified()`. -/
def ipv4Unspecified : Addr := .v4 0

/-- `netip.IPv6Unspecified()`. -/
def ipv6Unspecified : Addr := .v6 0 []

/-- `peerACLsBlock`, with the order of each of its four iterations. -/
def PeerRules.peerACLsBlock (m : PeerRules) (ord : ℕ → RangeOrder ℕ) (srcIP : Addr)
    (d : Decoded) : Bytes × Bool :=
  if isSpecialICMP d then ([], false)
  else
    match validateRule (ord 0) srcIP (m.incomingDenyRules.ruleSet srcIP) d with
    | some verdict => verdict
    | none =>
      match validateRule (ord 1) srcIP (m.incomingRules.ruleSet srcIP) d with
      | some verdict => verdict
      | none =>
        match validateRule (ord 2) srcIP (m.incomingRules.ruleSet ipv4Unspecified) d with
        | some verdict => verdict
        | none =>
          match validateRule (ord 3) srcIP (m.incomingRules.ruleSet ipv6Unspecified) d with
          | some verdict => verdict
          | none => ([], true)

/-! ## Histories -/

/-- A call that changes the rules. -/
inductive PeerOp where
  | addPeerFiltering (id ip : Bytes) (proto : Protocol) (sPort dPort : Option Port)
      (action : Action)
  | deletePeerRule (rule : Rule)

/-- The rules after a call; one that fails changes nothing. -/
def PeerRules.apply (m : PeerRules) : PeerOp → PeerRules
  | .addPeerFiltering id ip proto sPort dPort action =>
    match m.addPeerFiltering id ip proto sPort dPort action with
    | .error _ => m
    | .ok (_, m) => m
  | .deletePeerRule rule =>
    match m.deletePeerRule rule with
    | .error _ => m
    | .ok m => m

/-- The rules after operations. -/
def PeerRules.after (m : PeerRules) (ops : List PeerOp) : PeerRules := ops.foldl apply m

/-- The installed rules, and how many have been made. -/
structure Installed where
  rules : List PeerRule := []
  created : ℕ := 0

/-- A rule is installed when it is added, and until it is deleted. -/
def Installed.apply (s : Installed) : PeerOp → Installed
  | .addPeerFiltering id ip proto sPort dPort action =>
    match Addr.fromSlice ip with
    | none => s
    | some i =>
      ⟨s.rules ++ [newPeerRule s.created id i.unmap proto sPort dPort action], s.created + 1⟩
  | .deletePeerRule .other => s
  | .deletePeerRule (.peer r) =>
    { s with rules := s.rules.filter fun q => ¬ (q.drop = r.drop ∧ q.ip = r.ip ∧ q.id = r.id) }

/-- The rules that a history installs. -/
def installed (ops : List PeerOp) : List PeerRule := (ops.foldl Installed.apply {}).rules

/-- The address of the rule is unspecified. -/
def PeerRule.isWildcard (r : PeerRule) : Bool := r.ip = ipv4Unspecified || r.ip = ipv6Unspecified

/-- **A rule matches a packet**: its address is the source or unspecified, its layer matches and,
for TCP and UDP, its port constraints hold. -/
def PeerRule.matchesPacket (r : PeerRule) (srcIP : Addr) (d : Decoded) : Bool :=
  (r.ip = srcIP || r.isWildcard) && layerHolds r.protoLayer d && portsHold r.sPort r.dPort d

/-- The packet is to be blocked. -/
def Blocks (rules : List PeerRule) (srcIP : Addr) (d : Decoded) : Prop :=
  isSpecialICMP d = false ∧
    ((∃ r ∈ rules, r.drop = true ∧ r.matchesPacket srcIP d = true) ∨
      ¬ ∃ r ∈ rules, r.drop = false ∧ r.matchesPacket srcIP d = true)

/-! ## The tables hold the installed rules -/

namespace RuleTable

theorem get_insert (t : RuleTable) (r : PeerRule) (ip : Addr) (id : ℕ) :
    get ((t.insert r).ruleSet ip) id =
      if ip = r.ip ∧ id = r.id then some r else get (t.ruleSet ip) id := by
  rw [insert, ruleSet, get_set]
  by_cases hip : ip = r.ip
  · subst hip
    rw [if_pos rfl, getD_some, get_set]
    simp
  · rw [if_neg hip, if_neg fun h => hip h.1, ruleSet]

/-- A deletion fails if the rule is not in the table, and removes that rule else. -/
theorem get_delete (t : RuleTable) (r : PeerRule) : match t.delete r with
    | .error _ => get (t.ruleSet r.ip) r.id = none
    | .ok t' => ∀ ip id, get (t'.ruleSet ip) id =
        if ip = r.ip ∧ id = r.id then none else get (t.ruleSet ip) id := by
  rw [delete]
  cases hset : get t r.ip with
  | none =>
    rw [ruleSet, hset]
    rfl
  | some ruleset =>
    have hrules : t.ruleSet r.ip = ruleset := by rw [ruleSet, hset, getD_some]
    dsimp only
    cases hget : get ruleset r.id with
    | none =>
      rw [hrules, hget]
    | some _ =>
      intro ip id
      have herased : ruleSet (if erase ruleset r.id = [] then
          erase t r.ip else set t r.ip (erase ruleset r.id)) ip =
          if ip = r.ip then erase ruleset r.id else t.ruleSet ip := by
        by_cases hip : ip = r.ip
        · subst hip
          rw [if_pos rfl]
          split
          next hempty =>
            rw [ruleSet, get_erase_self, hempty]
            rfl
          · rw [ruleSet, get_set_self, getD_some]
        · rw [if_neg hip, ruleSet, ruleSet]
          split
          · rw [get_erase_of_ne hip]
          · rw [get_set_of_ne hip]
      rw [herased]
      by_cases hip : ip = r.ip
      · subst hip
        rw [if_pos rfl, hrules]
        by_cases hid : id = r.id
        · subst hid
          rw [get_erase_self, if_pos ⟨rfl, rfl⟩]
        · rw [get_erase_of_ne hid, if_neg fun h => hid h.2]
      · rw [if_neg hip, if_neg fun h => hip h.1]

end RuleTable

theorem PeerRules.table_setTable (m : PeerRules) (drop drop' : Bool) (t : RuleTable) :
    (m.setTable drop t).table drop' = if drop' = drop then t else m.table drop' := by
  cases drop <;> cases drop' <;> rfl

/-- The rule is one that `AddPeerFiltering` makes. -/
def PeerRule.Made (r : PeerRule) : Prop :=
  ∃ uuid id ip proto sPort dPort action, r = newPeerRule uuid id ip proto sPort dPort action

/-- The two tables hold the installed rules, each under its address and its id. -/
structure Represents (m : PeerRules) (s : Installed) : Prop where
  created : m.created = s.created
  fresh : ∀ r ∈ s.rules, r.id < s.created
  made : ∀ r ∈ s.rules, r.Made
  found : ∀ drop ip id r, get ((m.table drop).ruleSet ip) id = some r ↔
    r ∈ s.rules ∧ r.drop = drop ∧ r.ip = ip ∧ r.id = id

variable {m : PeerRules} {s : Installed} {r : PeerRule}

open PeerRules

/-- A new rule has an id of its own. -/
theorem Represents.add (h : Represents m s) (hid : r.id = s.created) (hmade : r.Made) :
    Represents { m.setTable r.drop ((m.table r.drop).insert r) with created := m.created + 1 }
      ⟨s.rules ++ [r], s.created + 1⟩ := by
  refine ⟨congrArg (· + 1) h.created, fun q hq => ?_, fun q hq => ?_, fun drop ip id q => ?_⟩
  · rcases mem_append.mp hq with hq | hq
    · exact Nat.lt_succ_of_lt (h.fresh q hq)
    · rw [mem_singleton.mp hq, hid]
      exact Nat.lt_succ_self _
  · rcases mem_append.mp hq with hq | hq
    · exact h.made q hq
    · rwa [mem_singleton.mp hq]
  · show get (((m.setTable r.drop _).table drop).ruleSet ip) id = some q ↔ _
    rw [table_setTable, mem_append, mem_singleton]
    by_cases hdrop : drop = r.drop
    · subst hdrop
      rw [if_pos rfl, RuleTable.get_insert]
      split
      next hkey =>
        obtain ⟨rfl, rfl⟩ := hkey
        constructor
        · intro he
          cases he
          exact ⟨.inr rfl, rfl, rfl, rfl⟩
        · rintro ⟨hq | rfl, -, -, hqid⟩
          · exact absurd (h.fresh q hq) (by rw [hqid, hid]; exact Nat.lt_irrefl _)
          · rfl
      next hkey =>
        rw [h.found, or_and_right]
        refine (or_iff_left ?_).symm
        rintro ⟨rfl, -, hqip, hqid⟩
        exact hkey ⟨hqip.symm, hqid.symm⟩
    · rw [if_neg hdrop, h.found, or_and_right]
      refine (or_iff_left ?_).symm
      rintro ⟨rfl, hqdrop, -⟩
      exact hdrop hqdrop.symm

theorem Represents.delete (h : Represents m s) (r : PeerRule) :
    Represents (m.apply (.deletePeerRule (.peer r))) (s.apply (.deletePeerRule (.peer r))) := by
  rw [PeerRules.apply, PeerRules.deletePeerRule, Installed.apply]
  have hget := (m.table r.drop).get_delete r
  cases hdelete : (m.table r.drop).delete r with
  | error e =>
    rw [hdelete] at hget
    -- no installed rule is deleted either
    have hkept : s.rules.filter
        (fun q => ¬ (q.drop = r.drop ∧ q.ip = r.ip ∧ q.id = r.id)) = s.rules := by
      refine filter_eq_self.mpr fun q hq => ?_
      rw [decide_eq_true_eq]
      rintro hsame
      have hfound := (h.found r.drop r.ip r.id q).mpr ⟨hq, hsame⟩
      have hnone : get ((m.table r.drop).ruleSet r.ip) r.id = none := hget
      rw [hnone] at hfound
      cases hfound
    rw [hkept]
    exact h
  | ok t' =>
    rw [hdelete] at hget
    show Represents (m.setTable r.drop t') _
    have hcreated : (m.setTable r.drop t').created = m.created := by
      rw [setTable]
      split <;> rfl
    refine ⟨hcreated.trans h.created, fun q hq => h.fresh q (mem_of_mem_filter hq),
      fun q hq => h.made q (mem_of_mem_filter hq), fun drop ip id q => ?_⟩
    rw [table_setTable, List.mem_filter, decide_eq_true_eq]
    by_cases hdrop : drop = r.drop
    · subst hdrop
      have hget' : get (t'.ruleSet ip) id = _ := hget ip id
      rw [if_pos rfl, hget']
      split
      next hkey =>
        refine iff_of_false (by simp) ?_
        rintro ⟨⟨-, hnot⟩, hqdrop, hqip, hqid⟩
        exact hnot ⟨hqdrop, hqip.trans hkey.1, hqid.trans hkey.2⟩
      next hkey =>
        rw [h.found, and_right_comm]
        refine (and_iff_left_of_imp ?_).symm
        rintro ⟨-, -, hqip, hqid⟩ hsame
        exact hkey ⟨hqip ▸ hsame.2.1, hqid ▸ hsame.2.2⟩
    · rw [if_neg hdrop, h.found, and_right_comm]
      refine (and_iff_left_of_imp ?_).symm
      rintro ⟨-, hqdrop, -⟩ hsame
      exact hdrop (hqdrop ▸ hsame.1)

/-- **One call** keeps the tables and the installed rules together. -/
theorem Represents.apply (h : Represents m s) (op : PeerOp) :
    Represents (m.apply op) (s.apply op) := by
  cases op with
  | addPeerFiltering id ip proto sPort dPort action =>
    rw [PeerRules.apply, PeerRules.addPeerFiltering, Installed.apply]
    cases Addr.fromSlice ip with
    | none => exact h
    | some i =>
      have hadd := h.add (r := newPeerRule m.created id i.unmap proto sPort dPort action)
        h.created ⟨_, _, _, _, _, _, _, rfl⟩
      rw [← h.created] at hadd ⊢
      exact hadd
  | deletePeerRule rule =>
    cases rule with
    | other => exact h
    | peer r => exact h.delete r

/-- **The tables hold the installed rules** after every history. -/
theorem represents_after (ops : List PeerOp) :
    Represents (after {} ops) (ops.foldl Installed.apply {}) := by
  have hrun : ∀ (ops : List PeerOp) {m : PeerRules} {s : Installed}, Represents m s →
      Represents (m.after ops) (ops.foldl Installed.apply s) := by
    intro ops
    induction ops with
    | nil => exact fun h => h
    | cons op ops ih => exact fun h => ih (h.apply op)
  refine hrun ops ⟨rfl, (fun r hr => by cases hr), (fun r hr => by cases hr),
    fun drop ip id r => ?_⟩
  cases drop
  all_goals
    constructor
    · intro hget
      cases hget
    · rintro ⟨hr, -⟩
      cases hr

/-! ## What decides the verdict -/

variable {ord : RangeOrder ℕ} {ip : Addr} {rules : List (ℕ × PeerRule)} {d : Decoded}

/-- Whatever the order of the iteration, a rule is found if one takes the packet. -/
theorem validateRule_eq_none :
    validateRule ord ip rules d = none ↔ ∀ id r, get rules id = some r → r.takes ip d = false := by
  rw [validateRule, map_eq_none_iff, List.find?_eq_none]
  constructor
  · intro h id r hget
    simpa using h (id, r) (mem_range.mpr hget)
  · rintro h ⟨id, r⟩ hmem
    simpa using h id r (mem_range.mp hmem)

theorem of_validateRule_eq_some {verdict : Bytes × Bool}
    (h : validateRule ord ip rules d = some verdict) :
    ∃ id r, get rules id = some r ∧ r.takes ip d ∧ verdict.2 = r.drop := by
  obtain ⟨⟨id, r⟩, hfind, rfl⟩ := map_eq_some_iff.mp h
  exact ⟨id, r, mem_range.mp (mem_of_find?_eq_some hfind),
    by simpa using List.find?_some hfind, rfl⟩

namespace PeerRule

variable {r : PeerRule} {srcIP : Addr} {d : Decoded}

/-- The address of the rule is the source or unspecified. -/
def concerns (r : PeerRule) (srcIP : Addr) : Bool := r.ip = srcIP || r.isWildcard

/-- The rule is for all protocols and its port constraints do not hold of the packet. -/
def overlooksPorts (r : PeerRule) (d : Decoded) : Bool :=
  r.protoLayer = .all && !portsHold r.sPort r.dPort d

theorem Made.matchByIP (h : r.Made) (hwild : r.isWildcard) : r.matchByIP = false := by
  obtain ⟨uuid, id, ip, proto, sPort, dPort, action, rfl⟩ := h
  have hip : ip = ipv4Unspecified ∨ ip = ipv6Unspecified := by
    simpa [isWildcard, newPeerRule] using hwild
  have hv4 : addrString (some ipv4Unspecified) = ascii "0.0.0.0" := by decide +kernel
  have hv6 : addrString (some ipv6Unspecified) = ascii "::" := by decide +kernel
  rcases hip with rfl | rfl
  · simp only [newPeerRule, hv4, decide_true, Bool.true_or, Bool.not_true]
  · simp only [newPeerRule, hv6, decide_true, Bool.or_true, Bool.not_true]

/-- **What the lookup takes**: a rule for the source takes a packet exactly if it matches it, or if
it is for all protocols and the ports are overlooked. -/
theorem Made.takes_iff (h : r.Made) (hconcerns : r.concerns srcIP) :
    r.takes srcIP d ↔ r.matchesPacket srcIP d ∨ r.overlooksPorts d := by
  have haddr : ¬ (r.matchByIP && decide (srcIP.cmp r.ip ≠ .eq)) = true := by
    rw [concerns, Bool.or_eq_true, decide_eq_true_eq] at hconcerns
    rcases hconcerns with rfl | hwild
    · simp [Addr.cmp_self]
    · simp [h.matchByIP hwild]
  have hmatches : r.matchesPacket srcIP d =
      (layerHolds r.protoLayer d && portsHold r.sPort r.dPort d) := by
    rw [matchesPacket, ← concerns, hconcerns, Bool.true_and]
  rw [takes, if_neg haddr, hmatches, overlooksPorts, layerHolds]
  by_cases hall : r.protoLayer = .all
  · cases hports : portsHold r.sPort r.dPort d <;> simp [hall]
  · rw [if_neg hall]
    simp only [hall, decide_false, Bool.false_or, Bool.false_and, Bool.false_eq_true, or_false]
    cases hlayer : protoLayerMatches r.protoLayer d.transport with
    | false => simp
    | true =>
      obtain ⟨uuid, id, ip, proto, sPort, dPort, action, rfl⟩ := h
      rw [portsHold]
      rcases transport_of_protoLayerMatches hlayer with ht | ht | ht | ht <;> simp [ht]

end PeerRule

namespace Represents

variable {m : PeerRules} {s : Installed} {srcIP : Addr} {d : Decoded}

/-- Some installed rule of a table and an address takes the packet. -/
def Taken (s : Installed) (drop : Bool) (ip srcIP : Addr) (d : Decoded) : Prop :=
  ∃ r ∈ s.rules, r.drop = drop ∧ r.ip = ip ∧ r.takes srcIP d = true

theorem validateRule_eq_none (h : Represents m s) {drop : Bool} : validateRule ord srcIP
    ((m.table drop).ruleSet ip) d = none ↔
      ¬ Taken s drop ip srcIP d := by
  rw [Uspfilter.validateRule_eq_none]
  constructor
  · rintro hnone ⟨r, hr, hdrop, hip, htakes⟩
    rw [hnone r.id r ((h.found drop ip r.id r).mpr ⟨hr, hdrop, hip, rfl⟩)] at htakes
    exact Bool.noConfusion htakes
  · intro hnone id r hget
    obtain ⟨hr, hdrop, hip, -⟩ := (h.found drop ip id r).mp hget
    exact Bool.eq_false_iff.mpr fun htakes => hnone ⟨r, hr, hdrop, hip, htakes⟩

/-- A lookup decides a packet that one of its rules takes, as its table says, and leaves every
other packet to what comes after it. -/
theorem lookup_iff (h : Represents m s) (ord : RangeOrder ℕ) (drop : Bool) (ip : Addr)
    (rest : Bytes × Bool) : ((validateRule ord srcIP ((m.table drop).ruleSet ip) d).getD rest).2 ↔
      (Taken s drop ip srcIP d ∧ drop) ∨ (¬ Taken s drop ip srcIP d ∧ rest.2) := by
  cases hfound : validateRule ord srcIP ((m.table drop).ruleSet ip) d with
  | none =>
    have hnot := h.validateRule_eq_none.mp hfound
    exact ⟨fun hrest => .inr ⟨hnot, hrest⟩,
      fun hor => hor.elim (fun htaken => absurd htaken.1 hnot) And.right⟩
  | some verdict =>
    obtain ⟨id, r, hget, htakes, hverdict⟩ := of_validateRule_eq_some hfound
    obtain ⟨hr, hdrop, hip, -⟩ := (h.found drop ip id r).mp hget
    have htaken : Taken s drop ip srcIP d := ⟨r, hr, hdrop, hip, htakes⟩
    rw [getD_some, hverdict, hdrop]
    exact ⟨fun hd => .inl ⟨htaken, hd⟩,
      fun hor => hor.elim And.right fun hnot => absurd htaken hnot.1⟩

/-- **The verdict of the lookup**: it blocks what a drop rule for the source takes and what no
accept rule for the source or an unspecified address takes. -/
theorem peerACLsBlock_iff (h : Represents m s) (ord : ℕ → RangeOrder ℕ) :
    (m.peerACLsBlock ord srcIP d).2 ↔ isSpecialICMP d = false ∧
      (Taken s true srcIP srcIP d ∨ ¬ (Taken s false srcIP srcIP d ∨
        Taken s false ipv4Unspecified srcIP d ∨ Taken s false ipv6Unspecified srcIP d)) := by
  have hchain : m.peerACLsBlock ord srcIP d = if isSpecialICMP d then ([], false) else
      (validateRule (ord 0) srcIP ((m.table true).ruleSet srcIP) d).getD
        ((validateRule (ord 1) srcIP ((m.table false).ruleSet srcIP) d).getD
          ((validateRule (ord 2) srcIP ((m.table false).ruleSet ipv4Unspecified) d).getD
            ((validateRule (ord 3) srcIP ((m.table false).ruleSet ipv6Unspecified) d).getD
              ([], true)))) := by
    rw [peerACLsBlock]
    simp only [table, if_true, Bool.false_eq_true, if_false]
    cases validateRule (ord 0) srcIP (m.incomingDenyRules.ruleSet srcIP) d <;>
      cases validateRule (ord 1) srcIP (m.incomingRules.ruleSet srcIP) d <;>
      cases validateRule (ord 2) srcIP (m.incomingRules.ruleSet ipv4Unspecified) d <;>
      cases validateRule (ord 3) srcIP (m.incomingRules.ruleSet ipv6Unspecified) d <;> rfl
  rw [hchain]
  cases isSpecialICMP d with
  | true => simp
  | false =>
    rw [if_neg Bool.false_ne_true, h.lookup_iff, h.lookup_iff, h.lookup_iff, h.lookup_iff]
    tauto

end Represents

/-! ## Misjudged packets -/

/-- The packets on which the lookup and the installed rules disagree. -/
inductive Misjudged (rules : List PeerRule) (srcIP : Addr) (d : Decoded) : Prop
  /-- A drop rule for an unspecified address matches, but is not looked up. -/
  | wildcardDrop (r : PeerRule) (hr : r ∈ rules) (hdrop : r.drop = true)
      (hwild : r.isWildcard = true) (hmatches : r.matchesPacket srcIP d = true)
      (hpassed : ¬ ∃ q ∈ rules, q.drop = true ∧ q.ip = srcIP ∧
        (q.matchesPacket srcIP d = true ∨ q.overlooksPorts d = true))
      (haccepted : ∃ q ∈ rules, q.drop = false ∧ q.concerns srcIP = true ∧
        (q.matchesPacket srcIP d = true ∨ q.overlooksPorts d = true))
  /-- No accept rule matches, but one for all protocols takes it in spite of its ports. -/
  | acceptedOnOtherPort (r : PeerRule) (hr : r ∈ rules) (haccept : r.drop = false)
      (hconcerns : r.concerns srcIP = true) (hports : r.overlooksPorts d = true)
      (hnone : ¬ ∃ q ∈ rules, q.drop = false ∧ q.matchesPacket srcIP d = true)
      (hpassed : ¬ ∃ q ∈ rules, q.drop = true ∧ q.ip = srcIP ∧
        (q.matchesPacket srcIP d = true ∨ q.overlooksPorts d = true))
  /-- An accept rule matches and no drop rule does, but one for all protocols takes it in spite
  of its ports. -/
  | droppedOnOtherPort (r : PeerRule) (hr : r ∈ rules) (hdrop : r.drop = true)
      (hip : r.ip = srcIP) (hports : r.overlooksPorts d = true)
      (hnone : ¬ ∃ q ∈ rules, q.drop = true ∧ q.matchesPacket srcIP d = true)
      (haccepted : ∃ q ∈ rules, q.drop = false ∧ q.matchesPacket srcIP d = true)

section Verdict

variable {s : Installed} {srcIP : Addr} {d : Decoded}

/-- An installed rule that concerns the source takes the packet. -/
theorem taken_concerns_iff (hmade : ∀ r ∈ s.rules, r.Made) (drop : Bool) :
    (Represents.Taken s drop srcIP srcIP d ∨ Represents.Taken s drop ipv4Unspecified srcIP d ∨
      Represents.Taken s drop ipv6Unspecified srcIP d) ↔
    ∃ q ∈ s.rules, q.drop = drop ∧ q.concerns srcIP ∧
      (q.matchesPacket srcIP d ∨ q.overlooksPorts d) := by
  have hiff : ∀ q : PeerRule, q.concerns srcIP ↔
      q.ip = srcIP ∨ q.ip = ipv4Unspecified ∨ q.ip = ipv6Unspecified := by
    intro q
    simp [PeerRule.concerns, PeerRule.isWildcard]
  constructor
  · rintro (⟨q, hq, hdrop, hip, htakes⟩ | ⟨q, hq, hdrop, hip, htakes⟩ | ⟨q, hq, hdrop, hip, htakes⟩)
    all_goals
      have hconcerns : q.concerns srcIP := (hiff q).mpr (by simp [hip])
      exact ⟨q, hq, hdrop, hconcerns, ((hmade q hq).takes_iff hconcerns).mp htakes⟩
  · rintro ⟨q, hq, hdrop, hconcerns, htakes⟩
    have htakes' := ((hmade q hq).takes_iff hconcerns).mpr htakes
    rcases (hiff q).mp hconcerns with hip | hip | hip
    · exact .inl ⟨q, hq, hdrop, hip, htakes'⟩
    · exact .inr (.inl ⟨q, hq, hdrop, hip, htakes'⟩)
    · exact .inr (.inr ⟨q, hq, hdrop, hip, htakes'⟩)

theorem taken_source_iff (hmade : ∀ r ∈ s.rules, r.Made) (drop : Bool) :
    Represents.Taken s drop srcIP srcIP d ↔ ∃ q ∈ s.rules, q.drop = drop ∧ q.ip = srcIP ∧
      (q.matchesPacket srcIP d ∨ q.overlooksPorts d) := by
  refine exists_congr fun q => and_congr_right fun hq => and_congr_right fun _ =>
    and_congr_right fun hip => (hmade q hq).takes_iff ?_
  rw [PeerRule.concerns, hip, decide_eq_true rfl, Bool.true_or]

theorem concerns_of_matchesPacket (h : r.matchesPacket srcIP d) :
    r.concerns srcIP := by
  rw [PeerRule.matchesPacket, Bool.and_eq_true, Bool.and_eq_true] at h
  exact h.1.1

end Verdict

/-- **The verdict on a packet is right** after any history if and only if it is an always-allowed
ICMP error or not misjudged. -/
theorem peerACLsBlock_right_iff (ops : List PeerOp) (ord : ℕ → RangeOrder ℕ) (srcIP : Addr)
    (d : Decoded) : (((after {} ops).peerACLsBlock ord srcIP d).2 = true ↔
      Blocks (installed ops) srcIP d) ↔
    (isSpecialICMP d = true ∨ ¬ Misjudged (installed ops) srcIP d) := by
  have h := represents_after ops
  rw [h.peerACLsBlock_iff ord, taken_concerns_iff h.made false, taken_source_iff h.made true]
  show (_ ↔ Blocks (ops.foldl Installed.apply {}).rules srcIP d) ↔
    (_ ∨ ¬ Misjudged (ops.foldl Installed.apply {}).rules srcIP d)
  rw [Blocks]
  cases isSpecialICMP d with
  | true => simp
  | false =>
    simp only [true_and, Bool.false_eq_true, false_or]
    constructor
    · intro hright hmis
      cases hmis with
      | wildcardDrop r hr hdrop _ hmatches hpassed haccepted =>
        rcases hright.mpr (.inl ⟨r, hr, hdrop, hmatches⟩) with hd | hnot
        · exact hpassed hd
        · exact hnot haccepted
      | acceptedOnOtherPort r hr haccept hconcerns hports hnone hpassed =>
        rcases hright.mpr (.inr hnone) with hd | hnot
        · exact hpassed hd
        · exact hnot ⟨r, hr, haccept, hconcerns, .inr hports⟩
      | droppedOnOtherPort r hr hdrop hip hports hnone haccepted =>
        rcases hright.mp (.inl ⟨r, hr, hdrop, hip, .inr hports⟩) with hd | hnot
        · exact hnone hd
        · exact hnot haccepted
    · intro hright
      constructor
      · -- what the lookup blocks
        rintro (⟨q, hq, hdrop, hip, hmatches | hports⟩ | hnot)
        · exact .inl ⟨q, hq, hdrop, hmatches⟩
        · by_contra hcon
          rw [not_or, not_not] at hcon
          exact hright (.droppedOnOtherPort q hq hdrop hip hports hcon.1 hcon.2)
        · refine .inr ?_
          rintro ⟨q, hq, haccept, hmatches⟩
          exact hnot ⟨q, hq, haccept, concerns_of_matchesPacket hmatches, .inl hmatches⟩
      · -- what the rules block
        intro hblocks
        by_contra hcon
        rw [not_or, not_not] at hcon
        obtain ⟨hpassed, haccepted⟩ := hcon
        rcases hblocks with ⟨r, hr, hdrop, hmatches⟩ | hnone
        · have hconcerns := concerns_of_matchesPacket hmatches
          rw [PeerRule.concerns, Bool.or_eq_true, decide_eq_true_eq] at hconcerns
          rcases hconcerns with hip | hwild
          · exact hpassed ⟨r, hr, hdrop, hip, .inl hmatches⟩
          · exact hright (.wildcardDrop r hr hdrop hwild hmatches hpassed haccepted)
        · obtain ⟨q, hq, haccept, hconcerns, hmatches | hports⟩ := haccepted
          · exact hnone ⟨q, hq, haccept, hmatches⟩
          · exact hright (.acceptedOnOtherPort q hq haccept hconcerns hports hnone hpassed)

/-- An accept rule for 100.64.0.2 and a drop rule for TCP from everywhere: a TCP packet from
100.64.0.2 passes. -/
theorem wildcard_drop_ignored :
    let ops : List PeerOp := [ .addPeerFiltering [] [100, 64, 0, 2] .all none none .accept,
      .addPeerFiltering [] [0, 0, 0, 0] .tcp none none .drop]
    let d : Decoded :=
      { network := .ipv4, transport := .tcp, tcpSrcPort := 40000, tcpDstPort := 22 }
    ((after {} ops).peerACLsBlock (fun _ => .kept) (.v4 0x64400002#32) d).2 = false ∧
      ∃ r ∈ installed ops, r.drop = true ∧ r.matchesPacket (.v4 0x64400002#32) d = true := by
  decide +kernel

end Uspfilter
