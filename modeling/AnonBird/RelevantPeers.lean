/-
# What is relevant to a peer

What `getPeersFromGroups` and `getPeersGroupsPoliciesRoutes` collect, said without their
loops.  `onSource` and `onDestination` tell which peers stand on a side of a rule; the peers
collected for a target are those that stand opposite to it in an enabled rule, and the
failures recorded are those of the peers that the source groups of the enabled rules were
searched for.
-/
import AnonBird.Components

open GoStrings NetIP List
open GoMap hiding get set

namespace Management

open Account

/-! ## The table of failures -/

/-- A failure is in the table. -/
def PostureFailed.Has (failed : PostureFailed) (checkID peerID : Bytes) : Prop :=
  peerID ∈ (get failed checkID).getD []

/-- A failure is added. -/
theorem PostureFailed.has_record {failed : PostureFailed} {checkID peerID c p : Bytes} :
    (failed.record checkID peerID).Has c p ↔ failed.Has c p ∨ (c = checkID ∧ p = peerID) := by
  rw [Has, Has, record, get_set]
  by_cases h : c = checkID
  · subst h
    rw [if_pos rfl, Option.getD_some, mem_insert_iff]
    tauto
  · rw [if_neg h]
    tauto

namespace Account

variable (a : Account) (validated checkIDs : List Bytes)

/-- The first checks that a peer fails. -/
def failedCheck (peer : Peer) : Option Bytes := checkIDs.find? fun id => !a.passes id peer

/-- The first check that fails. -/
theorem getFailed_eq (pid : Bytes) : a.validatePostureChecksOnPeerGetFailed checkIDs pid =
      match a.getPeer pid with
      | none => (false, [])
      | some peer =>
        ((a.failedCheck checkIDs peer).isNone, (a.failedCheck checkIDs peer).getD []) := by
  rw [validatePostureChecksOnPeerGetFailed]
  cases a.getPeer pid with
  | none => rfl
  | some peer =>
    dsimp only
    rw [failedCheck]
    split <;> simp only [*] <;> rfl

/-- A peer that the search of a list of groups lets through: it is validated, exists and
passes the checks. -/
def admits (pid : Bytes) : Bool :=
  validated.contains pid && a.validatePostureChecksOnPeer checkIDs pid

/-- A peer whose failure the search records. -/
def Rejects (checkID pid : Bytes) : Prop :=
  pid ∈ validated ∧ ∃ peer, a.getPeer pid = some peer ∧ a.failedCheck checkIDs peer = some checkID

instance (checkID pid : Bytes) : Decidable (a.Rejects validated checkIDs checkID pid) :=
  decidable_of_iff (pid ∈ validated ∧ (a.getPeer pid).bind (a.failedCheck checkIDs) = some checkID)
    (by rw [Option.bind_eq_some_iff]; rfl)

end Account

variable {pid : Bytes}

section Search

variable {a : Account} {validated checkIDs : List Bytes} {target : Bytes} {peer : Peer}

/-- The check that is found fails. -/
theorem not_passes_of_failedCheck {c : Bytes}
    (h : a.failedCheck checkIDs peer = some c) : c ∈ checkIDs ∧ a.passes c peer = false :=
  ⟨mem_of_find?_eq_some h, by simpa using List.find?_some h⟩

/-- No check is found if all pass. -/
theorem failedCheck_eq_none :
    a.failedCheck checkIDs peer = none ↔ ∀ id ∈ checkIDs, a.passes id peer := by
  rw [failedCheck, List.find?_eq_none]
  simp

/-- A validated peer that passes all checks. -/
theorem admits_iff : a.admits validated checkIDs pid ↔
    pid ∈ validated ∧ ∃ peer, a.getPeer pid = some peer ∧ ∀ id ∈ checkIDs, a.passes id peer := by
  rw [admits, validatePostureChecksOnPeer]
  cases a.getPeer pid with
  | none => simp
  | some peer => simp

/-- A rejected peer is not admitted. -/
theorem not_admits_of_rejects {checkID pid : Bytes}
    (h : a.Rejects validated checkIDs checkID pid) : ¬ a.admits validated checkIDs pid := by
  obtain ⟨-, peer, hpeer, hfail⟩ := h
  intro hadm
  obtain ⟨-, peer', hpeer', hall⟩ := admits_iff.mp hadm
  rw [hpeer] at hpeer'
  cases hpeer'
  rw [failedCheck_eq_none.mpr hall] at hfail
  exact Option.some_ne_none checkID hfail.symm

/-- A visited peer is let through, has its failure recorded, or is passed over. -/
theorem visitPeer_cases (a : Account) (validated checkIDs : List Bytes) (target : Bytes)
    (s : GroupPeers) (pid : Bytes) :
    (a.admits validated checkIDs pid ∧ visitPeer a validated target checkIDs s pid =
      if pid = target then { s with peerInGroups := true } else { s with ids := s.ids ++ [pid] }) ∨
    (∃ c, a.Rejects validated checkIDs c pid ∧
      visitPeer a validated target checkIDs s pid = { s with failed := s.failed.record c pid }) ∨
    (a.admits validated checkIDs pid = false ∧ (∀ c, ¬ a.Rejects validated checkIDs c pid) ∧
      visitPeer a validated target checkIDs s pid = s) := by
  rw [visitPeer]
  cases hpeer : a.getPeer pid with
  | none =>
    right; right
    refine ⟨by simp [admits, validatePostureChecksOnPeer, hpeer], ?_, rfl⟩
    rintro c ⟨-, peer, hpeer', -⟩
    rw [hpeer] at hpeer'
    exact Option.some_ne_none peer hpeer'.symm
  | some peer =>
    have hid : peer.id = pid := id_of_getPeer hpeer
    simp only [hid, getFailed_eq, hpeer]
    by_cases hval : pid ∈ validated
    · cases hfail : a.failedCheck checkIDs peer with
      | none =>
        left
        refine ⟨admits_iff.mpr ⟨hval, peer, hpeer, failedCheck_eq_none.mp hfail⟩, ?_⟩
        simp [hval]
      | some c =>
        right; left
        have hc : c ≠ [] := ne_nil_of_not_passes (not_passes_of_failedCheck hfail).2
        refine ⟨c, ⟨hval, peer, hpeer, hfail⟩, ?_⟩
        simp [hval, hc]
    · right; right
      refine ⟨by simp [admits, hval], ?_, by simp [hval]⟩
      rintro c ⟨hval', -⟩
      exact hval hval'

variable {s : GroupPeers}

/-- The state of a search that counts the peers `members` for its result and has visited the
peers `visited`, starting from a table of failures. -/
structure Searched (a : Account) (validated checkIDs : List Bytes) (target : Bytes)
    (start : PostureFailed) (members visited : List Bytes) (s : GroupPeers) : Prop where
  ids : ∀ p, p ∈ s.ids ↔ p ∈ members ∧ a.admits validated checkIDs p = true ∧ p ≠ target
  inGroups : s.peerInGroups = true ↔
    target ∈ members ∧ a.admits validated checkIDs target = true
  failed : ∀ c p, s.failed.Has c p ↔
    start.Has c p ∨ (p ∈ visited ∧ a.Rejects validated checkIDs c p)

section Searched

variable {start : PostureFailed} {members members' visited visited' : List Bytes} {s : GroupPeers}

section

variable (h : Searched a validated checkIDs target start members visited s)

include h

theorem Searched.congr
    (hm : ∀ p, p ∈ members ↔ p ∈ members') (hv : ∀ p, p ∈ visited ↔ p ∈ visited') :
    Searched a validated checkIDs target start members' visited' s where
  ids p := by rw [h.ids, hm]
  inGroups := by rw [h.inGroups, hm]
  failed c p := by rw [h.failed, hv]

/-- A peer is visited. -/
theorem Searched.visit (pid : Bytes) :
    Searched a validated checkIDs target start (pid :: members) (pid :: visited)
      (visitPeer a validated target checkIDs s pid) := by
  have hids := h.ids
  have hin := h.inGroups
  have hfailed := h.failed
  obtain ⟨hadm, he⟩ | ⟨c, hrej, he⟩ | ⟨hadm, hrej, he⟩ :=
    visitPeer_cases a validated checkIDs target s pid
  · have hnot : ∀ c, ¬ a.Rejects validated checkIDs c pid := fun c hrej =>
      not_admits_of_rejects hrej hadm
    rw [he]
    split
    · exact ⟨by grind, by grind, by grind⟩
    · exact ⟨by grind, by grind, by grind⟩
  · have hnot := not_admits_of_rejects hrej
    have hone : ∀ c', a.Rejects validated checkIDs c' pid → c' = c := by
      rintro c' ⟨-, peer, hpeer, hfail⟩
      obtain ⟨-, peer', hpeer', hfail'⟩ := hrej
      rw [hpeer] at hpeer'
      cases hpeer'
      exact Option.some.inj (hfail.symm.trans hfail')
    rw [he]
    refine ⟨by grind, by grind, fun c' p => ?_⟩
    rw [PostureFailed.has_record, hfailed]
    grind
  · rw [he]
    exact ⟨by grind, by grind, by grind⟩

/-- The peers of a group are visited. -/
theorem Searched.visitAll (peers : List Bytes) :
    Searched a validated checkIDs target start (peers ++ members) (peers ++ visited)
      (peers.foldl (visitPeer a validated target checkIDs) s) := by
  induction peers generalizing s members visited with
  | nil => exact h
  | cons pid peers ih =>
    apply (ih (h.visit pid)).congr
    all_goals
      intro p
      simp only [mem_append, mem_cons, cons_append]
      tauto

end

/-- The second loop skips the peers that it has seen, which have been counted already. -/
theorem Searched.visitUnseen {seen : List Bytes}
    (h : Searched a validated checkIDs target start seen seen s) (peers : List Bytes) :
    let r := peers.foldl (visitUnseen a validated target checkIDs) (s, seen)
    (∀ p, p ∈ r.2 ↔ p ∈ peers ∨ p ∈ seen) ∧
      Searched a validated checkIDs target start r.2 r.2 r.1 := by
  induction peers generalizing s seen with
  | nil => exact ⟨by simp, h⟩
  | cons pid peers ih =>
    rw [foldl_cons, visitUnseen]
    split
    next hseen =>
      obtain ⟨hmem, hs⟩ := ih h
      exact ⟨by grind, hs⟩
    · obtain ⟨hmem, hs⟩ := ih (h.visit pid)
      exact ⟨by grind, hs⟩

end Searched

/-- The peers that the search of a list of groups visits: those of the groups up to the one
that ends it. -/
def visitedPeers (lookup : Bytes → Option Group) (single : Bool) : List Bytes → List Bytes
  | [] => []
  | gid :: groups =>
    match lookup gid with
    | none => visitedPeers lookup single groups
    | some group =>
      if group.isGroupAll || single then group.peers
      else group.peers ++ visitedPeers lookup single groups

/-- The groups are visited, up to one of all peers. -/
theorem searched_loop {start : PostureFailed} {single : Bool} {groups seen : List Bytes}
    (h : Searched a validated checkIDs target start seen seen s) :
    Searched a validated checkIDs target start (match closingGroup a.getGroup single groups with
        | some g => g.peers
        | none => peersOf a.getGroup groups ++ seen) (visitedPeers a.getGroup single groups ++ seen)
      (peersFromGroupsLoop a validated target checkIDs single groups (s, seen)) := by
  induction groups generalizing s seen with
  | nil => simpa [closingGroup, peersOf, visitedPeers, peersFromGroupsLoop] using h
  | cons gid groups ih =>
    rw [peersFromGroupsLoop, closingGroup_cons, visitedPeers]
    cases hg : a.getGroup gid with
    | none => simpa [peersOf, hg] using ih h
    | some group =>
      by_cases hclose : (group.isGroupAll || single) = true
      · simp only [hclose, if_true]
        have hempty : Searched a validated checkIDs target start [] seen
            { s with ids := [], peerInGroups := false } :=
          ⟨by simp, by simp, h.failed⟩
        apply (hempty.visitAll group.peers).congr <;> simp
      · simp only [hclose, Bool.false_eq_true, if_false]
        obtain ⟨hmem, hs⟩ := h.visitUnseen group.peers
        apply (ih hs).congr
        · intro p
          cases closingGroup a.getGroup single groups with
          | some g => rfl
          | none =>
            simp only [mem_append, hmem, peersOf, flatMap_cons, hg, Option.map_some,
              Option.getD_some]
            tauto
        · intro p
          simp only [mem_append, hmem]
          tauto

/-- **The search of a list of groups.**  It returns the members that it admits, and records
the rejected ones among the peers it visits. -/
theorem searched_getPeersFromGroups (groups : List Bytes) (failed : PostureFailed) :
    Searched a validated checkIDs target failed (membersOf a.getGroup groups)
      (visitedPeers a.getGroup (groups.length = 1) groups)
      (a.getPeersFromGroups validated target groups checkIDs failed) := by
  have hstart : Searched a validated checkIDs target failed [] [] { failed := failed } :=
    ⟨by simp, by simp, by simp⟩
  apply (searched_loop hstart).congr
  · intro p
    rw [membersOf]
    cases closingGroup a.getGroup (groups.length = 1) groups with
    | some g => rfl
    | none => simp
  · simp

end Search

/-! ## The sides of a rule -/

namespace Account

variable (a : Account) (validated : List Bytes)

/-- A peer stands on a side of a rule: it is the peer of the resource, or an admitted member
of the groups. -/
def onSide (resource : Resource) (groups checkIDs : List Bytes) (pid : Bytes) : Bool :=
  if resource.isPeer then resource.id = pid
  else (membersOf a.getGroup groups).contains pid && a.admits validated checkIDs pid

/-- A peer is a source of a rule. -/
def onSource (policy : Policy) (rule : PolicyRule) (pid : Bytes) : Bool :=
  a.onSide validated rule.sourceResource rule.sources policy.sourcePostureChecks pid

/-- A peer is a destination of a rule. -/
def onDestination (rule : PolicyRule) (pid : Bytes) : Bool :=
  a.onSide validated rule.destinationResource rule.destinations [] pid

variable {a validated} {target : Bytes} {resource : Resource} {groups checkIDs : List Bytes}
  {failed : PostureFailed}

/-- The target is on a side of a rule. -/
theorem peerInGroups_ruleSide :
    (a.ruleSide validated target resource groups checkIDs failed).peerInGroups =
      a.onSide validated resource groups checkIDs target := by
  rw [ruleSide, onSide]
  split
  · rfl
  · rw [Bool.eq_iff_iff, (searched_getPeersFromGroups groups failed).inGroups]
    simp

/-- The other peers on a side of a rule. -/
theorem mem_ids_ruleSide (hne : pid ≠ target) :
    pid ∈ (a.ruleSide validated target resource groups checkIDs failed).ids ↔
      a.onSide validated resource groups checkIDs pid := by
  rw [ruleSide, onSide]
  split
  · simp [eq_comm]
  · rw [(searched_getPeersFromGroups groups failed).ids]
    simp [hne]

/-- The failures that a side of a rule adds. -/
theorem has_failed_ruleSide {c p : Bytes} :
    (a.ruleSide validated target resource groups checkIDs failed).failed.Has c p ↔
      failed.Has c p ∨ (resource.isPeer = false ∧
        p ∈ visitedPeers a.getGroup (groups.length = 1) groups ∧
        a.Rejects validated checkIDs c p) := by
  rw [ruleSide]
  split
  next h =>
    simp [h]
  next h =>
    rw [(searched_getPeersFromGroups groups failed).failed]
    simp [h]

/-- Without checks nobody is rejected. -/
theorem not_rejects_nil {c p : Bytes} : ¬ a.Rejects validated [] c p := by
  rintro ⟨-, peer, -, hfail⟩
  exact Option.some_ne_none c hfail.symm

end Account

/-! ## What is collected -/

namespace Account

variable (a : Account) (validated : List Bytes) (target : Bytes)

variable (accessGroups : List Bytes) (policy : Policy) (rule : PolicyRule)

/-- A peer stands in a rule on the side opposite to the target. -/
def Opposite (pid : Bytes) : Prop :=
  (a.onSource validated policy rule target = true ∧ a.onDestination validated rule pid = true) ∨
  (a.onDestination validated rule target = true ∧ a.onSource validated policy rule pid = true)

/-- A rule reaches the access control group of a route. -/
def forRoute : Bool :=
  rule.destinations.any fun gid => accessGroups.contains gid

/-- A rule makes a group relevant to the target. -/
def UsesGroup (gid : Bytes) :
    Prop :=
  (forRoute accessGroups rule = true ∧ (gid ∈ rule.sources ∨ gid ∈ rule.destinations)) ∨
  (a.onSource validated policy rule target = true ∧ gid ∈ rule.destinations) ∨
  (a.onDestination validated rule target = true ∧ gid ∈ rule.sources)

/-- A rule makes its policy relevant to the target. -/
def ruleRelevant : Bool :=
  forRoute accessGroups rule || a.onSource validated policy rule target ||
    a.onDestination validated rule target

end Account

/-- The state of the collection after some of the enabled rules, where `base` are the groups
collected before. -/
structure Collected (a : Account) (validated : List Bytes) (target : Bytes)
    (accessGroups : List Bytes) (base : Bytes → Prop) (rules : List (Policy × PolicyRule))
    (s : Relevant) : Prop where
  peers : Restricts a.getPeer s.peers fun pid =>
    pid = target ∨ ∃ pr ∈ rules, a.Opposite validated target pr.1 pr.2 pid
  groups : Restricts a.getGroup s.groups fun gid =>
    base gid ∨ ∃ pr ∈ rules, a.UsesGroup validated target accessGroups pr.1 pr.2 gid
  failed : ∀ c p, s.failed.Has c p ↔ ∃ pr ∈ rules, pr.2.sourceResource.isPeer = false ∧
    p ∈ visitedPeers a.getGroup (pr.2.sources.length = 1) pr.2.sources ∧
    a.Rejects validated pr.1.sourcePostureChecks c p

/-! ### One rule -/

section Rule

variable {a : Account} {validated : List Bytes} {target : Bytes} {sshEnabled : Bool}
  {accessGroups : List Bytes} {policy : Policy} {rule : PolicyRule} {s : Relevant}

/-- The users of SSH change nothing else. -/
theorem Relevant.needSSH_fields :
    (s.needSSH sshEnabled rule).peers = s.peers ∧ (s.needSSH sshEnabled rule).groups = s.groups ∧
    (s.needSSH sshEnabled rule).policies = s.policies ∧
    (s.needSSH sshEnabled rule).routes = s.routes ∧
    (s.needSSH sshEnabled rule).failed = s.failed := by
  rw [Relevant.needSSH]
  repeat' split
  all_goals exact ⟨rfl, rfl, rfl, rfl, rfl⟩

/-- The two sides of a rule as the loop computes them. -/
def ruleSides (a : Account) (validated : List Bytes) (target : Bytes) (policy : Policy)
    (rule : PolicyRule) (failed : PostureFailed) : GroupPeers × GroupPeers :=
  let src := a.ruleSide validated target rule.sourceResource rule.sources
    policy.sourcePostureChecks failed
  (src, a.ruleSide validated target rule.destinationResource rule.destinations [] src.failed)

variable (a validated target sshEnabled accessGroups policy rule s)

/-- What the loop body does with a rule, field by field. -/
theorem relevantRule_spec (b : Bool) :
    let sides := ruleSides a validated target policy rule s.failed
    let s' := (relevantRule a validated target sshEnabled accessGroups policy (s, b) rule).1
    s'.peers = setAll a.getPeer
      (setAll a.getPeer s.peers (if sides.1.peerInGroups then sides.2.ids else []))
      (if sides.2.peerInGroups then sides.1.ids else []) ∧
    s'.groups = setAll a.getGroup (setAll a.getGroup (setAll a.getGroup (setAll a.getGroup s.groups
            (if forRoute accessGroups rule then rule.sources else []))
          (if forRoute accessGroups rule then rule.destinations else []))
        (if sides.1.peerInGroups then rule.destinations else []))
      (if sides.2.peerInGroups then rule.sources else []) ∧
    s'.policies = s.policies ∧ s'.routes = s.routes ∧ s'.failed = sides.2.failed := by
  intro sides s'
  have hforRoute : (rule.destinations.any fun gid => accessGroups.contains gid) =
      forRoute accessGroups rule := rfl
  cases hroute : forRoute accessGroups rule <;>
  cases hsrc : sides.1.peerInGroups <;>
  cases hdst : sides.2.peerInGroups
  all_goals
    simp only [sides, ruleSides] at hsrc hdst
    simp only [s', sides, relevantRule, hforRoute, hroute, Relevant.addPeers, Relevant.addGroups,
      ruleSides, hsrc, hdst, if_true, if_false, Bool.false_eq_true,
      Relevant.needSSH_fields]
    simp [setAll]

variable {a validated target accessGroups s} in
/-- **One rule of the collection.** -/
theorem Collected.addRule {base : Bytes → Prop} {rules : List (Policy × PolicyRule)}
    (h : Collected a validated target accessGroups base rules s) (b : Bool) :
    Collected a validated target accessGroups base (rules ++ [(policy, rule)])
      (relevantRule a validated target sshEnabled accessGroups policy (s, b) rule).1 := by
  obtain ⟨hpeers, hgroups, -, -, hfailed⟩ :=
    relevantRule_spec a validated target sshEnabled accessGroups policy rule s b
  have hsrc : (ruleSides a validated target policy rule s.failed).1.peerInGroups =
      a.onSource validated policy rule target := peerInGroups_ruleSide
  have hdst : (ruleSides a validated target policy rule s.failed).2.peerInGroups =
      a.onDestination validated rule target := peerInGroups_ruleSide
  rw [hsrc, hdst] at hpeers hgroups
  refine ⟨?_, ?_, ?_⟩
  · rw [hpeers]
    apply ((h.peers.setAll _).setAll _).congr
    intro pid
    by_cases ht : pid = target
    · simp [ht]
    · have hids : pid ∈ (ruleSides a validated target policy rule s.failed).1.ids ↔
          a.onSource validated policy rule pid := mem_ids_ruleSide ht
      have hids' : pid ∈ (ruleSides a validated target policy rule s.failed).2.ids ↔
          a.onDestination validated rule pid := mem_ids_ruleSide ht
      simp only [ht, false_or, mem_append, mem_singleton, or_and_right, exists_or,
        exists_eq_left, Account.Opposite]
      cases a.onSource validated policy rule target <;>
        cases a.onDestination validated rule target <;> simp [hids, hids', or_assoc]
  · rw [hgroups]
    apply ((((h.groups.setAll _).setAll _).setAll _).setAll _).congr
    intro gid
    simp only [mem_append, mem_singleton, or_and_right, exists_or, exists_eq_left,
      Account.UsesGroup]
    cases forRoute accessGroups rule <;> cases a.onSource validated policy rule target <;>
      cases a.onDestination validated rule target <;> simp [or_assoc]
  · intro c p
    rw [hfailed]
    show (a.ruleSide validated target rule.destinationResource rule.destinations [] _).failed.Has
      c p ↔ _
    rw [has_failed_ruleSide, has_failed_ruleSide, h.failed]
    simp only [not_rejects_nil, and_false, or_false, mem_append, mem_singleton,
      or_and_right, exists_or, exists_eq_left]

/-- The flag says whether a rule was relevant. -/
theorem relevantRule_relevant (b : Bool) :
    (relevantRule a validated target sshEnabled accessGroups policy (s, b) rule).2 =
      (b || a.ruleRelevant validated target accessGroups policy rule) := by
  have hfailed : (if (rule.destinations.any fun gid => accessGroups.contains gid) = true then
      (s.addGroups a rule.sources).addGroups a rule.destinations else s).failed = s.failed := by
    split <;> rfl
  simp only [relevantRule, hfailed, peerInGroups_ruleSide, ruleRelevant,
    forRoute, onSource, onDestination, Bool.or_assoc]

end Rule

/-! ### The loops -/

section Loops

variable {a : Account} {validated : List Bytes} {target : Bytes}
  {accessGroups : List Bytes} {base : Bytes → Prop} {done : List (Policy × PolicyRule)}
  {s : Relevant}

/-- The rules of a policy are collected. -/
theorem Collected.addRules (h : Collected a validated target accessGroups base done s)
    (sshEnabled : Bool) (policy : Policy) (rules : List PolicyRule) (b : Bool) :
    let s' := rules.foldl (relevantRule a validated target sshEnabled accessGroups policy) (s, b)
    Collected a validated target accessGroups base
      (done ++ rules.map fun rule => (policy, rule)) s'.1 ∧
    s'.2 = (b || rules.any (a.ruleRelevant validated target accessGroups policy)) ∧
    s'.1.policies = s.policies ∧ s'.1.routes = s.routes := by
  induction rules generalizing s b done with
  | nil => exact ⟨by simpa using h, by simp, rfl, rfl⟩
  | cons rule rules ih =>
    intro s'
    have hhead := h.addRule sshEnabled policy rule b
    obtain ⟨-, -, hp, hr, -⟩ :=
      relevantRule_spec a validated target sshEnabled accessGroups policy rule s b
    have hflag := relevantRule_relevant a validated target sshEnabled accessGroups policy rule s b
    obtain ⟨hcol, hflag', hp', hr'⟩ := ih hhead
      (relevantRule a validated target sshEnabled accessGroups policy (s, b) rule).2
    refine ⟨?_, ?_, hp'.trans hp, hr'.trans hr⟩
    · rw [append_assoc, singleton_append] at hcol
      exact hcol
    · exact hflag'.trans (by rw [hflag, any_cons, Bool.or_assoc])

/-- A policy with an enabled rule that makes it relevant. -/
def Account.policyRelevant (a : Account) (validated : List Bytes) (target : Bytes)
    (accessGroups : List Bytes) (policy : Policy) : Bool :=
  policy.enabled && (policy.rules.filter PolicyRule.enabled).any
    (a.ruleRelevant validated target accessGroups policy)

/-- A policy is collected. -/
theorem Collected.addPolicy (h : Collected a validated target accessGroups base done s)
    (sshEnabled : Bool) (policy : Policy) :
    let s' := relevantPolicy a validated target sshEnabled accessGroups s policy
    Collected a validated target accessGroups base (done ++ activeRules [policy]) s' ∧
    s'.policies = s.policies ++ [policy].filter (a.policyRelevant validated target accessGroups) ∧
    s'.routes = s.routes := by
  intro s'
  cases hen : policy.enabled with
  | false =>
    have hs' : s' = s := by simp only [s', relevantPolicy, hen, if_true]
    rw [hs']
    exact ⟨by simpa [activeRules, hen] using h, by simp [policyRelevant, hen], rfl⟩
  | true =>
    obtain ⟨hcol, hflag, hp, hr⟩ :=
      h.addRules sshEnabled policy (policy.rules.filter PolicyRule.enabled) false
    have hactive : activeRules [policy] =
        (policy.rules.filter PolicyRule.enabled).map fun rule => (policy, rule) := by
      simp [activeRules, hen]
    rw [Bool.false_or] at hflag
    simp only [s', relevantPolicy, hen, Bool.true_eq_false, if_false, foldl_enabled, hactive]
    split
    next hrel =>
      refine ⟨⟨hcol.peers, hcol.groups, hcol.failed⟩, ?_, hr⟩
      have : a.policyRelevant validated target accessGroups policy := by
        rw [policyRelevant, hen, ← hflag, hrel]
        rfl
      simp [hp, this]
    next hrel =>
      refine ⟨hcol, ?_, hr⟩
      have : a.policyRelevant validated target accessGroups policy = false := by
        rw [policyRelevant, hen, ← hflag, Bool.true_and]
        exact Bool.eq_false_iff.mpr hrel
      simp [hp, this]

/-- The rules of the first policy come first. -/
theorem activeRules_cons (policy : Policy) (policies : List Policy) :
    activeRules (policy :: policies) = activeRules [policy] ++ activeRules policies := by
  cases h : policy.enabled <;> simp [activeRules, h]

/-- The policies are collected. -/
theorem Collected.addPolicies (h : Collected a validated target accessGroups base done s)
    (sshEnabled : Bool) (policies : List Policy) :
    let s' := policies.foldl (relevantPolicy a validated target sshEnabled accessGroups) s
    Collected a validated target accessGroups base (done ++ activeRules policies) s' ∧
    s'.policies = s.policies ++ policies.filter (a.policyRelevant validated target accessGroups) ∧
    s'.routes = s.routes := by
  induction policies generalizing s done with
  | nil => exact ⟨by simpa [activeRules] using h, by simp, rfl⟩
  | cons policy policies ih =>
    obtain ⟨hcol, hp, hr⟩ := h.addPolicy sshEnabled policy
    obtain ⟨hcol', hp', hr'⟩ := ih hcol
    refine ⟨?_, ?_, hr'.trans hr⟩
    · rw [activeRules_cons, ← append_assoc]
      exact hcol'
    · refine hp'.trans ?_
      rw [hp, append_assoc, ← filter_append, singleton_append]

/-- A route refers to a group, or does so through its access control while it is enabled. -/
def Route.UsesGroup (r : Route) (gid : Bytes) : Prop :=
  gid ∈ r.groups ∨ gid ∈ r.peerGroups ∨ (r.enabled = true ∧ gid ∈ r.accessControlGroups)

/-- The loop over the routes adds their groups, and keeps the rest. -/
theorem relevantRoutes_spec {K : Bytes → Prop} (hK : Restricts a.getGroup s.groups K)
    (routes : List Route) : ∃ groups, routes.foldl (relevantRoute a) s =
      { s with groups := groups, routes := s.routes ++ routes } ∧
    Restricts a.getGroup groups fun gid => K gid ∨ ∃ r ∈ routes, r.UsesGroup gid := by
  induction routes generalizing s K with
  | nil => exact ⟨s.groups, by rw [append_nil]; rfl, by simpa using hK⟩
  | cons r routes ih =>
    have hstep : ∃ groups, relevantRoute a s r =
        { s with groups := groups, routes := s.routes ++ [r] } ∧
        Restricts a.getGroup groups fun gid => K gid ∨ r.UsesGroup gid := by
      rw [relevantRoute]
      cases hen : r.enabled with
      | true =>
        refine ⟨_, rfl, (((hK.setAll r.groups).setAll r.peerGroups).setAll
          r.accessControlGroups).congr fun gid => ?_⟩
        simp [Route.UsesGroup, hen, or_assoc]
      | false =>
        refine ⟨_, rfl, ((hK.setAll r.groups).setAll r.peerGroups).congr fun gid => ?_⟩
        simp [Route.UsesGroup, hen, or_assoc]
    obtain ⟨groups, hr, hg⟩ := hstep
    obtain ⟨groups', hrs, hg'⟩ := @ih { s with groups := groups, routes := s.routes ++ [r] } _ hg
    refine ⟨groups', ?_, hg'.congr fun gid => by simp [or_assoc]⟩
    rw [foldl_cons, hr, hrs, append_assoc, singleton_append]

end Loops

/-! ### The whole collection -/

namespace Account

variable (a : Account) (ord : RangeOrder Bytes)

/-- The routes of the account, in the order of the loop over them. -/
def routeList : List Route := (range ord a.routes).map Prod.snd

/-- The access control groups of the account's enabled routes. -/
def accessGroups : List Bytes := routeAccessControlGroups (a.routeList ord)

/-- A group that is relevant to the target before any rule is looked at. -/
def BaseGroup (target gid : Bytes) : Prop :=
  gid ∈ a.getPeerGroups target ∨ ∃ r ∈ a.routeList ord, r.UsesGroup gid

/-- **What is relevant to a target.** -/
theorem collected_relevant (target : Bytes) (sshEnabled : Bool) (validated : List Bytes) :
    let rel := a.getPeersGroupsPoliciesRoutes ord target sshEnabled validated
    Collected a validated target (a.accessGroups ord) (a.BaseGroup ord target)
      (activeRules a.policies) rel ∧
    rel.policies = a.policies.filter (a.policyRelevant validated target (a.accessGroups ord)) ∧
    rel.routes = a.routeList ord := by
  have hgroups : Restricts a.getGroup (setAll a.getGroup [] (a.getPeerGroups target)) fun gid =>
        gid ∈ a.getPeerGroups target := by
    have hnil : Restricts a.getGroup [] fun _ => False := by
      intro gid g
      simp [get]
    exact (hnil.setAll (a.getPeerGroups target)).congr (by simp)
  have hpeers : Restricts a.getPeer (set [] target (a.getPeer target)) fun pid =>
      pid = target := by
    intro pid p
    rw [get_set]
    by_cases h : pid = target
    · simp [h, eq_comm]
    · simp [h, get]
  obtain ⟨groups, hroutes, hg⟩ := relevantRoutes_spec
    (s := { peers := set [] target (a.getPeer target),
            groups := setAll a.getGroup [] (a.getPeerGroups target) })
    hgroups (a.routeList ord)
  have hstart : Collected a validated target (a.accessGroups ord)
      (a.BaseGroup ord target) [] ((a.routeList ord).foldl (relevantRoute a)
        { peers := set [] target (a.getPeer target),
          groups := setAll a.getGroup [] (a.getPeerGroups target) }) := by
    rw [hroutes]
    refine ⟨?_, ?_, by simp [PostureFailed.Has, get]⟩
    · exact hpeers.congr (by simp)
    · exact hg.congr fun gid => by simp [BaseGroup]
  obtain ⟨hcol, hpol', hr'⟩ := hstart.addPolicies sshEnabled a.policies
  refine ⟨hcol, hpol'.trans ?_, hr'.trans ?_⟩
  · rw [hroutes]
    rfl
  · rw [hroutes]
    rfl

end Account

end Management
