/-
# What the components of a peer hold

The loop over the network resources only adds to what is relevant to the target: peers that
are validated, groups that exist, failures that are real.  So the peers and groups of the components
are those of the account, and a recorded failure is a failure.
-/
import AnonBird.ExceptLoops
import AnonBird.RelevantPeers
import AnonBird.NetworkMap

open GoStrings NetIP List
open Option (bind_some ext getD_some some_ne_none some_or)
open GoMap hiding get set
open Except

namespace Management

open Account

/-! ## Adding what is new -/

section SetNew

variable {ν : Type*}

/-- An entry is kept, and added where there is none. -/
theorem get_setNew (m : List (Bytes × ν)) (k k' : Bytes) (v : ν) :
    get (setNew m k v) k' = (get m k').or (if k' = k then some v else none) := by
  rw [setNew]
  by_cases hk : k' = k
  · subst hk
    cases hget : get m k' <;> simp [hget]
  · split <;> simp [get_set, hk]

/-- A loop that writes the keys it does not find, with the values that `f` gives. -/
def setNewAll (f : Bytes → Option ν) (m : List (Bytes × ν)) (ks : List Bytes) :
    List (Bytes × ν) :=
  ks.foldl (fun m k => match f k with
    | none => m
    | some v => setNew m k v) m

/-- Entries are kept, and added where there are none. -/
theorem get_setNewAll (f : Bytes → Option ν) (ks : List Bytes) (m : List (Bytes × ν)) (k : Bytes) :
    get (setNewAll f m ks) k = (get m k).or (if k ∈ ks then f k else none) := by
  induction ks generalizing m with
  | nil => simp [setNewAll]
  | cons x ks ih =>
    show get (setNewAll f (match f x with | none => m | some v => setNew m x v) ks) k = _
    rw [ih]
    by_cases hk : k = x
    · subst hk
      cases f k with
      | none => simp
      | some v => cases hget : get m k <;> simp [get_setNew, hget]
    · cases f x <;> simp [get_setNew, hk]

end SetNew

/-! ## Failures -/

/-- A peer fails the checks of this id.  A peer that does not exist counts as failing under
the empty id. -/
def Account.Fails (a : Account) (checkID peerID : Bytes) : Prop :=
  (∃ peer, a.getPeer peerID = some peer ∧ a.passes checkID peer = false) ∨
    (a.getPeer peerID = none ∧ checkID = [])

open PostureFailed

section Failures

variable {a : Account} {validated checkIDs : List Bytes} {p : Bytes}

/-- The check that is reported fails. -/
theorem fails_of_getFailed {c : Bytes}
    (h : a.validatePostureChecksOnPeerGetFailed checkIDs p = (false, c)) : a.Fails c p := by
  rw [getFailed_eq] at h
  split at h
  next hpeer =>
    exact .inr ⟨hpeer, (Prod.mk.inj h).2.symm⟩
  next peer hpeer =>
    obtain ⟨hnone, hc⟩ := Prod.mk.inj h
    cases hfail : a.failedCheck checkIDs peer with
    | none => simp [hfail] at hnone
    | some c' =>
      rw [hfail, getD_some] at hc
      exact .inl ⟨peer, hpeer, hc ▸ (not_passes_of_failedCheck hfail).2⟩

/-- `getPostureValidPeersSaveFailed`: which peers it returns, and which failures it adds. -/
theorem getPostureValidPeersSaveFailed_spec (a : Account) (validated checkIDs : List Bytes)
    (inputPeers : List Bytes) (failed : PostureFailed) :
    let r := a.getPostureValidPeersSaveFailed inputPeers checkIDs validated failed
    (∀ p, p ∈ r.1 ↔ p ∈ inputPeers ∧ p ∈ validated ∧
      (a.validatePostureChecksOnPeerGetFailed checkIDs p).1) ∧
    (∀ c p, r.2.Has c p ↔ failed.Has c p ∨ (p ∈ inputPeers ∧ p ∈ validated ∧
      a.validatePostureChecksOnPeerGetFailed checkIDs p = (false, c))) := by
  intro r
  induction inputPeers using reverseRecOn with
  | nil => simp [r, getPostureValidPeersSaveFailed]
  | append_singleton ps q ih =>
    have hr : r = a.saveFailed checkIDs validated
        (a.getPostureValidPeersSaveFailed ps checkIDs validated failed) q := by
      simp only [r, getPostureValidPeersSaveFailed, foldl_concat]
    obtain ⟨hids, hfailed⟩ := ih
    rw [hr, saveFailed]
    by_cases hval : q ∈ validated
    · rw [if_neg (not_not.mpr hval)]
      rcases hq : a.validatePostureChecksOnPeerGetFailed checkIDs q with ⟨valid, pname⟩
      cases valid with
      | true => exact ⟨by grind, by grind⟩
      | false =>
        refine ⟨by grind, fun c p => ?_⟩
        simp only [Bool.false_eq_true, if_false, has_record]
        grind
    · rw [if_pos hval]
      exact ⟨by grind, by grind⟩

end Failures

/-! ## The loop over the network resources -/

/-- The policy lets the target in: it is a source of the policy, and fails none of the checks
that have an id. -/
def Account.LetsIn (a : Account) (ord : RangeOrder Bytes) (target : Bytes)
    (policy : Policy) : Prop :=
  policyHasSource a ord policy target = .ok true ∧
    ∀ c, a.validatePostureChecksOnPeerGetFailed policy.sourcePostureChecks target = (false, c) →
      c = []

/-- The peers that are collected as sources of a policy of a resource. -/
def Account.policySources (a : Account) (ord : RangeOrder Bytes) (policy : Policy) : List Bytes :=
  ((policyPeers ord a.getGroup policy).toOption).getD []

/-- A network resource brings a peer into the map of the target: as a routing peer of its network
or, if the target routes the resource or is let in by one of its policies, as a source of a policy
whose checks it passes. -/
def Account.Brings (a : Account) (ord : RangeOrder Bytes) (target : Bytes) (policies : List Policy)
    (routers : List (Bytes × NetworkRouter)) (pid : Bytes) : Prop :=
  pid ∈ keys routers ∨
    ((get routers target).isSome = true ∨ ∃ policy ∈ policies, a.LetsIn ord target policy) ∧
      ∃ policy ∈ policies, pid ∈ a.policySources ord policy ∧
        (a.validatePostureChecksOnPeerGetFailed policy.sourcePostureChecks pid).1 = true

/-- A validated peer that an enabled network resource brings into the map of the target. -/
def Account.Brought (a : Account) (ord : RangeOrder Bytes) (validated : List Bytes) (target : Bytes)
    (resourcePolicies : List (Bytes × List Policy))
    (routers : List (Bytes × List (Bytes × NetworkRouter))) (pid : Bytes) : Prop :=
  pid ∈ validated ∧ (a.getPeer pid).isSome = true ∧
    ∃ resource ∈ a.networkResources, resource.enabled = true ∧
      a.Brings ord target ((get resourcePolicies resource.id).getD [])
        ((get routers resource.networkID).getD []) pid

/-- What the loop over the network resources has added to its start. -/
structure Draft.Grown (a : Account) (ord : RangeOrder Bytes) (validated : List Bytes)
    (target : Bytes) (resourcePolicies : List (Bytes × List Policy))
    (routers : List (Bytes × List (Bytes × NetworkRouter))) (start d : Draft) : Prop where
  peers_kept : ∀ pid v, get start.peers pid = some v → get d.peers pid = some v
  peers_new : ∀ pid v, get d.peers pid = some v → get start.peers pid = some v ∨
    (v = a.getPeer pid ∧ a.Brought ord validated target resourcePolicies routers pid)
  groups_kept : ∀ gid v, get start.groups gid = some v → get d.groups gid = some v
  groups_new : ∀ gid v, get d.groups gid = some v → get start.groups gid = some v ∨
    (v = a.getGroup gid ∧ v.isSome = true)
  failed_kept : ∀ c p, start.failed.Has c p → d.failed.Has c p
  failed_new : ∀ c p, d.failed.Has c p → start.failed.Has c p ∨ a.Fails c p
  policies_kept : ∀ id, (get start.resourcePoliciesMap id).isSome = true →
    (get d.resourcePoliciesMap id).isSome = true
  policies_new : ∀ id ps, get d.resourcePoliciesMap id = some ps →
    get start.resourcePoliciesMap id = some ps ∨ get resourcePolicies id = some ps
  routersMap_new : ∀ id rs, get d.routersMap id = some rs →
    get start.routersMap id = some rs ∨ rs = (get routers id).getD []
  resources_new : ∀ r ∈ d.networkResources, r ∈ start.networkResources ∨
    (r ∈ a.networkResources ∧ r.enabled = true ∧ ∃ ps, get resourcePolicies r.id = some ps ∧
      ((get ((get routers r.networkID).getD []) target).isSome = true ∨
        ∃ policy ∈ ps, a.LetsIn ord target policy))
  routerPeers_new : ∀ id p, get d.routerPeers id = some p →
    get start.routerPeers id = some p ∨ a.getPeer id = some p

variable {failed : PostureFailed} {policies : List Policy}

section Growth

variable {a : Account} {ord : RangeOrder Bytes} {validated : List Bytes} {target : Bytes}
  {resourcePolicies : List (Bytes × List Policy)}
  {routers : List (Bytes × List (Bytes × NetworkRouter))} {start d : Draft}

/-- A draft that nothing was added to. -/
theorem Draft.Grown.refl (start : Draft) :
    Grown a ord validated target resourcePolicies routers start start where
  peers_kept _ _ h := h
  peers_new _ _ h := .inl h
  groups_kept _ _ h := h
  groups_new _ _ h := .inl h
  failed_kept _ _ h := h
  failed_new _ _ h := .inl h
  policies_kept _ h := h
  policies_new _ _ h := .inl h
  routersMap_new _ _ h := .inl h
  resources_new _ h := .inl h
  routerPeers_new _ _ h := .inl h

variable (h : Draft.Grown a ord validated target resourcePolicies routers start d)

include h

/-- Peers that a resource brings are added. -/
theorem Draft.Grown.addPeers (f : Bytes → Option (Option Peer)) (pids : List Bytes)
    (hnew : ∀ pid ∈ pids, ∀ v, f pid = some v →
      v = a.getPeer pid ∧ a.Brought ord validated target resourcePolicies routers pid) :
    Grown a ord validated target resourcePolicies routers start
      { d with peers := setNewAll f d.peers pids } := by
  refine { h with
    peers_kept := fun pid v hv => ?_
    peers_new := fun pid v hv => ?_ }
  · rw [get_setNewAll, h.peers_kept pid v hv, some_or]
  · dsimp only at hv
    rw [get_setNewAll, Option.or_eq_some_iff] at hv
    obtain hv | ⟨-, hv⟩ := hv
    · exact h.peers_new pid v hv
    · obtain ⟨hmem, hv⟩ := Option.ite_none_right_eq_some.mp hv
      exact .inr (hnew pid hmem v hv)

/-- Failures are added. -/
theorem Draft.Grown.addFailed (hkept : ∀ c p, d.failed.Has c p → failed.Has c p)
    (hnew : ∀ c p, failed.Has c p → d.failed.Has c p ∨ a.Fails c p) :
    Grown a ord validated target resourcePolicies routers start { d with failed := failed } :=
  { h with
    failed_kept := fun c p hp => hkept c p (h.failed_kept c p hp)
    failed_new := fun c p hp => (hnew c p hp).elim (h.failed_new c p) .inr }

omit h in
/-- The groups of the rules of a policy are added where there are none. -/
theorem get_addRuleGroups (d : Draft) (policy : Policy) (gid : Bytes) :
    get (d.addRuleGroups a policy).groups gid = (get d.groups gid).or
      (if gid ∈ policy.rules.flatMap fun rule => rule.sources ++ rule.destinations
        then (a.getGroup gid).map some else none) := by
  rw [← get_setNewAll (fun gid => (a.getGroup gid).map some), Draft.addRuleGroups, setNewAll]
  dsimp only
  congr 2
  funext groups id
  cases a.getGroup id <;> rfl

/-- The policies of a resource are kept. -/
theorem Draft.Grown.keepPolicies {resourceID : Bytes}
    (hps : get resourcePolicies resourceID = some policies) (policy : Policy) :
    Grown a ord validated target resourcePolicies routers start
      (d.keepPolicies a resourceID policies policy) := by
  refine { h with
    groups_kept := fun gid v hv => ?_, groups_new := fun gid v hv => ?_
    policies_kept := fun id hget => ?_, policies_new := fun id ps hget => ?_ }
  · show get (d.addRuleGroups a policy).groups gid = some v
    rw [get_addRuleGroups, h.groups_kept gid v hv, some_or]
  · have hv' : get (d.addRuleGroups a policy).groups gid = some v := hv
    rw [get_addRuleGroups] at hv'
    rcases Option.or_eq_some_iff.mp hv' with hold | ⟨-, hnew⟩
    · exact h.groups_new gid v hold
    · obtain ⟨g, hgroup, rfl⟩ :=
        Option.map_eq_some_iff.mp (Option.ite_none_right_eq_some.mp hnew).2
      exact .inr ⟨hgroup.symm, rfl⟩
  · show (get (set d.resourcePoliciesMap resourceID policies) id).isSome
    rw [get_set]
    split
    · rfl
    · exact h.policies_kept id hget
  · obtain ⟨rfl, rfl⟩ | ⟨-, hold⟩ := get_set_eq_some.mp hget
    · exact .inr hps
    · exact h.policies_new id ps hold

/-! ### One policy of a resource -/

variable {resourceID : Bytes} {resource : NetworkResource} {policies : List Policy}
  {policy : Policy} {d' : Draft} {flag flag' : Bool}

omit h in
/-- What a policy of a resource adds, with the sources or with the target. -/
theorem addPolicy_cases
    (h : addPolicy a ord validated target resourceID policies (d, flag) policy = .ok (d', flag')) :
    (flag ∧ flag' ∧ ∃ peers, policyPeers ord a.getGroup policy = .ok peers ∧
      let saved := a.getPostureValidPeersSaveFailed peers policy.sourcePostureChecks validated
        d.failed
      d' = ({ d with
        failed := saved.2
        peers := saved.1.foldl (fun m pid => setNew m pid (a.getPeer pid)) d.peers
        }).keepPolicies a resourceID policies policy) ∨
    (flag = false ∧ flag' = false ∧ d' = d) ∨
    (flag = false ∧ flag' = false ∧ ∃ c,
      a.validatePostureChecksOnPeerGetFailed policy.sourcePostureChecks target = (false, c) ∧
      d' = { d with failed := d.failed.record c target }) ∨
    (flag = false ∧ flag' ∧ a.LetsIn ord target policy ∧
      d' = d.keepPolicies a resourceID policies policy) := by
  rw [addPolicy] at h
  cases flag with
  | true =>
    obtain ⟨peers, hpeers, hrest⟩ := bind_eq_ok.mp h
    cases hrest
    exact .inl ⟨rfl, rfl, peers, hpeers, rfl⟩
  | false =>
    obtain ⟨isSource, hsource, hrest⟩ := bind_eq_ok.mp h
    cases isSource with
    | false =>
      cases hrest
      exact .inr (.inl ⟨rfl, rfl, rfl⟩)
    | true =>
      simp only [Bool.not_true, Bool.false_eq_true, if_false] at hrest
      right; right
      split at hrest
      next hfail =>
        cases hrest
        exact .inl ⟨rfl, rfl, _, Prod.ext hfail.1 rfl, rfl⟩
      next hfail =>
        cases hrest
        refine .inr ⟨rfl, rfl, ⟨hsource, fun c hc => ?_⟩, rfl⟩
        by_contra hne
        exact hfail (by rw [hc]; exact ⟨rfl, hne⟩)

/-- **One policy of a resource** only adds to the draft. -/
theorem Draft.Grown.onePolicy (hres : resource ∈ a.networkResources) (hen : resource.enabled)
    (hps : get resourcePolicies resource.id = some policies) (hpolicy : policy ∈ policies)
    (hflag : flag → (get ((get routers resource.networkID).getD []) target).isSome ∨
      ∃ policy ∈ policies, a.LetsIn ord target policy)
    (hstep : addPolicy a ord validated target resource.id policies (d, flag) policy =
      .ok (d', flag')) : Grown a ord validated target resourcePolicies routers start d' := by
  obtain ⟨hadd, -, peers, hpeers, rfl⟩ | ⟨-, -, rfl⟩ | ⟨-, -, c, hc, rfl⟩ | ⟨-, -, -, rfl⟩ :=
    addPolicy_cases hstep
  · obtain ⟨hids, hfailed⟩ := getPostureValidPeersSaveFailed_spec a validated
      policy.sourcePostureChecks peers d.failed
    apply Draft.Grown.keepPolicies _ hps
    have hfailedGrown : Grown a ord validated target resourcePolicies routers start
        { d with failed := (a.getPostureValidPeersSaveFailed peers policy.sourcePostureChecks
          validated d.failed).2 } := by
      refine h.addFailed (fun c p hp => (hfailed c p).mpr (.inl hp)) fun c p hp => ?_
      exact ((hfailed c p).mp hp).imp_right fun hnew => fails_of_getFailed hnew.2.2
    refine hfailedGrown.addPeers (fun pid => some (a.getPeer pid)) _ fun pid hmem v hv => ?_
    cases hv
    obtain ⟨hsource, hval, hvalid⟩ := (hids pid).mp hmem
    have hexists : (a.getPeer pid).isSome := by
      rw [getFailed_eq] at hvalid
      cases hpeer : a.getPeer pid with
      | none => simp [hpeer] at hvalid
      | some peer => rfl
    refine ⟨rfl, hval, hexists, resource, hres, hen, .inr ?_⟩
    rw [hps, getD_some]
    refine ⟨hflag hadd, policy, hpolicy, ?_, hvalid⟩
    rw [policySources, hpeers]
    exact hsource
  · exact h
  · refine h.addFailed (fun c' p hp => has_record.mpr (.inl hp)) fun c' p hp => ?_
    refine (has_record.mp hp).imp_right ?_
    rintro ⟨rfl, rfl⟩
    exact fails_of_getFailed hc
  · exact h.keepPolicies hps policy

/-- The loop over the policies of a resource. -/
theorem Draft.Grown.allPolicies (hres : resource ∈ a.networkResources) (hen : resource.enabled)
    (hps : get resourcePolicies resource.id = some policies)
    (hloop : policies.foldlM (addPolicy a ord validated target resource.id policies)
      (d, (get ((get routers resource.networkID).getD []) target).isSome) = .ok (d', flag')) :
    Grown a ord validated target resourcePolicies routers start d' ∧
      (flag' → (get ((get routers resource.networkID).getD []) target).isSome ∨
        ∃ policy ∈ policies, a.LetsIn ord target policy) := by
  refine foldlM_keeps (P := fun s : Draft × Bool =>
      Grown a ord validated target resourcePolicies routers start s.1 ∧
        (s.2 → (get ((get routers resource.networkID).getD []) target).isSome ∨
          ∃ policy ∈ policies, a.LetsIn ord target policy))
    ?_ ⟨h, .inl⟩ hloop
  rintro ⟨e, b⟩ policy ⟨e', b'⟩ hmem ⟨hgrown, hflag⟩ hstep
  refine ⟨hgrown.onePolicy hres hen hps hmem hflag hstep, fun hb' => ?_⟩
  obtain ⟨hb, -⟩ | ⟨-, hb, -⟩ | ⟨-, hb, -⟩ | ⟨-, -, hlets, -⟩ := addPolicy_cases hstep
  · exact hflag hb
  · exact Bool.noConfusion (hb'.symm.trans hb)
  · exact Bool.noConfusion (hb'.symm.trans hb)
  · exact .inr ⟨policy, hmem, hlets⟩

/-! ### One resource -/

omit h in
/-- The loop over the routing peers of a network is two loops of writes. -/
theorem addRouters_eq (a : Account) (ord : RangeOrder Bytes) (validated : List Bytes)
    (d : Draft) (routers : List (Bytes × NetworkRouter)) : d.addRouters a ord validated routers =
      { d with
        routerPeers := setNewAll a.getPeer d.routerPeers ((range ord routers).map Prod.fst)
        peers := setNewAll (fun id => if id ∈ validated then (a.getPeer id).map some else none)
          d.peers ((range ord routers).map Prod.fst) } := by
  rw [Draft.addRouters]
  generalize range ord routers = entries
  induction entries generalizing d with
  | nil => rfl
  | cons e entries ih =>
    rw [foldl_cons, ih]
    cases hp : a.getPeer e.1 with
    | none | some p => by_cases hval : e.1 ∈ validated <;> simp [setNewAll, hp, hval]

/-- The routers of a network are added. -/
theorem Draft.Grown.withRouters (hres : resource ∈ a.networkResources) (hen : resource.enabled) :
    Grown a ord validated target resourcePolicies routers start
      (d.addRouters a ord validated ((get routers resource.networkID).getD [])) := by
  rw [addRouters_eq]
  refine { h.addPeers _ _ fun pid hmem v hv => ?_ with routerPeers_new := fun id q hq => ?_ }
  · obtain ⟨hval, hv⟩ := Option.ite_none_right_eq_some.mp hv
    obtain ⟨p, hp, rfl⟩ := Option.map_eq_some_iff.mp hv
    have hrouter := mem_keys.mpr (Option.isSome_iff_exists.mp (mem_range_fst.mp hmem))
    exact ⟨hp.symm, hval, by rw [hp]; rfl, resource, hres, hen, .inl hrouter⟩
  · dsimp only at hq
    rw [get_setNewAll] at hq
    rcases Option.or_eq_some_iff.mp hq with hq | ⟨-, hq⟩
    · exact h.routerPeers_new id q hq
    · exact .inr (Option.ite_none_right_eq_some.mp hq).2

/-- **One network resource** only adds to the draft. -/
theorem Draft.Grown.oneResource (hres : resource ∈ a.networkResources)
    (hstep : addResource a ord validated target resourcePolicies routers d resource = .ok d') :
    Grown a ord validated target resourcePolicies routers start d' := by
  rw [addResource] at hstep
  split at hstep
  · cases hstep
    exact h
  next hen =>
    split at hstep
    · cases hstep
      exact h
    next policies hps =>
      obtain ⟨⟨e, flag⟩, hloop, hrest⟩ := bind_eq_ok.mp hstep
      have henabled : resource.enabled := by simpa using hen
      obtain ⟨hgrown, hflag⟩ := h.allPolicies hres henabled hps hloop
      have hrouters : Grown a ord validated target resourcePolicies routers start
          { e with
            routersMap := set e.routersMap resource.networkID
              ((get routers resource.networkID).getD []) } := by
        refine { hgrown with routersMap_new := fun id rs hrs => ?_ }
        obtain ⟨rfl, rfl⟩ | ⟨-, hold⟩ := get_set_eq_some.mp hrs
        · exact .inr rfl
        · exact hgrown.routersMap_new id rs hold
      have hall := hrouters.withRouters hres henabled
      have he := ok.inj hrest
      split at he
      next hadd =>
        rw [← he]
        exact { hall with
          resources_new := forall_mem_append.mpr ⟨hall.resources_new, forall_mem_singleton.mpr
            (.inr ⟨hres, henabled, policies, hps, hflag hadd⟩)⟩ }
      · rw [← he]
        exact hall

/-! ### The sources of a routed resource -/

omit h

/-- A peer is found to fail the checks of a policy when the sources of the policies of a resource
are collected on its routing peer. -/
theorem has_of_addResource {peers : List Bytes} {chk pid : Bytes}
    (hres : resource ∈ a.networkResources) (hen : resource.enabled)
    (hps : get resourcePolicies resource.id = some policies)
    (hrouter : (get ((get routers resource.networkID).getD []) target).isSome)
    (hpolicy : policy ∈ policies) (hpeers : policyPeers ord a.getGroup policy = .ok peers)
    (hpid : pid ∈ peers) (hval : pid ∈ validated)
    (hfails : a.validatePostureChecksOnPeerGetFailed policy.sourcePostureChecks pid = (false, chk))
    (hstep : addResource a ord validated target resourcePolicies routers d resource = .ok d') :
    d'.failed.Has chk pid ∧ (get d'.resourcePoliciesMap resource.id).isSome := by
  rw [addResource, if_neg (by simp [hen]), hps] at hstep
  obtain ⟨⟨e, flag⟩, hloop, hrest⟩ := bind_eq_ok.mp hstep
  have hadded : e.failed.Has chk pid ∧ (get e.resourcePoliciesMap resource.id).isSome := by
    refine foldlM_attains (P := fun s : Draft × Bool => s.2 = true)
      (Q := fun s : Draft × Bool => s.1.failed.Has chk pid ∧
        (get s.1.resourcePoliciesMap resource.id).isSome)
      hpolicy ?_ ?_ ?_ hrouter hloop
    · rintro ⟨s, b⟩ other ⟨s', b'⟩ - hb hother
      obtain ⟨-, hb', -⟩ | ⟨hb', -⟩ | ⟨hb', -⟩ | ⟨hb', -⟩ := addPolicy_cases hother
      · exact hb'
      all_goals exact Bool.noConfusion (hb.symm.trans hb')
    · rintro ⟨s, b⟩ ⟨s', b'⟩ hb hown
      obtain ⟨-, -, peers', hpeers', rfl⟩ | ⟨hb', -⟩ | ⟨hb', -⟩ | ⟨hb', -⟩ := addPolicy_cases hown
      · cases hpeers.symm.trans hpeers'
        refine ⟨?_, ?_⟩
        · exact ((getPostureValidPeersSaveFailed_spec a validated policy.sourcePostureChecks peers
            s.failed).2 chk pid).mpr (.inr ⟨hpid, hval, hfails⟩)
        · show (get (set _ resource.id policies) resource.id).isSome
          rw [get_set, if_pos rfl]
          rfl
      all_goals exact Bool.noConfusion (hb.symm.trans hb')
    · rintro ⟨s, b⟩ other ⟨s', b'⟩ hmem ⟨hhas, hsome⟩ hother
      have hgrown : Draft.Grown a ord validated target resourcePolicies routers s s' :=
        (Draft.Grown.refl s).onePolicy hres hen hps hmem (fun _ => .inl hrouter) hother
      exact ⟨hgrown.failed_kept chk pid hhas, hgrown.policies_kept _ hsome⟩
  have he := ok.inj hrest
  rw [addRouters_eq] at he
  split at he
  · rw [← he]
    exact hadded
  · rw [← he]
    exact hadded

end Growth

/-! ## Pruning -/

/-- A group with the collected peers only. -/
def Group.restrict (keep : Bytes → Bool) (g : Group) : Group :=
  { g with peers := g.peers.filter keep }

variable {peers : List (Bytes × Option Peer)} {groups : List (Bytes × Option Group)}

/-- What the pruning of the groups leaves, if it does not panic. -/
theorem filterGroupPeers_ok {pruned : List (Bytes × Group)}
    (h : filterGroupPeers groups peers = .ok pruned) (gid : Bytes) (g : Group) :
    get pruned gid = some g ↔ ∃ g₀, get groups gid = some (some g₀) ∧
      g = g₀.restrict (fun pid => (get peers pid).isSome) ∧ g.peers ≠ [] := by
  rw [filterGroupPeers] at h
  split at h
  · simp at h
  · cases h
    rw [get_mapEntries]
    cases get groups gid with
    | none => simp
    | some og =>
      cases og with
      | none => simp
      | some g₀ =>
        simp only [bind_some, Group.restrict, Option.ite_none_left_eq_some, Option.some.injEq,
          exists_eq_left']
        constructor
        · rintro ⟨hne, rfl⟩
          exact ⟨rfl, hne⟩
        · rintro ⟨rfl, hne⟩
          exact ⟨hne, rfl⟩

/-- The failures that are kept are those of kept peers and policies. -/
theorem has_filterPostureFailedPeers
    {resourcePoliciesMap : List (Bytes × List Policy)} {c p : Bytes} :
    (filterPostureFailedPeers failed policies resourcePoliciesMap peers).Has c p ↔
      failed.Has c p ∧ (get peers p).isSome ∧
      ((∃ policy ∈ policies, c ∈ policy.sourcePostureChecks) ∨
        ∃ id ps, get resourcePoliciesMap id = some ps ∧
          ∃ policy ∈ ps, c ∈ policy.sourcePostureChecks) := by
  have hreferenced : (c ∈ policies.flatMap Policy.sourcePostureChecks ++
      (entries resourcePoliciesMap).flatMap fun e =>
        e.2.flatMap Policy.sourcePostureChecks) ↔
      ((∃ policy ∈ policies, c ∈ policy.sourcePostureChecks) ∨
        ∃ id ps, get resourcePoliciesMap id = some ps ∧
          ∃ policy ∈ ps, c ∈ policy.sourcePostureChecks) := by
    simp only [mem_append, mem_flatMap, Prod.exists, mem_entries]
  rw [Has, filterPostureFailedPeers, get_mapEntries, Has, ← hreferenced]
  cases get failed c with
  | none => simp
  | some ps =>
    simp only [bind_some, getD_some]
    split
    next hnot =>
      simp [hnot]
    next href =>
      have hgetD : ∀ l : List Bytes, (if l = [] then none else some l).getD [] = l := by
        intro l
        split <;> simp_all
      rw [hgetD, List.mem_filter, and_iff_left (not_not.mp href)]

/-! ## The components -/

/-- A group that is relevant to the target. -/
def Account.RelevantGroup (a : Account) (ord : RangeOrder Bytes) (validated : List Bytes)
    (target gid : Bytes) : Prop :=
  a.BaseGroup ord target gid ∨ ∃ pr ∈ activeRules a.policies,
    a.UsesGroup validated target (a.accessGroups ord) pr.1 pr.2 gid

/-- A peer that is relevant to the target. -/
def Account.RelevantPeer (a : Account) (validated : List Bytes) (target pid : Bytes) : Prop :=
  pid = target ∨ ∃ pr ∈ activeRules a.policies, a.Opposite validated target pr.1 pr.2 pid

/-- What the components of a peer hold, as the calculation of its map reads them. -/
structure Components.Built (a : Account) (ord : RangeOrder Bytes) (peer : Peer)
    (req : Request) (resourcePolicies : List (Bytes × List Policy))
    (routers : List (Bytes × List (Bytes × NetworkRouter))) (c : Components) : Prop where
  peerID : c.peerID = peer.id
  peers_val : ∀ pid v, get c.peers pid = some v → v = a.getPeer pid
  peers_relevant : ∀ pid, a.RelevantPeer req.validated peer.id pid → c.hasPeer pid = true
  peers_new : ∀ pid, c.hasPeer pid = true → a.RelevantPeer req.validated peer.id pid ∨
    a.Brought ord req.validated peer.id resourcePolicies routers pid
  groups_val : ∀ gid g, c.getGroupInfo gid = some g → ∃ g₀, a.getGroup gid = some g₀ ∧
    g = g₀.restrict c.hasPeer ∧ g.peers ≠ []
  groups_relevant : ∀ gid g₀, a.RelevantGroup ord req.validated peer.id gid →
    a.getGroup gid = some g₀ → (g₀.restrict c.hasPeer).peers ≠ [] →
    c.getGroupInfo gid = some (g₀.restrict c.hasPeer)
  policies : c.policies =
    a.policies.filter (a.policyRelevant req.validated peer.id (a.accessGroups ord))
  routes : c.routes = a.routeList ord
  failed_sound : ∀ chk pid, c.postureFailedPeers.Has chk pid → a.Fails chk pid
  failed_complete : ∀ pr ∈ activeRules a.policies, pr.2.sourceResource.isPeer = false →
    ∀ pid ∈ visitedPeers a.getGroup (pr.2.sources.length = 1) pr.2.sources, ∀ chk,
    a.Rejects req.validated pr.1.sourcePostureChecks chk pid → c.hasPeer pid = true →
    ((∃ policy ∈ c.policies, chk ∈ policy.sourcePostureChecks) ∨
      ∃ id ps, get c.resourcePoliciesMap id = some ps ∧
        ∃ policy ∈ ps, chk ∈ policy.sourcePostureChecks) →
    c.postureFailedPeers.Has chk pid
  failed_routed : ∀ resource ∈ a.networkResources, resource.enabled = true →
    (get ((get routers resource.networkID).getD []) peer.id).isSome = true →
    ∀ ps, get resourcePolicies resource.id = some ps → ∀ policy ∈ ps,
    ∀ pids, policyPeers ord a.getGroup policy = .ok pids →
    ∀ pid ∈ pids, pid ∈ req.validated → c.hasPeer pid = true → ∀ chk ∈ policy.sourcePostureChecks,
    a.validatePostureChecksOnPeerGetFailed policy.sourcePostureChecks pid = (false, chk) →
    c.postureFailedPeers.Has chk pid
  appliedPolicies : ∀ id ps, get c.resourcePoliciesMap id = some ps →
    get resourcePolicies id = some ps
  routersMap : ∀ id rs, get c.routersMap id = some rs → rs = (get routers id).getD []
  resources : ∀ r ∈ c.networkResources, r ∈ a.networkResources ∧ r.enabled = true ∧
    ∃ ps, get resourcePolicies r.id = some ps ∧
      ((get ((get routers r.networkID).getD []) peer.id).isSome = true ∨
        ∃ policy ∈ ps, a.LetsIn ord peer.id policy)
  routerPeers : ∀ id p, get c.routerPeers id = some p → a.getPeer id = some p

/-- **What the components of a peer hold.** -/
theorem Components.built {a : Account} {env : Env} {ord : RangeOrder Bytes} {peer : Peer}
    {req : Request} {resourcePolicies : List (Bytes × List Policy)}
    {routers : List (Bytes × List (Bytes × NetworkRouter))} {c : Components}
    (h : a.buildComponents env ord peer req resourcePolicies routers = .ok c) :
    c.Built a ord peer req resourcePolicies routers := by
  obtain ⟨hcol, hpolicies, hroutes⟩ :=
    a.collected_relevant ord peer.id peer.sshEnabled req.validated
  obtain ⟨d, hloop, hrest⟩ := bind_eq_ok.mp h
  obtain ⟨pruned, hpruned, hrest'⟩ := bind_eq_ok.mp hrest
  have hc := (ok.inj hrest').symm
  have hgrown := foldlM_keeps
    (fun _ _ _ hres hd hstep => Draft.Grown.oneResource hd hres hstep) (.refl _) hloop
  have hgroups := filterGroupPeers_ok hpruned
  subst hc
  have hgroupOf : ∀ gid g, get d.groups gid = some (some g) → a.getGroup gid = some g := by
    intro gid g hg
    rcases hgrown.groups_new gid (some g) hg with hrel | ⟨hval, -⟩
    · exact ((hcol.groups gid (some g)).mp hrel).1.symm
    · exact hval.symm
  have hrelGroup : ∀ gid, a.RelevantGroup ord req.validated peer.id gid →
      get d.groups gid = some (a.getGroup gid) := fun gid hgid =>
    hgrown.groups_kept gid _ ((hcol.groups gid _).mpr ⟨rfl, hgid⟩)
  have hrelPeer : ∀ pid, a.RelevantPeer req.validated peer.id pid →
      get d.peers pid = some (a.getPeer pid) := fun pid hpid =>
    hgrown.peers_kept pid _ ((hcol.peers pid _).mpr ⟨rfl, hpid⟩)
  refine
    { peerID := rfl
      peers_val := fun pid v hv => ?_
      peers_relevant := fun pid hpid => ?_
      peers_new := fun pid hpid => ?_
      groups_val := fun gid g hg => ?_
      groups_relevant := fun gid g₀ hgid hg₀ hne => ?_
      policies := hpolicies
      routes := hroutes
      failed_sound := fun chk pid hhas => ?_
      failed_complete := fun pr hpr hres pid hvis chk hrej hpeer href => ?_
      failed_routed := fun resource hres hen hrouter ps hps policy hpolicy pids hpids pid hpid hval
        hpeer chk hchk hfails => ?_
      appliedPolicies := fun id ps hget => (hgrown.policies_new id ps hget).resolve_left nofun
      routersMap := fun id rs hget => (hgrown.routersMap_new id rs hget).resolve_left nofun
      resources := fun r hr => (hgrown.resources_new r hr).resolve_left nofun
      routerPeers := fun id p hget => (hgrown.routerPeers_new id p hget).resolve_left nofun }
  · rcases hgrown.peers_new pid v hv with hrel | ⟨hval, -⟩
    · exact ((hcol.peers pid v).mp hrel).1
    · exact hval
  · show (get d.peers pid).isSome
    rw [hrelPeer pid hpid]
    rfl
  · obtain ⟨v, hv⟩ := Option.isSome_iff_exists.mp hpid
    rcases hgrown.peers_new pid v hv with hrel | ⟨-, hbrought⟩
    · exact .inl ((hcol.peers pid v).mp hrel).2
    · exact .inr hbrought
  · obtain ⟨g₀, hg₀, he, hne⟩ := (hgroups gid g).mp hg
    exact ⟨g₀, hgroupOf gid g₀ hg₀, he, hne⟩
  · exact (hgroups gid _).mpr ⟨g₀, (hrelGroup gid hgid).trans (by rw [hg₀]), rfl, hne⟩
  · have hfailed := (has_filterPostureFailedPeers.mp hhas).1
    rcases hgrown.failed_new chk pid hfailed with hrel | hfails
    · obtain ⟨pr, -, -, -, -, peer, hpeer, hfail⟩ := (hcol.failed chk pid).mp hrel
      exact .inl ⟨peer, hpeer, (not_passes_of_failedCheck hfail).2⟩
    · exact hfails
  · have hrec : d.failed.Has chk pid :=
      hgrown.failed_kept chk pid ((hcol.failed chk pid).mpr ⟨pr, hpr, hres, hvis, hrej⟩)
    exact has_filterPostureFailedPeers.mpr ⟨hrec, hpeer, href⟩
  · obtain ⟨hhas, hsome⟩ := foldlM_attains (P := fun _ => True)
      (Q := fun d : Draft => d.failed.Has chk pid ∧
        (get d.resourcePoliciesMap resource.id).isSome)
      hres (fun _ _ _ _ _ _ => trivial)
      (fun d d' _ hstep =>
        has_of_addResource hres hen hps hrouter hpolicy hpids hpid hval hfails hstep)
      (fun d other d' hother hkept hstep =>
        have hgrown := (Draft.Grown.refl d).oneResource hother hstep
        ⟨hgrown.failed_kept chk pid hkept.1, hgrown.policies_kept _ hkept.2⟩) trivial hloop
    obtain ⟨ps', hps'⟩ := Option.isSome_iff_exists.mp hsome
    have happlied := (hgrown.policies_new _ _ hps').resolve_left nofun
    cases hps.symm.trans happlied
    exact has_filterPostureFailedPeers.mpr
      ⟨hhas, hpeer, .inr ⟨resource.id, ps, hps', policy, hpolicy, hchk⟩⟩

end Management
