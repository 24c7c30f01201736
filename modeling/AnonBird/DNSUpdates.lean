/-
# Updates of the DNS server

Does the handler chain follow the latest update, with calls of routes, of the management cache and
of the host in between?  An update removes what `dnsMuxMap` kept of the update before.  The local
resolver has one id for all its zones, so of several zones the map keeps the last one only.
-/
import AnonBird.DNSServer

open GoStrings NetIP DNSNames Option
open List hiding mem_range
open Management (DNSConfig NameServerGroup NameServer CustomZone SimpleRecord)
open GoMap hiding get set

namespace DNS

open HandlerWrapper Server

variable {p : Platform}

/-! ## What an update registers -/

/-- A wrapper as the map and the chain see it. -/
structure Registration where
  handlerID : Bytes
  domain : Bytes
  priority : ℤ
  deriving DecidableEq

/-- Where a registration is in the chain. -/
def Registration.key (r : Registration) : Bytes × ℤ := (canonical r.domain, r.priority)

/-- Some registration is for the pattern and the priority; an empty domain is not registered. -/
def Asks (rs : List Registration) (key : Bytes × ℤ) : Prop :=
  ∃ r ∈ rs, r.domain ≠ [] ∧ r.key = key

instance (rs : List Registration) (key : Bytes × ℤ) : Decidable (Asks rs key) :=
  inferInstanceAs (Decidable (∃ r ∈ rs, _))

open Registration

/-- The registrations that a map by handler id keeps. -/
def Registration.held (rs : List Registration) : List Registration :=
  (build handlerID id rs).map Prod.snd

/-- What a wrapper registers. -/
def HandlerWrapper.registration (p : Platform) (w : HandlerWrapper) : Registration :=
  ⟨w.handler.id p, w.domain, w.priority⟩

/-- Where a wrapper is in the chain. -/
def HandlerWrapper.key (w : HandlerWrapper) : Bytes × ℤ := (canonical w.domain, w.priority)

variable (w : HandlerWrapper)

@[simp] theorem HandlerWrapper.key_registration :
    (w.registration p).key = w.key := rfl

/-- The registrations of the zones of an update. -/
def localPlan (zones : List CustomZone) : List Registration :=
  (zones.filter fun zone => zone.records ≠ []).map fun zone =>
    ⟨ascii "local-resolver", zone.domain, priorityLocal⟩

/-- The registration of the merged handler for a domain. -/
def upstreamRegistration (p : Platform) (runtimeIP : Option Addr)
    (domainGroup : Bytes × List NameServerGroup) : Option Registration :=
  let servers := races runtimeIP domainGroup.2
  if servers = [] then none
  else some ⟨upstreamID p domainGroup.1 servers, domainGroup.1, domainPriority domainGroup.1⟩

/-- What an update registers, in order. -/
def plan (p : Platform) (update : UpdateEnv × DNSConfig) : List Registration :=
  localPlan update.2.customZones ++
    (groupNSGroupsByDomain update.1.groupOrder update.2.nameServerGroups).filterMap
      (upstreamRegistration p update.1.runtimeIP)

/-! ## What a configuration asks for -/

/-- The groups for a domain, once for each time that they name it. -/
def groupsFor (groups : List NameServerGroup) (domain : Bytes) : List NameServerGroup :=
  groups.flatMap fun group =>
    if group.primary then (if domain = rootZone then [group] else [])
    else if domain = [] then [] else replicate (group.domains.count domain) group

variable (m : List (Bytes × List NameServerGroup))

theorem get_appendGroup (domain domain' : Bytes)
    (group : NameServerGroup) : (get (appendGroup m domain group) domain').getD [] =
      (get m domain').getD [] ++ if domain' = domain then [group] else [] := by
  rw [appendGroup, get_set]
  split
  next h =>
    rw [h]
    rfl
  · rw [append_nil]

/-- A group is added under its domains. -/
theorem get_addGroup (group : NameServerGroup)
    (domain : Bytes) : (get (addGroup m group) domain).getD [] =
      (get m domain).getD [] ++ groupsFor [group] domain := by
  unfold addGroup groupsFor
  rw [flatMap_singleton]
  split
  · rw [get_appendGroup]
  · induction group.domains using reverseRecOn with
    | nil => simp
    | append_singleton ds d ih =>
      rw [foldl_concat, count_append, count_singleton]
      by_cases hd : d = []
      · rw [if_pos hd, ih, hd]
        by_cases hdomain : domain = [] <;> simp [hdomain]
      · rw [if_neg hd, get_appendGroup, ih]
        by_cases hsame : domain = d
        · simp [hsame, hd, replicate_succ']
        · simp [hsame, Ne.symm hsame]

/-- The groups under a domain, in their order. -/
theorem get_domainMap (groups : List NameServerGroup) (m : List (Bytes × List NameServerGroup))
    (domain : Bytes) : (get (groups.foldl addGroup m) domain).getD [] =
      (get m domain).getD [] ++ groupsFor groups domain := by
  induction groups generalizing m with
  | nil => simp [groupsFor]
  | cons group groups ih =>
    rw [foldl_cons, ih, get_addGroup, append_assoc]
    congr 1
    simp [groupsFor]

variable {groups : List NameServerGroup} {domain : Bytes}

/-- A domain comes with all its groups. -/
theorem mem_groupNSGroupsByDomain {ord : RangeOrder Bytes} {gs : List NameServerGroup}
    (h : (domain, gs) ∈ groupNSGroupsByDomain ord groups) : gs = groupsFor groups domain := by
  have hget := get_domainMap groups [] domain
  rw [mem_range.mp h] at hget
  exact hget

variable (ord : RangeOrder Bytes)

theorem groupsFor_mem_groupNSGroupsByDomain (h : groupsFor groups domain ≠ []) :
    (domain, groupsFor groups domain) ∈ groupNSGroupsByDomain ord groups := by
  have hget := get_domainMap groups [] domain
  rw [groupNSGroupsByDomain, mem_range]
  cases hcase : get (groups.foldl addGroup []) domain with
  | none =>
    rw [hcase] at hget
    exact absurd hget.symm h
  | some gs =>
    rw [hcase] at hget
    rw [show gs = groupsFor groups domain from hget]

/-- A group is for a domain. -/
def Targets (group : NameServerGroup) (domain : Bytes) : Prop :=
  if group.primary then domain = rootZone else domain ≠ [] ∧ domain ∈ group.domains

/-- **What a configuration asks for**: the local resolver for each zone with records, and a handler
for each domain that has a group with usable nameservers. -/
inductive Configured (update : UpdateEnv × DNSConfig) : Bytes × ℤ → Prop
  | zone {zone : CustomZone} (hmem : zone ∈ update.2.customZones) (hrecords : zone.records ≠ [])
      (hdomain : zone.domain ≠ []) : Configured update (canonical zone.domain, priorityLocal)
  | nameServers {group : NameServerGroup} {domain : Bytes}
      (hmem : group ∈ update.2.nameServerGroups) (htarget : Targets group domain)
      (husable : filterNameServers update.1.runtimeIP group.nameServers ≠ []) :
      Configured update (canonical domain, domainPriority domain)

variable {group : NameServerGroup}

theorem mem_groupsFor :
    group ∈ groupsFor groups domain ↔ group ∈ groups ∧ Targets group domain := by
  have hone : ∀ g : NameServerGroup, (group ∈ if g.primary then
        (if domain = rootZone then [g] else [])
      else if domain = [] then [] else replicate (g.domains.count domain) g) ↔
      Targets g domain ∧ group = g := by
    intro g
    unfold Targets
    split
    · split <;> simp [*]
    · split <;> simp [*, count_eq_zero]
  simp only [groupsFor, mem_flatMap, hone, exists_eq_right_right']

variable {runtimeIP : Option Addr}

/-- A domain has servers if one of its groups has. -/
theorem races_ne_nil_iff : races runtimeIP groups ≠ [] ↔
      ∃ group ∈ groups, filterNameServers runtimeIP group.nameServers ≠ [] := by
  unfold races
  simp

variable {update : UpdateEnv × DNSConfig}

/-- The handlers that an update asks for. -/
theorem mem_upstreamPlan {r : Registration} :
    r ∈ (groupNSGroupsByDomain update.1.groupOrder update.2.nameServerGroups).filterMap
        (upstreamRegistration p update.1.runtimeIP) ↔
      ∃ domain, upstreamRegistration p update.1.runtimeIP
        (domain, groupsFor update.2.nameServerGroups domain) = some r := by
  rw [mem_filterMap]
  constructor
  · rintro ⟨⟨domain, gs⟩, hmem, hr⟩
    rw [mem_groupNSGroupsByDomain hmem] at hr
    exact ⟨domain, hr⟩
  · rintro ⟨domain, hr⟩
    refine ⟨_, groupsFor_mem_groupNSGroupsByDomain _ ?_, hr⟩
    intro hnil
    rw [hnil] at hr
    cases hr

theorem targets_ne_nil (h : Targets group domain) : domain ≠ [] := by
  unfold Targets at h
  split at h
  · rw [h]
    decide
  · exact h.1

variable {key : Bytes × ℤ}

/-- The plan registers what the configuration asks for. -/
theorem asks_plan_iff : Asks (plan p update) key ↔ Configured update key := by
  constructor
  · rintro ⟨r, hr, hdomain, rfl⟩
    rcases mem_append.mp hr with hr | hr
    · obtain ⟨zone, hzone, rfl⟩ := mem_map.mp hr
      rw [mem_filter, decide_eq_true_eq] at hzone
      exact .zone hzone.1 hzone.2 hdomain
    · obtain ⟨domain, hsome⟩ := mem_upstreamPlan.mp hr
      unfold upstreamRegistration at hsome
      dsimp only at hsome
      split at hsome
      · cases hsome
      next hraces =>
        cases hsome
        obtain ⟨group, hgroup, husable⟩ := races_ne_nil_iff.mp hraces
        rw [mem_groupsFor] at hgroup
        exact .nameServers hgroup.1 hgroup.2 husable
  · intro h
    cases h with
    | @zone zone hmem hrecords hdomain =>
      refine ⟨⟨ascii "local-resolver", zone.domain, priorityLocal⟩, ?_, hdomain, rfl⟩
      refine mem_append_left _ (mem_map.mpr ⟨zone, ?_, rfl⟩)
      rw [mem_filter, decide_eq_true_eq]
      exact ⟨hmem, hrecords⟩
    | @nameServers group domain hmem htarget husable =>
      have hraces := races_ne_nil_iff.mpr ⟨group, mem_groupsFor.mpr ⟨hmem, htarget⟩, husable⟩
      have hsome : upstreamRegistration p update.1.runtimeIP
          (domain, groupsFor update.2.nameServerGroups domain) = some _ := if_neg hraces
      exact ⟨_, mem_append_right _ (mem_upstreamPlan.mpr ⟨domain, hsome⟩),
        targets_ne_nil htarget, rfl⟩

/-! ## The handlers of an update -/

namespace Server

variable {domainGroup : Bytes × List NameServerGroup}

theorem buildHandlers_cons_of_nil (h : races runtimeIP domainGroup.2 = [])
    (rest : List (Bytes × List NameServerGroup)) (s : Server) :
    buildHandlers runtimeIP (domainGroup :: rest) s = buildHandlers runtimeIP rest { s with
          created := s.created + 1
          stopped := ⟨s.created, domainGroup.1, races runtimeIP domainGroup.2⟩ :: s.stopped } := by
  rw [buildHandlers, buildMergedDomainHandler]
  rw [if_pos h]
  rfl

theorem buildHandlers_cons_of_ne (h : races runtimeIP domainGroup.2 ≠ [])
    (rest : List (Bytes × List NameServerGroup)) (s : Server) :
    buildHandlers runtimeIP (domainGroup :: rest) s =
      (⟨domainGroup.1, .upstream ⟨s.created, domainGroup.1, races runtimeIP domainGroup.2⟩,
          domainPriority domainGroup.1⟩ ::
        (buildHandlers runtimeIP rest { s with created := s.created + 1 }).1,
        (buildHandlers runtimeIP rest { s with created := s.created + 1 }).2) := by
  rw [buildHandlers, buildMergedDomainHandler]
  rw [if_neg h]
  rfl

variable (runtimeIP : Option Addr) (domainGroups : List (Bytes × List NameServerGroup))

/-- The handlers that are built are those of the plan. -/
theorem registrations_buildHandlers (s : Server) :
    (buildHandlers runtimeIP domainGroups s).1.map (registration p) =
      domainGroups.filterMap (upstreamRegistration p runtimeIP) := by
  induction domainGroups generalizing s with
  | nil => rfl
  | cons domainGroup rest ih =>
    by_cases hraces : races runtimeIP domainGroup.2 = []
    · have hnone : upstreamRegistration p runtimeIP domainGroup = none := if_pos hraces
      rw [buildHandlers_cons_of_nil hraces, ih, filterMap_cons_none hnone]
    · have hsome : upstreamRegistration p runtimeIP domainGroup = some _ := if_neg hraces
      rw [buildHandlers_cons_of_ne hraces, map_cons, ih, filterMap_cons_some hsome]
      rfl

/-- What `buildUpstreamHandlerUpdate` does: it makes a resolver for each domain, and stops those
without servers. -/
structure Built (runtimeIP : Option Addr) (domainGroups : List (Bytes × List NameServerGroup))
    (s : Server) (updates : List HandlerWrapper) (s' : Server) : Prop where
  handlers : ∀ w ∈ updates, ∃ u groups,
    w = ⟨u.domain, .upstream u, domainPriority u.domain⟩ ∧ (u.domain, groups) ∈ domainGroups ∧
    s.created ≤ u.ref ∧ u.ref < s'.created ∧ u.upstreamServers = races runtimeIP groups ∧
    u.upstreamServers ≠ []
  rest : s' = { s with created := s'.created, stopped := s'.stopped }
  created : s.created ≤ s'.created
  stopped : ∀ u ∈ s'.stopped, u ∈ s.stopped ∨
    (s.created ≤ u.ref ∧ u.ref < s'.created ∧ u.upstreamServers = [])

/-- What the loop over the domains builds. -/
theorem built
    (s : Server) : Built runtimeIP domainGroups s (buildHandlers runtimeIP domainGroups s).1
      (buildHandlers runtimeIP domainGroups s).2 := by
  induction domainGroups generalizing s with
  | nil => exact ⟨fun w hw => absurd hw not_mem_nil, rfl, le_rfl, fun u hu => .inl hu⟩
  | cons domainGroup rest ih =>
    by_cases hraces : races runtimeIP domainGroup.2 = []
    · rw [buildHandlers_cons_of_nil hraces]
      have hrest := ih { s with
        created := s.created + 1
        stopped := ⟨s.created, domainGroup.1, races runtimeIP domainGroup.2⟩ :: s.stopped }
      have hcreated : s.created + 1 ≤ _ := hrest.created
      refine ⟨fun w hw => ?_, hrest.rest, by omega, fun u hu => ?_⟩
      · obtain ⟨u, groups, hw, hmem, hlow, hhigh, hservers⟩ := hrest.handlers w hw
        exact ⟨u, groups, hw, mem_cons_of_mem _ hmem, Nat.le_of_succ_le hlow, hhigh, hservers⟩
      · rcases hrest.stopped u hu with hold | hnew
        · rcases mem_cons.mp hold with rfl | hold
          · exact .inr ⟨le_rfl, hcreated, hraces⟩
          · exact .inl hold
        · exact .inr ⟨Nat.le_of_succ_le hnew.1, hnew.2⟩
    · rw [buildHandlers_cons_of_ne hraces]
      have hrest := ih { s with created := s.created + 1 }
      have hcreated : s.created + 1 ≤ _ := hrest.created
      refine ⟨fun w hw => ?_, hrest.rest, by dsimp only; omega, fun u hu => ?_⟩
      · rcases mem_cons.mp hw with rfl | hw
        · exact ⟨⟨s.created, domainGroup.1, races runtimeIP domainGroup.2⟩, domainGroup.2, rfl,
            mem_cons_self, le_rfl, hcreated, rfl, hraces⟩
        · obtain ⟨u, groups, hw, hmem, hlow, hhigh, hservers⟩ := hrest.handlers w hw
          exact ⟨u, groups, hw, mem_cons_of_mem _ hmem, Nat.le_of_succ_le hlow, hhigh,
            hservers⟩
      · exact (hrest.stopped u hu).imp_right fun hnew => ⟨Nat.le_of_succ_le hnew.1, hnew.2⟩

/-! ## The chain after `updateMux` -/

variable (s : Server) (h : HandlerWithStop)

@[simp] theorem stop_handlerChain :
    (s.stop h).handlerChain = s.handlerChain := by cases h <;> rfl

@[simp] theorem stop_dnsMuxMap :
    (s.stop h).dnsMuxMap = s.dnsMuxMap := by cases h <;> rfl

@[simp] theorem stop_fallbackHandler :
    (s.stop h).fallbackHandler = s.fallbackHandler := by cases h <;> rfl

@[simp] theorem stop_created :
    (s.stop h).created = s.created := by cases h <;> rfl

variable (domains : List Bytes) (handler : Handler)

/-- What `registerHandler` leaves in the chain: its own entries, and the old ones under other
keys. -/
theorem mem_registerHandler (priority : ℤ) (e : HandlerEntry Handler) :
    e ∈ (s.registerHandler domains handler priority).handlerChain.handlers ↔
      (∃ d ∈ domains, d ≠ [] ∧ e = newEntry d handler priority) ∨ (e ∈ s.handlerChain.handlers ∧
          ∀ d ∈ domains, d ≠ [] → e.key ≠ (canonical d, priority)) := by
  show e ∈ (domains.foldl _ s.handlerChain).handlers ↔ _
  generalize s.handlerChain = c
  induction domains generalizing c with
  | nil => simp
  | cons domain domains ih =>
    rw [foldl_cons, ih]
    by_cases hdomain : domain = []
    · simp [hdomain]
    · rw [if_neg hdomain, HandlerChain.mem_addHandler]
      -- an entry of the first domain that a later one replaces is replaced by itself
      have hsame : ∀ d, (newEntry domain handler priority).key = (canonical d, priority) →
          newEntry domain handler priority = newEntry d handler priority := by
        intro d hkey
        have hcanonical : canonical domain = canonical d := (Prod.mk.inj hkey).1
        unfold newEntry
        rw [hcanonical]
      grind

/-- The entries that stay. -/
theorem mem_deregisterHandler (priority : ℤ) (e : HandlerEntry Handler) :
    e ∈ (s.deregisterHandler domains priority).handlerChain.handlers ↔ e ∈ s.handlerChain.handlers ∧
        ∀ d ∈ domains, d ≠ [] → e.key ≠ (canonical d, priority) := by
  show e ∈ (domains.foldl _ s.handlerChain).handlers ↔ _
  generalize s.handlerChain = c
  induction domains generalizing c with
  | nil => simp
  | cons domain domains ih =>
    rw [foldl_cons, ih]
    by_cases hdomain : domain = []
    · simp [hdomain]
    · rw [if_neg hdomain, HandlerChain.mem_removeHandler]
      grind

/-- The entries after a handler is opened. -/
theorem mem_openHandler (w : HandlerWrapper) (e : HandlerEntry Handler) :
    e ∈ (s.openHandler w).handlerChain.handlers ↔ (w.domain ≠ [] ∧ e = w.entry) ∨
        (e ∈ s.handlerChain.handlers ∧ (w.domain ≠ [] → e.key ≠ w.key)) := by
  rw [openHandler, mem_registerHandler]
  simp only [mem_singleton, exists_eq_left, forall_eq]
  rfl

variable (e : HandlerEntry Handler)

/-- The entries after a handler is closed. -/
theorem mem_closeHandler :
    e ∈ (s.closeHandler w).handlerChain.handlers ↔
      e ∈ s.handlerChain.handlers ∧ (w.domain ≠ [] → e.key ≠ w.key) := by
  rw [closeHandler, stop_handlerChain, mem_deregisterHandler]
  simp only [mem_singleton, forall_eq]
  rfl

/-- The map has a wrapper for the pattern and the priority. -/
def MuxKey (key : Bytes × ℤ) : Prop :=
  ∃ id w, get s.dnsMuxMap id = some w ∧ w.domain ≠ [] ∧ w.key = key

/-- The first loop of `updateMux` removes the entries for the wrappers of the map. -/
theorem mem_closeMux :
    e ∈ (s.closeMux ord).handlerChain.handlers ↔
      e ∈ s.handlerChain.handlers ∧ ¬ s.MuxKey e.key := by
  have hloop : ∀ (l : List (Bytes × HandlerWrapper)) (s : Server),
      e ∈ (l.foldl (fun s existing => s.closeHandler existing.2) s).handlerChain.handlers ↔
      e ∈ s.handlerChain.handlers ∧ ∀ x ∈ l, x.2.domain ≠ [] → e.key ≠ x.2.key := by
    intro l
    induction l with
    | nil => simp
    | cons x l ih =>
      intro s
      rw [foldl_cons, ih, mem_closeHandler]
      simp only [mem_cons, forall_eq_or_imp, and_assoc]
  rw [closeMux, hloop]
  refine and_congr_right fun _ => ?_
  constructor
  · rintro h ⟨id, w, hget, hdomain, hkey⟩
    exact h (id, w) (mem_range.mpr hget) hdomain hkey.symm
  · rintro h ⟨id, w⟩ hmem hdomain hkey
    exact h ⟨id, w, mem_range.mp hmem, hdomain, hkey.symm⟩

section openMux

variable {s : Server} {updates : List HandlerWrapper} {e : HandlerEntry Handler}

/-- An entry after the second loop is of the update, or was there and is not replaced. -/
theorem of_mem_openMux (h : e ∈ (s.openMux p updates).handlerChain.handlers) :
    (∃ w ∈ updates, w.domain ≠ [] ∧ e = w.entry) ∨
      (e ∈ s.handlerChain.handlers ∧ ∀ w ∈ updates, w.domain ≠ [] → e.key ≠ w.key) := by
  rw [openMux] at h
  induction updates generalizing s with
  | nil => exact .inr ⟨h, fun w hw => absurd hw not_mem_nil⟩
  | cons w updates ih =>
    rcases ih h with ⟨w', hw', hnew⟩ | ⟨hold, hkeys⟩
    · exact .inl ⟨w', mem_cons_of_mem _ hw', hnew⟩
    · rcases (mem_openHandler s w e).mp hold with hnew | ⟨hold, hkey⟩
      · exact .inl ⟨w, mem_cons_self, hnew⟩
      · exact .inr ⟨hold, forall_mem_cons.mpr ⟨hkey, hkeys⟩⟩

/-- Entries at other places stay. -/
theorem mem_openMux_of_kept (h : e ∈ s.handlerChain.handlers)
    (hkeys : ∀ w ∈ updates, w.domain ≠ [] → e.key ≠ w.key) :
    e ∈ (s.openMux p updates).handlerChain.handlers := by
  rw [openMux]
  induction updates generalizing s with
  | nil => exact h
  | cons w updates ih =>
    rw [forall_mem_cons] at hkeys
    exact ih ((mem_openHandler s w e).mpr (.inr ⟨h, hkeys.1⟩)) hkeys.2

/-- Each wrapper of the update has an entry for its pattern and priority. -/
theorem exists_mem_openMux {w : HandlerWrapper} (hw : w ∈ updates) (hdomain : w.domain ≠ []) :
    ∃ e ∈ (s.openMux p updates).handlerChain.handlers, e.key = w.key := by
  rw [openMux]
  dsimp only
  induction updates using reverseRecOn with
  | nil => cases hw
  | append_singleton us u ih =>
    rw [foldl_concat]
    by_cases hu : u.domain ≠ [] ∧ u.key = w.key
    · exact ⟨u.entry, (mem_openHandler _ u _).mpr (.inl ⟨hu.1, rfl⟩), hu.2⟩
    · -- an entry for the key, once there, can only be replaced by another
      rcases mem_append.mp hw with hw | hw
      · obtain ⟨e, he, hkey⟩ := ih hw
        refine ⟨e, (mem_openHandler _ u e).mpr (.inr ⟨he, fun hne hk => ?_⟩), hkey⟩
        exact hu ⟨hne, hk.symm.trans hkey⟩
      · cases mem_singleton.mp hw
        exact absurd ⟨hdomain, rfl⟩ hu

end openMux

/-! ## Calls that are not updates -/

/-- The server with a new fallback handler. -/
def addFallback (handler : Upstream) : Server :=
  { s with created := s.created + 1, fallbackHandler := some handler }.registerHandler [rootZone]
    (.withStop (.upstream handler)) priorityFallback

/-- The fallback is cleared or replaced. -/
theorem registerFallback_cases (nameservers : List Addr) :
    s.registerFallback nameservers = s.clearFallback ∨ ∃ servers, s.registerFallback nameservers =
        match s.fallbackHandler with
        | none => s.addFallback ⟨s.created, rootZone, servers⟩
        | some prev => (s.addFallback ⟨s.created, rootZone, servers⟩).stop (.upstream prev) := by
  unfold registerFallback
  generalize (if s.noopHostManager then [] else nameservers) = originalNameservers
  by_cases hnone : originalNameservers = []
  · left
    rw [if_pos hnone]
  · right
    rw [if_neg hnone]
    exact ⟨_, rfl⟩

/-- The priorities of the handlers that updates build. -/
def managed (priority : ℤ) : Bool :=
  priority = priorityLocal || priority = priorityUpstream || priority = priorityDefault

/-- A call leaves the handlers of the updates as they are. -/
structure KeepsMux (s s' : Server) : Prop where
  entries : ∀ e : HandlerEntry Handler, managed e.priority = true →
    (e ∈ s'.handlerChain.handlers ↔ e ∈ s.handlerChain.handlers)
  dnsMuxMap : s'.dnsMuxMap = s.dnsMuxMap
  localResolver : s'.localResolver = s.localResolver
  created : s.created ≤ s'.created

namespace KeepsMux

variable {s s' s'' : Server}

theorem refl (s : Server) : KeepsMux s s := ⟨fun _ _ => Iff.rfl, rfl, rfl, le_rfl⟩

theorem trans (h : KeepsMux s s') (h' : KeepsMux s' s'') : KeepsMux s s'' where
  entries e he := (h'.entries e he).trans (h.entries e he)
  dnsMuxMap := h'.dnsMuxMap.trans h.dnsMuxMap
  localResolver := h'.localResolver.trans h.localResolver
  created := h.created.trans h'.created

theorem registerHandler {priority : ℤ}
    (hpriority : managed priority = false) : KeepsMux s (s.registerHandler domains handler priority)
    where
  entries e he := by
    have hne : e.priority ≠ priority := by
      rintro rfl
      rw [hpriority] at he
      cases he
    rw [mem_registerHandler]
    constructor
    · rintro (⟨d, -, -, rfl⟩ | ⟨hold, -⟩)
      · exact absurd rfl hne
      · exact hold
    · intro hold
      exact .inr ⟨hold, fun d _ _ hkey => hne (Prod.mk.inj hkey).2⟩
  dnsMuxMap := rfl
  localResolver := rfl
  created := le_rfl

theorem deregisterHandler {priority : ℤ}
    (hpriority : managed priority = false) : KeepsMux s (s.deregisterHandler domains priority) where
  entries e he := by
    have hne : e.priority ≠ priority := by
      rintro rfl
      rw [hpriority] at he
      cases he
    rw [mem_deregisterHandler]
    exact and_iff_left fun d _ _ hkey => hne (Prod.mk.inj hkey).2
  dnsMuxMap := rfl
  localResolver := rfl
  created := le_rfl

theorem stop (u : Upstream) : KeepsMux s (s.stop (.upstream u)) :=
  ⟨fun _ _ => Iff.rfl, rfl, rfl, le_rfl⟩

theorem clearFallback (s : Server) : KeepsMux s s.clearFallback := by
  have hremoved : KeepsMux s (s.deregisterHandler [rootZone] priorityFallback) :=
    deregisterHandler _ (by decide)
  unfold Server.clearFallback
  dsimp only
  split
  · exact hremoved
  next handler _ =>
    have hstop := hremoved.trans (stop handler)
    exact ⟨hstop.entries, hstop.dnsMuxMap, hstop.localResolver, hstop.created⟩

theorem addFallback (s : Server) (handler : Upstream) : KeepsMux s (s.addFallback handler) := by
  have hmade : KeepsMux s { s with created := s.created + 1, fallbackHandler := some handler } :=
    ⟨fun _ _ => Iff.rfl, rfl, rfl, Nat.le_succ _⟩
  exact hmade.trans (registerHandler [rootZone] (.withStop (.upstream handler)) (by decide))

theorem registerFallback (s : Server) (nameservers : List Addr) :
    KeepsMux s (s.registerFallback nameservers) := by
  rcases s.registerFallback_cases nameservers with h | ⟨servers, h⟩
  · rw [h]
    exact clearFallback s
  · rw [h]
    have hadded := addFallback s ⟨s.created, rootZone, servers⟩
    split
    · exact hadded
    · exact hadded.trans (stop _)

theorem applyHostConfig (s : Server) (applied : Option (List Addr)) :
    KeepsMux s (s.applyHostConfig applied) := by
  cases applied with
  | none => exact refl s
  | some nameservers => exact registerFallback s nameservers

theorem switchDNS (s : Server) (initialized serviceEnable : Bool) :
    KeepsMux s (s.switchDNS initialized serviceEnable) := by
  unfold Server.switchDNS Server.enableDNS Server.disableDNS
  split_ifs
  · exact ⟨fun _ _ => Iff.rfl, rfl, rfl, le_rfl⟩
  · exact refl s
  · exact refl s
  · exact { clearFallback s with }
  · exact ⟨fun _ _ => Iff.rfl, rfl, rfl, le_rfl⟩
  · exact refl s

end KeepsMux

end Server

/-- The update of a call that `applyConfiguration` accepts. -/
def Event.accepted : Event → Option (UpdateEnv × DNSConfig)
  | .applyConfiguration env update =>
    if checkNameServerGroups update.nameServerGroups = none then some (env, update) else none
  | _ => none

/-- Every other call keeps the handlers of the updates. -/
theorem Server.keepsMux_step (s : Server) {e : Event} (h : e.accepted = none) :
    KeepsMux s (s.step p e) := by
  cases e with
  | applyConfiguration env update =>
    have herr : checkNameServerGroups update.nameServerGroups ≠ none := by
      intro hnone
      rw [Event.accepted, if_pos hnone] at h
      cases h
    obtain ⟨err, herr⟩ := ne_none_iff_exists'.mp herr
    have hstep : s.step p (.applyConfiguration env update) =
        s.switchDNS env.initialized update.serviceEnable := by
      rw [step, applyConfiguration]
      rw [herr]
    rw [hstep]
    exact KeepsMux.switchDNS _ _ _
  | registerHandler domains route applied =>
    exact (KeepsMux.registerHandler domains (.route route) (by decide)).trans
      (KeepsMux.applyHostConfig _ applied)
  | deregisterHandler domains applied =>
    exact (KeepsMux.deregisterHandler domains (by decide)).trans
      (KeepsMux.applyHostConfig _ applied)
  | updateServerConfig removedDomains newDomains =>
    exact (KeepsMux.deregisterHandler removedDomains (by decide)).trans
      (KeepsMux.registerHandler newDomains .mgmtCache (by decide))
  | onUpdatedHostDNSServer nameservers => exact KeepsMux.registerFallback s nameservers
  | initializeServer initialized nameservers =>
    show KeepsMux s (s.initializeServer initialized nameservers)
    unfold initializeServer
    dsimp only
    split
    · exact KeepsMux.refl s
    · have hset : KeepsMux s { s with noopHostManager := false } :=
        ⟨fun _ _ => Iff.rfl, rfl, rfl, le_rfl⟩
      split
      · exact hset.trans (KeepsMux.registerFallback _ nameservers)
      · exact hset

/-! ## One update -/

/-- An entry was built from an update: the local resolver, or one that the update made for the
domain, with the usable nameservers of all groups for it. -/
inductive BuiltFrom (update : UpdateEnv × DNSConfig) (created : ℕ) :
    HandlerEntry Handler → Prop
  | localResolver {e : HandlerEntry Handler} (hhandler : e.handler = .withStop .localResolver)
      (hpriority : e.priority = priorityLocal) : BuiltFrom update created e
  | upstream {e : HandlerEntry Handler} {u : Upstream}
      (hhandler : e.handler = .withStop (.upstream u)) (hnew : created ≤ u.ref)
      (hkey : e.key = (canonical u.domain, domainPriority u.domain))
      (hservers : u.upstreamServers =
        races update.1.runtimeIP (groupsFor update.2.nameServerGroups u.domain)) :
      BuiltFrom update created e

/-- A later number is one of an earlier start. -/
theorem BuiltFrom.mono {created created' : ℕ} {e : HandlerEntry Handler}
    (h : BuiltFrom update created' e) (hle : created ≤ created') : BuiltFrom update created e := by
  cases h with
  | localResolver hhandler hpriority => exact .localResolver hhandler hpriority
  | upstream hhandler hnew hkey hservers =>
    exact .upstream hhandler (hle.trans hnew) hkey hservers

/-- Some zone of an update has records. -/
def HasZones (update : UpdateEnv × DNSConfig) : Prop :=
  ∃ zone ∈ update.2.customZones, zone.records ≠ []

/-- The map has the wrapper of the local resolver. -/
def Server.HoldsLocal (s : Server) : Prop :=
  ∃ id w, get s.dnsMuxMap id = some w ∧ w.handler = .localResolver

/-- What an update does to the handlers of updates. -/
structure Updated (p : Platform) (update : UpdateEnv × DNSConfig) (s s' : Server) : Prop where
  entry : ∀ e ∈ s'.handlerChain.handlers, managed e.priority = true →
    (BuiltFrom update s.created e ∧ Asks (plan p update) e.key) ∨
      (e ∈ s.handlerChain.handlers ∧ ¬ s.MuxKey e.key ∧ ¬ Asks (plan p update) e.key)
  registered : ∀ key, Asks (plan p update) key → ∃ e ∈ s'.handlerChain.handlers, e.key = key
  kept : ∀ e ∈ s.handlerChain.handlers, managed e.priority = true →
    ¬ s.MuxKey e.key → ¬ Asks (plan p update) e.key → e ∈ s'.handlerChain.handlers
  mux : ∀ key, s'.MuxKey key ↔ Asks (held (plan p update)) key
  cancelled : s'.localResolver.cancelled = true ↔
    s.localResolver.cancelled = true ∨ s.HoldsLocal
  holdsLocal : s'.HoldsLocal ↔ HasZones update

/-- A plan asks for managed priorities only. -/
theorem managed_of_asks (h : Asks (plan p update) key) : managed key.2 := by
  cases asks_plan_iff.mp h with
  | zone hmem hrecords hdomain => exact rfl
  | nameServers hmem htarget husable =>
    unfold domainPriority
    split <;> rfl

variable {s s' : Server}

namespace Server

variable {s : Server} {updates : List HandlerWrapper}

/-- The map keeps of the wrappers what `held` keeps of their registrations. -/
theorem muxKey_openMux_iff {key : Bytes × ℤ} : (s.openMux p updates).MuxKey key ↔
      Asks (held (updates.map (registration p))) key := by
  have hheld : held (updates.map (registration p)) =
      (build (fun w : HandlerWrapper => w.handler.id p) id updates).map
        fun e => e.2.registration p := by
    have hmap := build_map (registration p)
      (fun w : HandlerWrapper => w.handler.id p) id updates
    rw [held, build, foldl_map]
    show (build (fun w : HandlerWrapper => w.handler.id p)
      (fun w => (id w : HandlerWrapper).registration p) updates).map Prod.snd = _
    rw [hmap, mapValues, List.map_map]
    rfl
  rw [hheld]
  have hnodup := nodup_keys_build (fun w : HandlerWrapper => w.handler.id p) id updates
  constructor
  · rintro ⟨id, w, hget, hdomain, hkey⟩
    exact ⟨_, mem_map.mpr ⟨(id, w), mem_of_get hget, rfl⟩, hdomain, hkey⟩
  · rintro ⟨r, hr, hdomain, hkey⟩
    obtain ⟨⟨id, w⟩, hmem, rfl⟩ := mem_map.mp hr
    exact ⟨id, w, get_of_mem hnodup hmem, hdomain, hkey⟩

theorem localResolver_openMux : (s.openMux p updates).localResolver = s.localResolver := by
  rw [openMux]
  induction updates generalizing s with
  | nil => rfl
  | cons w updates ih =>
    rw [foldl_cons, ih]
    rfl

/-- The local resolver is held if it is among the handlers. -/
theorem holdsLocal_openMux_iff :
    (s.openMux p updates).HoldsLocal ↔ ∃ w ∈ updates, w.handler = .localResolver := by
  -- no upstream resolver has the id of the local one
  have hid : ∀ w : HandlerWrapper, w.handler.id p = HandlerWithStop.id p .localResolver →
      w.handler = .localResolver := by
    intro w hw
    cases hhandler : w.handler with
    | localResolver => rfl
    | upstream u =>
      rw [hhandler] at hw
      have hhead := congrArg head? hw
      cases hhead
  constructor
  · rintro ⟨id, w, hget, hhandler⟩
    obtain ⟨w', hmem, -, rfl⟩ := exists_of_get_build hget
    exact ⟨w', hmem, hhandler⟩
  · rintro ⟨w, hmem, hhandler⟩
    obtain ⟨w', hget⟩ := exists_get_build (fun w : HandlerWrapper => w.handler.id p) id hmem
    rw [hhandler] at hget
    obtain ⟨w'', -, hwid, rfl⟩ := exists_of_get_build hget
    exact ⟨_, _, hget, hid _ hwid⟩

/-- The local resolver is cancelled if it was held. -/
theorem cancelled_closeMux :
    (s.closeMux ord).localResolver.cancelled ↔ s.localResolver.cancelled ∨ s.HoldsLocal := by
  have hloop : ∀ (l : List (Bytes × HandlerWrapper)) (s : Server),
      (l.foldl (fun s existing => s.closeHandler existing.2) s).localResolver.cancelled = true ↔
      s.localResolver.cancelled ∨ ∃ x ∈ l, x.2.handler = .localResolver := by
    intro l
    induction l with
    | nil => simp
    | cons x l ih =>
      intro s
      rw [foldl_cons, ih]
      cases hhandler : x.2.handler with
      | localResolver => simp [closeHandler, stop, Resolver.stop, hhandler]
      | upstream u => simp [closeHandler, stop, deregisterHandler, hhandler]
  rw [closeMux, hloop]
  simp only [HoldsLocal, Prod.exists, mem_range]

/-- The registered places stay. -/
theorem KeepsMux.muxKey_iff (h : KeepsMux s s') (key : Bytes × ℤ) :
    s'.MuxKey key ↔ s.MuxKey key := by
  rw [MuxKey, MuxKey, h.dnsMuxMap]

/-- The local resolver is held as before. -/
theorem KeepsMux.holdsLocal_iff (h : KeepsMux s s') :
    s'.HoldsLocal ↔ s.HoldsLocal := by
  rw [HoldsLocal, HoldsLocal, h.dnsMuxMap]

/-- Building handlers registers none. -/
theorem keepsMux_buildUpdates (s : Server) (env : UpdateEnv) (update : DNSConfig) :
    KeepsMux s (s.buildUpdates env update).2 := by
  have hbuilt := built env.runtimeIP
    (groupNSGroupsByDomain env.groupOrder update.nameServerGroups) s
  have hrest := hbuilt.rest
  refine ⟨fun e _ => ?_, ?_, ?_, hbuilt.created⟩
  · show e ∈ (buildHandlers _ _ s).2.handlerChain.handlers ↔ _
    rw [hrest]
  · show (buildHandlers _ _ s).2.dnsMuxMap = _
    rw [hrest]
  · show (buildHandlers _ _ s).2.localResolver = _
    rw [hrest]

variable {env : UpdateEnv} {update : DNSConfig}

/-- The entries of an update are built from it. -/
theorem builtFrom_entry {w : HandlerWrapper}
    (h : w ∈ (s.buildUpdates env update).1) : BuiltFrom (env, update) s.created w.entry := by
  rcases mem_append.mp h with h | h
  · obtain ⟨zone, -, rfl⟩ := mem_map.mp h
    exact .localResolver rfl rfl
  · have hbuilt := built env.runtimeIP
      (groupNSGroupsByDomain env.groupOrder update.nameServerGroups) s
    obtain ⟨u, groups, rfl, hmem, hnew, -, hservers, -⟩ := hbuilt.handlers w h
    rw [mem_groupNSGroupsByDomain hmem] at hservers
    exact .upstream rfl hnew rfl hservers

/-- The local resolver is among the handlers if there are zones. -/
theorem exists_localResolver_iff :
    (∃ w ∈ (s.buildUpdates env update).1, w.handler = .localResolver) ↔ HasZones (env, update) := by
  constructor
  · rintro ⟨w, hw, hhandler⟩
    rcases mem_append.mp hw with h | h
    · obtain ⟨zone, hzone, rfl⟩ := mem_map.mp h
      rw [mem_filter, decide_eq_true_eq] at hzone
      exact ⟨zone, hzone⟩
    · have hbuilt := built env.runtimeIP
        (groupNSGroupsByDomain env.groupOrder update.nameServerGroups) s
      obtain ⟨u, groups, rfl, -⟩ := hbuilt.handlers w h
      cases hhandler
  · rintro ⟨zone, hmem, hrecords⟩
    refine ⟨⟨zone.domain, .localResolver, priorityLocal⟩, ?_, rfl⟩
    refine mem_append_left _ (mem_map.mpr ⟨zone, ?_, rfl⟩)
    rw [mem_filter, decide_eq_true_eq]
    exact ⟨hmem, hrecords⟩

/-- **What an accepted update does.** -/
theorem updated (s : Server) (env : UpdateEnv) (update : DNSConfig)
    (haccepted : checkNameServerGroups update.nameServerGroups = none) :
    Updated p (env, update) s (s.applyConfiguration p env update).1 := by
  have hswitched := KeepsMux.switchDNS s env.initialized update.serviceEnable
  rw [applyConfiguration, haccepted]
  dsimp only
  generalize s.switchDNS env.initialized update.serviceEnable = s₀ at hswitched ⊢
  have hbefore := hswitched.trans (keepsMux_buildUpdates s₀ env update)
  have hplan : (s₀.buildUpdates env update).1.map (registration p) = plan p (env, update) := by
    rw [buildUpdates, map_append, registrations_buildHandlers, plan, localPlan,
      buildLocalHandlerUpdate, List.map_map]
    rfl
  have hentry : ∀ w ∈ (s₀.buildUpdates env update).1, BuiltFrom (env, update) s.created w.entry :=
    fun w hw => (builtFrom_entry hw).mono hswitched.created
  have hzones := @exists_localResolver_iff s₀ env update
  generalize s₀.buildUpdates env update = built at hbefore hplan hentry hzones ⊢
  generalize map (registeredZone p) _ = zones
  obtain ⟨us, s₁⟩ := built
  dsimp only at hbefore hplan hentry hzones ⊢
  generalize hs₂ : updateMux p s₁ env.muxOrder us = s₂
  rw [eq_comm, updateMux] at hs₂
  have hafter := KeepsMux.applyHostConfig
    { s₂ with localResolver := s₂.localResolver.update zones } env.applied
  have hasks : ∀ key, Asks (plan p (env, update)) key ↔ ∃ w ∈ us, w.domain ≠ [] ∧ w.key = key := by
    intro key
    rw [← hplan]
    simp only [Asks, List.mem_map, exists_exists_and_eq_and, key_registration]
    rfl
  constructor
  · intro e he hmanaged
    rw [hafter.entries e hmanaged] at he
    replace he : e ∈ s₂.handlerChain.handlers := he
    rw [hs₂] at he
    rcases of_mem_openMux he with ⟨w, hw, hdomain, rfl⟩ | ⟨hold, hkeys⟩
    · left
      constructor
      · exact hentry w hw
      · exact (hasks _).mpr ⟨w, hw, hdomain, rfl⟩
    · right
      rw [mem_closeMux, hbefore.entries e hmanaged, hbefore.muxKey_iff] at hold
      refine ⟨hold.1, hold.2, fun h => ?_⟩
      obtain ⟨w, hw, hdomain, hkey⟩ := (hasks _).mp h
      exact hkeys w hw hdomain hkey.symm
  · intro key hkey
    have hmanaged := managed_of_asks hkey
    obtain ⟨w, hw, hdomain, rfl⟩ := (hasks key).mp hkey
    obtain ⟨e, he, hekey⟩ := @exists_mem_openMux p (s₁.closeMux env.muxOrder) us w hw hdomain
    rw [← hs₂] at he
    refine ⟨e, (hafter.entries e ?_).mpr he, hekey⟩
    rw [← hekey] at hmanaged
    exact hmanaged
  · intro e he hmanaged hmux hnot
    refine (hafter.entries e hmanaged).mpr ?_
    show e ∈ s₂.handlerChain.handlers
    rw [hs₂]
    apply mem_openMux_of_kept
    · rw [mem_closeMux, hbefore.entries e hmanaged, hbefore.muxKey_iff]
      exact ⟨he, hmux⟩
    · intro w hw hdomain hkey
      exact hnot ((hasks _).mpr ⟨w, hw, hdomain, hkey.symm⟩)
  · intro key
    rw [hafter.muxKey_iff, ← hplan]
    show s₂.MuxKey key ↔ _
    rw [hs₂]
    exact muxKey_openMux_iff
  · rw [hafter.localResolver]
    rw [Resolver.update_cancelled, hs₂, localResolver_openMux, cancelled_closeMux,
      hbefore.localResolver, hbefore.holdsLocal_iff]
  · rw [hafter.holdsLocal_iff]
    show s₂.HoldsLocal ↔ _
    rw [hs₂, holdsLocal_openMux_iff, hzones]

end Server

/-! ## Histories -/

/-- `newDefaultServer`. -/
def newServer (permanent : Bool) : Server := { permanent := permanent }

/-- The accepted updates of a history. -/
def updates (es : List Event) : List (UpdateEnv × DNSConfig) := es.filterMap Event.accepted

/-- The updates of a run, up to the last event. -/
theorem updates_concat (es : List Event) (e : Event) :
    updates (es ++ [e]) = updates es ++ e.accepted.toList := by
  rw [updates, filterMap_append, updates]
  cases h : e.accepted with
  | none => simp [h]
  | some update => simp [h]

/-- The last event of a run. -/
theorem Server.run_concat (s : Server) (es : List Event) (e : Event) :
    s.run p (es ++ [e]) = (s.run p es).step p e := foldl_concat ..

/-- What an accepted update does. -/
theorem Server.updated_step (s : Server) {e : Event} (h : e.accepted = some update) :
    Updated p update s (s.step p e) := by
  cases e with
  | applyConfiguration env config =>
    rw [Event.accepted] at h
    split at h
    next haccepted =>
      cases h
      exact updated s env config haccepted
    · cases h
  | _ => cases h

variable (permanent : Bool)

/-- The map has what the last update left in it. -/
theorem muxKey_run_iff (es : List Event) (key : Bytes × ℤ) :
    ((newServer permanent).run p es).MuxKey key ↔
      ∃ A ∈ (updates es).getLast?, Asks (held (plan p A)) key := by
  induction es using reverseRecOn with
  | nil => simp [run, newServer, updates, MuxKey, get]
  | append_singleton es e ih =>
    rw [run_concat, updates_concat]
    cases haccepted : e.accepted with
    | none =>
      rw [(keepsMux_step _ haccepted).muxKey_iff, ih, toList_none, append_nil]
    | some update =>
      rw [(updated_step _ haccepted).mux]
      simp

/-- Each accepted update of a history has a property, as it takes the server from one state to the
next. -/
def AfterEach (P : UpdateEnv × DNSConfig → Server → Server → Prop) (p : Platform)
    (permanent : Bool) (es : List Event) : Prop :=
  ∀ pre e update, pre ++ [e] <+: es → e.accepted = some update →
    P update ((newServer permanent).run p pre) ((newServer permanent).run p (pre ++ [e]))

/-- A property after each update, up to the last event. -/
theorem afterEach_concat_iff {P : UpdateEnv × DNSConfig → Server → Server → Prop}
    {es : List Event} {e : Event} :
    AfterEach P p permanent (es ++ [e]) ↔ AfterEach P p permanent es ∧
      ∀ update, e.accepted = some update →
        P update ((newServer permanent).run p es) ((newServer permanent).run p (es ++ [e])) := by
  constructor
  · intro h
    refine ⟨fun pre e' update hpre => h pre e' update ?_, fun update => h es e update ?_⟩
    · exact prefix_concat_iff.mpr (.inr hpre)
    · exact prefix_rfl
  · rintro ⟨hold, hlast⟩ pre e' update hpre haccepted
    rcases prefix_concat_iff.mp hpre with heq | hpre
    · obtain ⟨rfl, he⟩ := append_inj' heq rfl
      cases he
      exact hlast update haccepted
    · exact hold pre e' update hpre haccepted

theorem afterEach_nil (P : UpdateEnv × DNSConfig → Server → Server → Prop) :
    AfterEach P p permanent [] := by
  intro pre e update hpre
  simp at hpre

/-! ## The chain follows the updates -/

/-- **The chain after an update is that of the update**: at its priorities it has one entry for each
pattern and priority that the configuration asks for, built by this update. -/
structure Converged (update : UpdateEnv × DNSConfig) (s s' : Server) : Prop where
  unique : ((s'.handlerChain.handlers.filter fun e => managed e.priority).map
    HandlerEntry.key).Nodup
  exact : ∀ key : Bytes × ℤ, managed key.2 = true →
    ((∃ e ∈ s'.handlerChain.handlers, e.key = key) ↔ Configured update key)
  built : ∀ e ∈ s'.handlerChain.handlers, managed e.priority = true →
    BuiltFrom update s.created e

/-- An update is followed if all that was there is removed by the map or replaced. -/
theorem Updated.converged_iff (h : Updated p update s s') : Converged update s s' ↔
      ∀ e ∈ s.handlerChain.handlers, managed e.priority →
        s.MuxKey e.key ∨ Asks (plan p update) e.key := by
  constructor
  · intro hconv e he hmanaged
    by_contra hnot
    rw [not_or] at hnot
    have hkept := h.kept e he hmanaged hnot.1 hnot.2
    exact hnot.2 (asks_plan_iff.mpr ((hconv.exact e.key hmanaged).mp ⟨e, hkept, rfl⟩))
  · intro hall
    have hnew : ∀ e ∈ s'.handlerChain.handlers, managed e.priority →
        BuiltFrom update s.created e ∧ Asks (plan p update) e.key := by
      intro e he hmanaged
      rcases h.entry e he hmanaged with hbuilt | ⟨hold, hmux, hasks⟩
      · exact hbuilt
      · exact absurd (hall e hold hmanaged) (not_or.mpr ⟨hmux, hasks⟩)
    refine ⟨?_, fun key hmanaged => ⟨?_, fun hconf => ?_⟩, fun e he hm => (hnew e he hm).1⟩
    · exact s'.handlerChain.nodup.sublist (filter_sublist.map _)
    · rintro ⟨e, he, rfl⟩
      exact asks_plan_iff.mp (hnew e he hmanaged).2
    · exact h.registered key (asks_plan_iff.mpr hconf)

/-- All that one update registers is kept by the map or registered again by the next one. -/
def NoneLeft (p : Platform) (A B : UpdateEnv × DNSConfig) : Prop :=
  ∀ key, Asks (plan p A) key →
    Asks (held (plan p A)) key ∨ Asks (plan p B) key

/-- As long as the updates are followed, the chain has what the last one asks for. -/
theorem entries_of_converges {es : List Event} (h : AfterEach Converged p permanent es)
    (hmanaged : managed key.2) :
    (∃ e ∈ ((newServer permanent).run p es).handlerChain.handlers, e.key = key) ↔
      ∃ A ∈ (updates es).getLast?, Configured A key := by
  induction es using reverseRecOn with
  | nil => simp [run, newServer, newHandlerChain, updates]
  | append_singleton es e ih =>
    obtain ⟨hold, hlast⟩ := (afterEach_concat_iff permanent).mp h
    rw [updates_concat]
    cases haccepted : e.accepted with
    | none =>
      have hkeeps := @keepsMux_step p ((newServer permanent).run p es) e haccepted
      rw [toList_none, append_nil, ← ih hold, run_concat]
      refine exists_congr fun x => and_congr_left fun hkey => ?_
      rw [← hkey] at hmanaged
      exact hkeeps.entries x hmanaged
    | some update =>
      rw [(hlast update haccepted).exact key hmanaged]
      simp

/-- **When the chain follows the updates**: if and only if, of any two accepted updates in a row,
all that the first registers is kept by the map of handlers or registered again by the second. -/
theorem converges_iff (p : Platform) (permanent : Bool) (es : List Event) :
    AfterEach Converged p permanent es ↔ (updates es).IsChain (NoneLeft p) := by
  induction es using reverseRecOn with
  | nil =>
    exact iff_of_true (afterEach_nil permanent Converged) isChain_nil
  | append_singleton es e ih =>
    rw [afterEach_concat_iff, updates_concat, isChain_append, ← ih]
    refine and_congr_right fun hold => ?_
    cases haccepted : e.accepted with
    | none => simp
    | some B =>
      have hupdated := updated_step (p := p) ((newServer permanent).run p es) haccepted
      simp only [Option.some.injEq, forall_eq', toList_some, isChain_singleton,
        true_and, head?_cons, mem_some_iff, run_concat]
      rw [hupdated.converged_iff]
      constructor
      · intro hall A hA key hasks
        obtain ⟨x, hx, rfl⟩ := (entries_of_converges permanent hold (managed_of_asks hasks)).mpr
          ⟨A, hA, asks_plan_iff.mp hasks⟩
        refine (hall x hx (managed_of_asks hasks)).imp_left fun hmux => ?_
        obtain ⟨A', hA', hheld⟩ := (muxKey_run_iff permanent es x.key).mp hmux
        cases mem_unique hA hA'
        exact hheld
      · intro hnone x hx hmanaged
        obtain ⟨A, hA, hconf⟩ := (entries_of_converges permanent hold hmanaged).mp ⟨x, hx, rfl⟩
        refine (hnone A hA x.key (asks_plan_iff.mpr hconf)).imp_left fun hheld => ?_
        exact (muxKey_run_iff permanent es x.key).mpr ⟨A, hA, hheld⟩

/-- A zone with one record. -/
def oneRecordZone (domain : Bytes) : CustomZone :=
  { domain, records := [⟨domain, 1, ascii "IN", 300, ascii "100.64.0.1"⟩] }

/-- Two zones come, and then none: the handler for the first zone is left behind. -/
theorem first_zone_left_behind : ¬ AfterEach Converged ⟨id, fun _ => none⟩ false
      [.applyConfiguration {}
        { customZones := [oneRecordZone (ascii "a.example"), oneRecordZone (ascii "b.example")] },
      .applyConfiguration {} {}] := by
  intro h
  have hlast := h [.applyConfiguration {}
    { customZones := [oneRecordZone (ascii "a.example"), oneRecordZone (ascii "b.example")] }]
    (.applyConfiguration {} {}) ({}, {}) prefix_rfl rfl
  have hconf := (hlast.exact (ascii "a.example.", priorityLocal) (by decide)).mp (by decide)
  have hasks := (asks_plan_iff (p := ⟨id, fun _ => none⟩)).mpr hconf
  exact absurd hasks (by decide)

end DNS
