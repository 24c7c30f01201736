/-
# Registered handlers of the DNS server that are stopped

Upstream resolvers are made anew by each update, so none of those in the chain is stopped
(`Sound`).  The local resolver is one object for all updates.  The first update after one with zones
cancels its context for good, and from then on it cannot follow a CNAME out of the managed zones.
-/
import AnonBird.DNSUpdates

open GoStrings NetIP DNSNames List Option
open Management (DNSConfig NameServerGroup NameServer CustomZone SimpleRecord)
open GoMap hiding get set

namespace DNS

open Server

variable {p : Platform} {α : Type}

namespace Server

/-- The context of a handler is cancelled.  The server does not stop the handlers of routes and of
the management cache. -/
def Stopped (s : Server) : Handler → Prop
  | .withStop .localResolver => s.localResolver.cancelled = true
  | .withStop (.upstream u) => u ∈ s.stopped
  | .mgmtCache => False
  | .route _ => False

/-- The key under which an upstream resolver of an update is registered. -/
def upstreamKey (u : Upstream) : Bytes × ℤ := (canonical u.domain, domainPriority u.domain)

/-- The key of the fallback handler. -/
def fallbackKey : Bytes × ℤ := (canonical rootZone, priorityFallback)

/-- No upstream resolver of the chain is stopped, and those that a call may stop are registered
under the key that the call removes. -/
structure Sound (s : Server) : Prop where
  stopped : ∀ u ∈ s.stopped, u.ref < s.created
  fallback : ∀ u, s.fallbackHandler = some u → u.ref < s.created
  wrapper : ∀ id w u, get s.dnsMuxMap id = some w → w.handler = .upstream u →
    u.ref < s.created ∧ s.fallbackHandler ≠ some u ∧ w.domain ≠ [] ∧ w.key = upstreamKey u
  upstream : ∀ e ∈ s.handlerChain.handlers, ∀ u, e.handler = .withStop (.upstream u) →
    u.ref < s.created ∧ u ∉ s.stopped ∧
      (s.fallbackHandler = some u → e.key = fallbackKey) ∧
      (s.fallbackHandler ≠ some u → e.key = upstreamKey u)
  localResolver : ∀ e ∈ s.handlerChain.handlers,
    (e.handler = .withStop .localResolver ↔ e.priority = priorityLocal)

/-- The second loop of `updateMux` changes the chain only. -/
theorem openMux_eq (s : Server) (updates : List HandlerWrapper) : s.openMux p updates = { s with
        handlerChain := (s.openMux p updates).handlerChain
        dnsMuxMap := build (fun w => w.handler.id p) id updates } := by
  have hloop : ∀ (us : List HandlerWrapper) (s : Server), us.foldl openHandler s =
        { s with handlerChain := (us.foldl openHandler s).handlerChain } := by
    intro us
    induction us with
    | nil => exact fun s => rfl
    | cons w us ih => exact fun s => ih _
  rw [openMux]
  rw [hloop]

variable {s : Server} {u : Upstream}

/-- What the first loop of `updateMux` stops. -/
theorem mem_stopped_closeMux {ord : RangeOrder Bytes} (h : u ∈ (s.closeMux ord).stopped) :
    u ∈ s.stopped ∨ ∃ id w, get s.dnsMuxMap id = some w ∧ w.handler = .upstream u := by
  refine foldlRecOn (motive := fun s' : Server => u ∈ s'.stopped → u ∈ s.stopped ∨
    ∃ id w, get s.dnsMuxMap id = some w ∧ w.handler = .upstream u) (range ord s.dnsMuxMap) _ .inl
    ?_ h
  intro s' ih x hx hmem
  dsimp only [closeHandler] at hmem
  cases hhandler : x.2.handler with
  | localResolver =>
    rw [hhandler] at hmem
    exact ih hmem
  | upstream u' =>
    rw [hhandler] at hmem
    rcases mem_cons.mp hmem with rfl | hmem
    · exact .inr ⟨x.1, x.2, mem_range.mp hx, hhandler⟩
    · exact ih hmem

@[simp] theorem closeHandler_dnsMuxMap (s : Server) (w : HandlerWrapper) :
    (s.closeHandler w).dnsMuxMap = s.dnsMuxMap := by
  rw [closeHandler, stop_dnsMuxMap]
  rfl

/-- A field that stopping and removing handlers leave alone. -/
theorem closeMux_field (f : Server → α)
    (hf : ∀ (s : Server) (w : HandlerWrapper), f (s.closeHandler w) = f s)
    (s : Server) (ord : RangeOrder Bytes) : f (s.closeMux ord) = f s := by
  rw [closeMux]
  generalize range ord s.dnsMuxMap = l
  induction l generalizing s with
  | nil => rfl
  | cons x l ih => rw [foldl_cons, ih, hf]

theorem domainPriority_ne_local (domain : Bytes) : domainPriority domain ≠ priorityLocal := by
  unfold domainPriority
  split <;> decide

namespace Sound

variable {s s' : Server}

/-- A new server is sound. -/
theorem newServer (permanent : Bool) : Sound (newServer permanent) where
  stopped u hu := by cases hu
  fallback u hu := by cases hu
  wrapper id w u hget := by cases hget
  upstream e he := by cases he
  localResolver e he := by cases he

variable (h : Sound s)

include h

/-- Entries may leave the chain. -/
theorem of_subset {c : HandlerChain Handler}
    (hc : ∀ e ∈ c.handlers, e ∈ s.handlerChain.handlers) : Sound { s with handlerChain := c } :=
  { h with
    upstream := fun e he => h.upstream e (hc e he)
    localResolver := fun e he => h.localResolver e (hc e he) }

variable (domains : List Bytes)

theorem deregisterHandler (priority : ℤ) :
    Sound (s.deregisterHandler domains priority) := by
  exact h.of_subset fun e he => ((mem_deregisterHandler s domains priority e).mp he).1

/-- Handlers that are not stopped may be added. -/
theorem registerHandler {handler : Handler} {priority : ℤ}
    (hhandler : ∀ k, handler ≠ .withStop k) (hpriority : priority ≠ priorityLocal) :
    Sound (s.registerHandler domains handler priority) := by
  have hnew : ∀ e ∈ (s.registerHandler domains handler priority).handlerChain.handlers,
      e ∈ s.handlerChain.handlers ∨ (e.handler = handler ∧ e.priority = priority) := by
    intro e he
    rcases (mem_registerHandler s domains handler priority e).mp he with ⟨d, -, -, rfl⟩ | hold
    · exact .inr ⟨rfl, rfl⟩
    · exact .inl hold.1
  refine { h with upstream := fun e he u hu => ?_, localResolver := fun e he => ?_ }
  · rcases hnew e he with hold | ⟨hsame, -⟩
    · exact h.upstream e hold u hu
    · exact absurd (hsame.symm.trans hu) (hhandler _)
  · rcases hnew e he with hold | ⟨hsame, hprio⟩
    · exact h.localResolver e hold
    · rw [hsame, hprio]
      exact iff_of_false (hhandler _) hpriority

theorem clearFallback : Sound s.clearFallback := by
  have hremoved := h.deregisterHandler [rootZone] priorityFallback
  have hkey : ∀ e ∈ (s.deregisterHandler [rootZone] priorityFallback).handlerChain.handlers,
      e.key ≠ fallbackKey := by
    intro e he
    exact ((mem_closeHandler ⟨rootZone, .localResolver, priorityFallback⟩ s e).mp he).2 (by decide)
  unfold Server.clearFallback
  dsimp only
  split
  · exact hremoved
  next handler hfallback =>
    refine ⟨fun u hu => ?_, fun u hu => ?_, fun id w u hget hw => ?_, fun e he u hu => ?_,
      hremoved.localResolver⟩
    · rcases mem_cons.mp hu with rfl | hu
      · exact hremoved.fallback _ hfallback
      · exact hremoved.stopped u hu
    · cases hu
    · obtain ⟨hlt, -, hrest⟩ := hremoved.wrapper id w u hget hw
      exact ⟨hlt, nofun, hrest⟩
    · obtain ⟨hlt, hrunning, hfb, hother⟩ := hremoved.upstream e he u hu
      have hne : (s.deregisterHandler [rootZone] priorityFallback).fallbackHandler ≠ some u :=
        fun hsome => hkey e he (hfb hsome)
      refine ⟨hlt, fun hmem => ?_, nofun, fun _ => hother hne⟩
      rcases mem_cons.mp hmem with rfl | hmem
      · exact hne hfallback
      · exact hrunning hmem

/-- A new fallback takes the place of the old one. -/
theorem addFallback (handler : Upstream) (hnew : handler.ref = s.created) :
    Sound (s.addFallback handler) ∧ ∀ e ∈ (s.addFallback handler).handlerChain.handlers, ∀ u,
      e.handler = .withStop (.upstream u) → s.fallbackHandler ≠ some u := by
  -- an entry is the new one, or an old one that is not the fallback
  have hcases : ∀ e ∈ (s.addFallback handler).handlerChain.handlers,
      (e.handler = .withStop (.upstream handler) ∧ e.key = fallbackKey) ∨
        (e ∈ s.handlerChain.handlers ∧ e.key ≠ fallbackKey) := by
    intro e he
    rcases (mem_openHandler { s with created := s.created + 1, fallbackHandler := some handler }
      ⟨rootZone, .upstream handler, priorityFallback⟩ e).mp he with ⟨-, rfl⟩ | ⟨hold, hkey⟩
    · exact .inl ⟨rfl, rfl⟩
    · exact .inr ⟨hold, hkey (show rootZone ≠ [] by decide)⟩
  have hold : ∀ e ∈ s.handlerChain.handlers, e.key ≠ fallbackKey → ∀ u,
      e.handler = .withStop (.upstream u) → s.fallbackHandler ≠ some u := by
    intro e he hkey u hu hsome
    exact hkey ((h.upstream e he u hu).2.2.1 hsome)
  have hfresh : ∀ u : Upstream, u.ref < s.created → some handler ≠ some u := by
    intro u hlt heq
    cases heq
    exact hlt.ne hnew
  have hmade : handler.ref < s.created + 1 := hnew ▸ Nat.lt_succ_self _
  refine ⟨⟨fun u hu => Nat.lt_succ_of_lt (h.stopped u hu), fun u hu => ?_,
    fun id w u hget hw => ?_, fun e he u hu => ?_, fun e he => ?_⟩, fun e he u hu => ?_⟩
  · cases hu
    exact hmade
  · obtain ⟨hlt, -, hrest⟩ := h.wrapper id w u hget hw
    exact ⟨Nat.lt_succ_of_lt hlt, hfresh u hlt, hrest⟩
  · rcases hcases e he with ⟨hhandler, hkey⟩ | ⟨he, hkey⟩
    · rw [hhandler] at hu
      cases hu
      refine ⟨hmade, fun hmem => (h.stopped _ hmem).ne hnew, fun _ => hkey, ?_⟩
      exact fun hne => absurd rfl hne
    · obtain ⟨hlt, hrunning, -, hother⟩ := h.upstream e he u hu
      exact ⟨Nat.lt_succ_of_lt hlt, hrunning, fun heq => absurd heq (hfresh u hlt),
        fun _ => hother (hold e he hkey u hu)⟩
  · rcases hcases e he with ⟨hhandler, hkey⟩ | ⟨he, -⟩
    · rw [hhandler, show e.priority = priorityFallback from (Prod.mk.inj hkey).2]
      exact iff_of_false nofun (by decide)
    · exact h.localResolver e he
  · rcases hcases e he with ⟨hhandler, -⟩ | ⟨he, hkey⟩
    · rw [hhandler] at hu
      cases hu
      exact fun hsome => (h.fallback _ hsome).ne hnew
    · exact hold e he hkey u hu

/-- A handler that is out of the chain may be stopped. -/
theorem stop (hlt : u.ref < s.created)
    (hout : ∀ e ∈ s.handlerChain.handlers, e.handler ≠ .withStop (.upstream u)) :
    Sound (s.stop (.upstream u)) := by
  refine { h with stopped := fun u' hu' => ?_, upstream := fun e he u' hu' => ?_ }
  · rcases mem_cons.mp hu' with rfl | hu'
    · exact hlt
    · exact h.stopped u' hu'
  · obtain ⟨hlt', hrunning, hkeys⟩ := h.upstream e he u' hu'
    refine ⟨hlt', fun hmem => ?_, hkeys⟩
    rcases mem_cons.mp hmem with rfl | hmem
    · exact hout e he hu'
    · exact hrunning hmem

theorem registerFallback (nameservers : List Addr) :
    Sound (s.registerFallback nameservers) := by
  rcases s.registerFallback_cases nameservers with heq | ⟨servers, heq⟩
  · rw [heq]
    exact h.clearFallback
  · rw [heq]
    obtain ⟨hadded, hout⟩ := h.addFallback ⟨s.created, rootZone, servers⟩ rfl
    split
    · exact hadded
    next prev hprev =>
      refine hadded.stop (Nat.lt_succ_of_lt (h.fallback prev hprev)) fun e he hhandler => ?_
      exact hout e he prev hhandler hprev

theorem applyHostConfig (applied : Option (List Addr)) :
    Sound (s.applyHostConfig applied) := by
  cases applied with
  | none => exact h
  | some nameservers => exact h.registerFallback nameservers

theorem withHostManager (noop : Bool) : Sound { s with noopHostManager := noop } :=
  { h with }

theorem switchDNS (initialized serviceEnable : Bool) :
    Sound (s.switchDNS initialized serviceEnable) := by
  unfold Server.switchDNS Server.enableDNS Server.disableDNS
  split_ifs
  · exact h.withHostManager false
  · exact h
  · exact h
  · exact h.clearFallback.withHostManager true
  · exact h.withHostManager true
  · exact h

theorem buildUpdates (env : UpdateEnv) (update : DNSConfig) :
    Sound (s.buildUpdates env update).2 := by
  have hbuilt := built env.runtimeIP
    (groupNSGroupsByDomain env.groupOrder update.nameServerGroups) s
  show Sound (buildHandlers _ _ s).2
  generalize buildHandlers env.runtimeIP (groupNSGroupsByDomain env.groupOrder
    update.nameServerGroups) s = built at hbuilt ⊢
  have hle := hbuilt.created
  have hold := hbuilt.stopped
  rw [hbuilt.rest]
  refine ⟨fun u hu => ?_, fun u hu => (h.fallback u hu).trans_le hle, fun id w u hget hw => ?_,
    fun e he u hu => ?_, h.localResolver⟩
  · rcases hold u hu with hmem | ⟨-, hlt, -⟩
    · exact (h.stopped u hmem).trans_le hle
    · exact hlt
  · obtain ⟨hlt, hrest⟩ := h.wrapper id w u hget hw
    exact ⟨hlt.trans_le hle, hrest⟩
  · obtain ⟨hlt, hrunning, hkeys⟩ := h.upstream e he u hu
    refine ⟨hlt.trans_le hle, fun hmem => ?_, hkeys⟩
    rcases hold u hmem with hmem | ⟨hge, -⟩
    · exact hrunning hmem
    · exact absurd hlt (not_lt.mpr hge)

theorem withLocalResolver (r : Resolver) : Sound { s with localResolver := r } :=
  { h with }

/-- A handler of the last update may be closed. -/
theorem closeHandler {id : Bytes} {w : HandlerWrapper}
    (hget : get s.dnsMuxMap id = some w) : Sound (s.closeHandler w) := by
  have hremoved := h.deregisterHandler [w.domain] w.priority
  have hmem := mem_closeHandler w s
  rw [Server.closeHandler] at hmem ⊢
  cases hhandler : w.handler with
  | localResolver => exact hremoved.withLocalResolver _
  | upstream u =>
    obtain ⟨hlt, hfallback, hdomain, hkey⟩ := h.wrapper id w u hget hhandler
    refine hremoved.stop hlt fun e he hu => ?_
    rw [stop_handlerChain] at hmem
    obtain ⟨hold, hne⟩ := (hmem e).mp he
    exact hne hdomain (((h.upstream e hold u hu).2.2.2 hfallback).trans hkey.symm)

theorem closeMux (ord : RangeOrder Bytes) : Sound (s.closeMux ord) := by
  refine (foldlRecOn (motive := fun s' : Server => Sound s' ∧ s'.dnsMuxMap = s.dnsMuxMap)
    (range ord s.dnsMuxMap) _ ⟨h, rfl⟩ ?_).1
  rintro s' ⟨h', hmux⟩ x hx
  refine ⟨h'.closeHandler (hmux.symm ▸ mem_range.mp hx), ?_⟩
  rw [closeHandler_dnsMuxMap]
  exact hmux

/-- Handlers that are new may be opened. -/
theorem openMux {updates : List HandlerWrapper}
    (hlocal : ∀ w ∈ updates, w.handler = .localResolver ↔ w.priority = priorityLocal)
    (hupstream : ∀ w ∈ updates, ∀ u, w.handler = .upstream u →
      u.ref < s.created ∧ u ∉ s.stopped ∧ s.fallbackHandler ≠ some u ∧ w.domain ≠ [] ∧
        w.key = upstreamKey u) : Sound (s.openMux p updates) := by
  have hentry : ∀ e ∈ (s.openMux p updates).handlerChain.handlers,
      (∃ w ∈ updates, e = w.entry) ∨ e ∈ s.handlerChain.handlers := by
    intro e he
    rcases of_mem_openMux he with ⟨w, hw, -, rfl⟩ | ⟨hold, -⟩
    · exact .inl ⟨w, hw, rfl⟩
    · exact .inr hold
  rw [openMux_eq]
  refine ⟨h.stopped, h.fallback, fun id w u hget hw => ?_, fun e he u hu => ?_, fun e he => ?_⟩
  · obtain ⟨w', hmem, -, rfl⟩ := exists_of_get_build hget
    obtain ⟨hlt, -, hrest⟩ := hupstream w' hmem u hw
    exact ⟨hlt, hrest⟩
  · rcases hentry e he with ⟨w, hw, rfl⟩ | hold
    · have hhandler : w.handler = .upstream u := Handler.withStop.inj hu
      obtain ⟨hlt, hrunning, hfallback, -, hkey⟩ := hupstream w hw u hhandler
      exact ⟨hlt, hrunning, fun heq => absurd heq hfallback, fun _ => hkey⟩
    · exact h.upstream e hold u hu
  · rcases hentry e he with ⟨w, hw, rfl⟩ | hold
    · show Handler.withStop w.handler = .withStop .localResolver ↔ w.priority = priorityLocal
      rw [← hlocal w hw, Handler.withStop.injEq]
    · exact h.localResolver e hold

/-- An update keeps the server sound. -/
theorem applyConfiguration (env : UpdateEnv) (update : DNSConfig) :
    Sound (s.applyConfiguration p env update).1 := by
  have hswitched := h.switchDNS env.initialized update.serviceEnable
  rw [Server.applyConfiguration]
  split
  · exact hswitched
  · dsimp only
    apply applyHostConfig
    apply withLocalResolver
    generalize s.switchDNS env.initialized update.serviceEnable = s₀ at hswitched
    have hbuilt := built env.runtimeIP
      (groupNSGroupsByDomain env.groupOrder update.nameServerGroups) s₀
    have hmade := hswitched.buildUpdates env update
    apply (hmade.closeMux env.muxOrder).openMux
    · intro w hw
      rcases mem_append.mp hw with hw | hw
      · obtain ⟨zone, -, rfl⟩ := mem_map.mp hw
        exact iff_of_true rfl rfl
      · obtain ⟨u, groups, rfl, -⟩ := hbuilt.handlers w hw
        exact iff_of_false (by simp) (domainPriority_ne_local _)
    · intro w hw u hu
      rcases mem_append.mp hw with hw | hw
      · obtain ⟨zone, -, rfl⟩ := mem_map.mp hw
        cases hu
      · obtain ⟨u', groups, rfl, hmem, hge, hlt, hraces, hservers⟩ := hbuilt.handlers w hw
        cases hu
        -- the resolver is new: it is not the fallback, and nothing has stopped it
        have hfallback : (s₀.buildUpdates env update).2.fallbackHandler = s₀.fallbackHandler := by
          show (buildHandlers _ _ s₀).2.fallbackHandler = _
          rw [hbuilt.rest]
        rw [closeMux_field created (fun s w => stop_created _ _),
          closeMux_field fallbackHandler (fun s w => stop_fallbackHandler _ _), hfallback]
        refine ⟨hlt, fun hstopped => ?_, fun hsome => ?_, ?_, rfl⟩
        · rcases mem_stopped_closeMux hstopped with hold | ⟨id, w', hget, hw'⟩
          · rcases hbuilt.stopped u hold with hold | ⟨-, -, hnone⟩
            · exact absurd (hswitched.stopped u hold) (not_lt.mpr hge)
            · exact hservers hnone
          · rw [(keepsMux_buildUpdates s₀ env update).dnsMuxMap] at hget
            exact absurd (hswitched.wrapper id w' u hget hw').1 (not_lt.mpr hge)
        · exact absurd (hswitched.fallback u hsome) (not_lt.mpr hge)
        · rw [hraces, mem_groupNSGroupsByDomain hmem] at hservers
          obtain ⟨group, hgroup, -⟩ := races_ne_nil_iff.mp hservers
          exact targets_ne_nil (mem_groupsFor.mp hgroup).2

/-- Every event keeps the server sound. -/
theorem step (e : Event) : Sound (s.step p e) := by
  cases e with
  | applyConfiguration env update => exact h.applyConfiguration env update
  | registerHandler domains route applied =>
    exact (h.registerHandler domains (by simp) (by decide)).applyHostConfig applied
  | deregisterHandler domains applied =>
    exact (h.deregisterHandler domains _).applyHostConfig applied
  | updateServerConfig removedDomains newDomains =>
    exact (h.deregisterHandler removedDomains _).registerHandler newDomains (by simp) (by decide)
  | onUpdatedHostDNSServer nameservers => exact h.registerFallback nameservers
  | initializeServer initialized nameservers =>
    show Sound (s.initializeServer initialized nameservers)
    unfold initializeServer
    dsimp only
    split
    · exact h
    · split
      · exact (h.withHostManager false).registerFallback nameservers
      · exact h.withHostManager false

omit h in
/-- The server is sound along every run. -/
theorem run (permanent : Bool) (es : List Event) : Sound ((DNS.newServer permanent).run p es) :=
  foldlRecOn es _ (newServer permanent) fun _ h e _ => h.step e

end Sound

/-- **The registered handlers are live**: none is stopped, and the local resolver resolves external
names as a new one does. -/
structure Live (s : Server) : Prop where
  running : ∀ e ∈ s.handlerChain.handlers, ¬ s.Stopped e.handler
  external : (∃ e ∈ s.handlerChain.handlers, e.handler = .withStop .localResolver) →
    ∀ sys name qtype, s.localResolver.resolveExternal sys name qtype =
      newResolver.resolveExternal sys name qtype

/-- The local resolver is not in the chain. -/
def NoLocal (s : Server) : Prop :=
  ∀ e ∈ s.handlerChain.handlers, e.handler ≠ .withStop .localResolver

/-- Only the local resolver can be registered and stopped. -/
theorem Sound.live_iff_noLocal (h : Sound s) :
    s.Live ↔ (s.localResolver.cancelled → s.NoLocal) := by
  constructor
  · intro hlive hcancelled e he hhandler
    apply hlive.running e he
    rw [hhandler]
    exact hcancelled
  · intro hlocal
    constructor
    · intro e he hstopped
      cases hhandler : e.handler with
      | withStop k =>
        rw [hhandler] at hstopped
        cases k with
        | localResolver => exact hlocal hstopped e he hhandler
        | upstream u => exact (h.upstream e he u hhandler).2.1 hstopped
      | mgmtCache | route id =>
        rw [hhandler] at hstopped
        exact hstopped
    · rintro ⟨e, he, hhandler⟩ sys name qtype
      have hrunning : s.localResolver.cancelled = false := by
        rw [Bool.eq_false_iff]
        exact fun hcancelled => hlocal hcancelled e he hhandler
      rw [Resolver.resolveExternal, hrunning, Resolver.resolveExternal]
      rfl

end Server

/-! ## The local resolver over histories -/

/-- The zones of an update that have records. -/
def zonesWithRecords (update : UpdateEnv × DNSConfig) : List CustomZone :=
  update.2.customZones.filter fun zone => zone.records ≠ []

/-- Some zone with records has a domain, and so a handler. -/
def NamesZone (update : UpdateEnv × DNSConfig) : Prop :=
  ∃ zone ∈ zonesWithRecords update, zone.domain ≠ []

/-- All zones with handlers have the name of the last zone, so that the map knows them. -/
def OneName (update : UpdateEnv × DNSConfig) : Prop :=
  ∀ zone ∈ zonesWithRecords update, zone.domain ≠ [] →
    ∃ last ∈ (zonesWithRecords update).getLast?,
      last.domain ≠ [] ∧ canonical last.domain = canonical zone.domain

/-- If the first update stops the local resolver, the second leaves it out of the chain. -/
def LeavesOut (A B : UpdateEnv × DNSConfig) : Prop := HasZones A → OneName A ∧ ¬ NamesZone B

variable {update : UpdateEnv × DNSConfig}

theorem hasZones_iff : HasZones update ↔ zonesWithRecords update ≠ [] := by
  rw [zonesWithRecords, ne_eq, filter_eq_nil_iff]
  simp [HasZones]

/-- A plan asks for the domains of zones with records. -/
theorem asks_local_iff {pattern : Bytes} : Asks (plan p update) (pattern, priorityLocal) ↔
      ∃ zone ∈ zonesWithRecords update, zone.domain ≠ [] ∧ canonical zone.domain = pattern := by
  constructor
  · rintro ⟨r, hr, hdomain, hkey⟩
    rcases mem_append.mp hr with hr | hr
    · obtain ⟨zone, hzone, rfl⟩ := mem_map.mp hr
      exact ⟨zone, hzone, hdomain, (Prod.mk.inj hkey).1⟩
    · obtain ⟨domain, hsome⟩ := mem_upstreamPlan.mp hr
      unfold upstreamRegistration at hsome
      dsimp only at hsome
      split at hsome
      · cases hsome
      · cases hsome
        exact absurd (Prod.mk.inj hkey).2 (domainPriority_ne_local domain)
  · rintro ⟨zone, hzone, hdomain, rfl⟩
    exact ⟨_, mem_append_left _ (mem_map.mpr ⟨zone, hzone, rfl⟩), hdomain, rfl⟩

/-- Of the zones of an update, the map keeps the last one. -/
theorem asks_held_local_iff {pattern : Bytes} :
    Asks (Registration.held (plan p update)) (pattern, priorityLocal) ↔
      ∃ last ∈ (zonesWithRecords update).getLast?,
        last.domain ≠ [] ∧ canonical last.domain = pattern := by
  have hother : ∀ domain r, upstreamRegistration p update.1.runtimeIP domain = some r →
      r.handlerID ≠ ascii "local-resolver" ∧ r.priority ≠ priorityLocal := by
    intro domain r hr
    unfold upstreamRegistration at hr
    dsimp only at hr
    split at hr
    · cases hr
    · cases hr
      refine ⟨fun hid => ?_, domainPriority_ne_local _⟩
      have hhead := congrArg List.head? hid
      cases hhead
  -- the registrations under the id of the local resolver are those of the zones
  have hfilter : (plan p update).filter (fun r => r.handlerID = ascii "local-resolver") =
      localPlan update.2.customZones := by
    rw [plan, filter_append, filter_eq_self.mpr, filter_eq_nil_iff.mpr, append_nil]
    · intro r hr
      obtain ⟨domain, -, hsome⟩ := mem_filterMap.mp hr
      rw [decide_eq_true_eq]
      exact (hother domain r hsome).1
    · intro r hr
      obtain ⟨zone, -, rfl⟩ := mem_map.mp hr
      exact decide_eq_true rfl
  have hget : get (build Registration.handlerID id (plan p update))
      (ascii "local-resolver") = (zonesWithRecords update).getLast?.map fun zone =>
        ⟨ascii "local-resolver", zone.domain, priorityLocal⟩ := by
    rw [get_build_eq_getLast?, hfilter, localPlan, getLast?_map, Option.map_id]
    rfl
  have hnodup := nodup_keys_build Registration.handlerID id (plan p update)
  constructor
  · rintro ⟨r, hr, hdomain, hkey⟩
    obtain ⟨⟨handlerID, r'⟩, hmem, rfl⟩ := mem_map.mp hr
    have hr' := get_of_mem hnodup hmem
    obtain ⟨r'', hplan, hid, rfl⟩ := exists_of_get_build hr'
    rcases mem_append.mp hplan with hplan | hplan
    · obtain ⟨zone, -, rfl⟩ := mem_map.mp hplan
      rw [← hid, hget] at hr'
      obtain ⟨last, hlast, hzone⟩ := map_eq_some_iff.mp hr'
      rw [← hzone] at hdomain hkey
      exact ⟨last, hlast, hdomain, (Prod.mk.inj hkey).1⟩
    · obtain ⟨domain, -, hsome⟩ := mem_filterMap.mp hplan
      exact absurd (Prod.mk.inj hkey).2 (hother domain _ hsome).2
  · rintro ⟨last, hlast, hdomain, rfl⟩
    rw [hlast, map_some] at hget
    exact ⟨_, mem_map.mpr ⟨_, mem_of_get hget, rfl⟩, hdomain, rfl⟩

variable (permanent : Bool) (es : List Event)

/-- The local resolver is held if the last update has zones. -/
theorem holdsLocal_run_iff : ((newServer permanent).run p es).HoldsLocal ↔
      ∃ A ∈ (updates es).getLast?, HasZones A := by
  induction es using reverseRecOn with
  | nil => simp [run, newServer, updates, HoldsLocal, get]
  | append_singleton es e ih =>
    rw [run_concat, updates_concat]
    cases haccepted : e.accepted with
    | none =>
      rw [(keepsMux_step _ haccepted).holdsLocal_iff, ih, toList_none, append_nil]
    | some update =>
      rw [(updated_step _ haccepted).holdsLocal]
      simp

theorem mem_iff_dropLast_or_getLast? {l : List α} {a : α} :
    a ∈ l ↔ a ∈ l.dropLast ∨ a ∈ l.getLast? := by
  induction l using reverseRecOn with
  | nil => simp
  | append_singleton l b ih => simp [eq_comm]

/-- It is cancelled if an earlier update has zones. -/
theorem cancelled_run_iff :
    ((newServer permanent).run p es).localResolver.cancelled ↔
      ∃ A ∈ (updates es).dropLast, HasZones A := by
  induction es using reverseRecOn with
  | nil =>
    constructor
    · intro h
      cases h
    · rintro ⟨A, hA, -⟩
      cases hA
  | append_singleton es e ih =>
    rw [run_concat, updates_concat]
    cases haccepted : e.accepted with
    | none =>
      rw [(keepsMux_step _ haccepted).localResolver, ih, toList_none, append_nil]
    | some update =>
      rw [(updated_step _ haccepted).cancelled, ih, holdsLocal_run_iff,
        toList_some, dropLast_concat, ← exists_or]
      refine exists_congr fun A => ?_
      rw [← or_and_right, ← mem_iff_dropLast_or_getLast?]

variable {es : List Event}

/-- A local entry was asked for by an update. -/
theorem zone_of_localEntry {e : HandlerEntry Handler}
    (he : e ∈ ((newServer permanent).run p es).handlerChain.handlers)
    (hpriority : e.priority = priorityLocal) : ∃ A ∈ updates es, Asks (plan p A) e.key := by
  have hmanaged : managed e.priority := by
    rw [hpriority]
    rfl
  induction es using reverseRecOn with
  | nil => cases he
  | append_singleton es ev ih =>
    rw [run_concat] at he
    rw [updates_concat]
    cases haccepted : ev.accepted with
    | none =>
      rw [(keepsMux_step _ haccepted).entries e hmanaged] at he
      rw [toList_none, append_nil]
      exact ih he
    | some update =>
      rcases (updated_step _ haccepted).entry e he hmanaged with ⟨-, hasks⟩ | ⟨hold, -⟩
      · exact ⟨update, by simp, hasks⟩
      · obtain ⟨A, hA, hasks⟩ := ih hold
        exact ⟨A, mem_append_left _ hA, hasks⟩

/-- What the last update asks for is registered. -/
theorem registered_run {A : UpdateEnv × DNSConfig}
    (hA : A ∈ (updates es).getLast?) {key : Bytes × ℤ} (hasks : Asks (plan p A) key) :
    ∃ e ∈ ((newServer permanent).run p es).handlerChain.handlers, e.key = key := by
  induction es using reverseRecOn with
  | nil => cases hA
  | append_singleton es ev ih =>
    rw [run_concat]
    rw [updates_concat] at hA
    cases haccepted : ev.accepted with
    | none =>
      rw [haccepted, toList_none, append_nil] at hA
      obtain ⟨e, he, rfl⟩ := ih hA
      refine ⟨e, ?_, rfl⟩
      exact ((keepsMux_step _ haccepted).entries e (managed_of_asks hasks)).mpr he
    | some update =>
      rw [haccepted, toList_some, getLast?_concat, mem_some_iff] at hA
      subst hA
      exact (updated_step _ haccepted).registered key hasks

/-- As long as the handlers are live after updates, a stopped local resolver is out of the chain. -/
theorem noLocal_of_live (h : AfterEach (fun _ _ s => s.Live) p permanent es)
    (hcancelled : ((newServer permanent).run p es).localResolver.cancelled) :
    ((newServer permanent).run p es).NoLocal := by
  induction es using reverseRecOn with
  | nil => cases hcancelled
  | append_singleton es ev ih =>
    obtain ⟨hold, hlast⟩ := (afterEach_concat_iff permanent).mp h
    cases haccepted : ev.accepted with
    | none =>
      have hsound := @Sound.run p permanent (es ++ [ev])
      rw [run_concat] at hcancelled hsound ⊢
      have hkeeps := @keepsMux_step p ((newServer permanent).run p es) ev haccepted
      rw [hkeeps.localResolver] at hcancelled
      intro e he hhandler
      have hpriority := (hsound.localResolver e he).mp hhandler
      refine ih hold hcancelled e ?_ hhandler
      refine (hkeeps.entries e ?_).mp he
      rw [hpriority]
      rfl
    | some update =>
      have hlive := hlast update haccepted
      exact ((Sound.run permanent (es ++ [ev])).live_iff_noLocal.mp hlive) hcancelled

section lastUpdate

variable {permanent} {es : List Event} {e : Event} {B : UpdateEnv × DNSConfig}

/-- After an update that leaves the handlers live, every earlier update with zones is left out. -/
theorem leavesOut_of_live (haccepted : e.accepted = some B)
    (hpair : (updates es).Pairwise LeavesOut)
    (hlive : ((newServer permanent).run p (es ++ [e])).Live) : ∀ A ∈ updates es, LeavesOut A B := by
  intro A hA hzones
  have hsound' := @Sound.run p permanent (es ++ [e])
  have hnoLocal : ((newServer permanent).run p (es ++ [e])).NoLocal := by
    refine hsound'.live_iff_noLocal.mp hlive ((cancelled_run_iff permanent _).mpr ⟨A, ?_, hzones⟩)
    rw [updates_concat, haccepted, toList_some, dropLast_concat]
    exact hA
  have hnone : ∀ x ∈ ((newServer permanent).run p (es ++ [e])).handlerChain.handlers,
      x.priority ≠ priorityLocal := fun x hx hpriority =>
    hnoLocal x hx ((hsound'.localResolver x hx).mpr hpriority)
  rw [run_concat] at hnone
  have hupdated := updated_step (p := p) ((newServer permanent).run p es) haccepted
  have hB : ∀ pattern, ¬ Asks (plan p B) (pattern, priorityLocal) := by
    intro pattern hasks
    obtain ⟨x, hx, hkey⟩ := hupdated.registered _ hasks
    exact hnone x hx (Prod.mk.inj hkey).2
  refine ⟨?_, fun hnames => ?_⟩
  · rcases mem_iff_dropLast_or_getLast?.mp hA with hdrop | hlast
    · -- the update that follows has already left it out
      obtain ⟨init, last, hsplit⟩ : ∃ init last, updates es = init ++ [last] :=
        ⟨_, _, (dropLast_append_getLast (ne_nil_of_mem hA)).symm⟩
      rw [hsplit, dropLast_concat] at hdrop
      rw [hsplit, pairwise_append] at hpair
      exact (hpair.2.2 A hdrop last mem_cons_self hzones).1
    · intro zone hzone hdomain
      rw [← @asks_held_local_iff p]
      have hasks := (@asks_local_iff p A _).mpr ⟨zone, hzone, hdomain, rfl⟩
      obtain ⟨x, hx, hkey⟩ := registered_run permanent hlast hasks
      have hpriority : x.priority = priorityLocal := (Prod.mk.inj hkey).2
      by_contra hheld
      refine hnone x (hupdated.kept x hx ?_ (fun hmux => ?_) ?_) hpriority
      · rw [hpriority]
        rfl
      · obtain ⟨A', hA', hheld'⟩ := (muxKey_run_iff permanent es x.key).mp hmux
        cases mem_unique hlast hA'
        rw [hkey] at hheld'
        exact hheld hheld'
      · rw [hkey]
        exact hB _
  · obtain ⟨zone, hzone, hdomain⟩ := hnames
    exact hB _ (asks_local_iff.mpr ⟨zone, hzone, hdomain, rfl⟩)

/-- If every earlier update with zones is left out, the handlers are live after an update. -/
theorem live_of_leavesOut (haccepted : e.accepted = some B)
    (hold : AfterEach (fun _ _ s => s.Live) p permanent es)
    (hall : ∀ A ∈ updates es, LeavesOut A B) : ((newServer permanent).run p (es ++ [e])).Live := by
  have hsound' := @Sound.run p permanent (es ++ [e])
  rw [hsound'.live_iff_noLocal]
  intro hcancelled x hx hhandler
  have hpriority := (hsound'.localResolver x hx).mp hhandler
  have hmanaged : managed x.priority := by
    rw [hpriority]
    rfl
  have hkey : x.key = (x.origPattern, priorityLocal) := by
    rw [HandlerEntry.key, hpriority]
  -- some update has stopped the local resolver, so this one registers no zone
  obtain ⟨A, hA, hzones⟩ := (cancelled_run_iff permanent _).mp hcancelled
  rw [updates_concat, haccepted, toList_some, dropLast_concat] at hA
  have hupdated := updated_step (p := p) ((newServer permanent).run p es) haccepted
  rw [run_concat] at hx
  rcases hupdated.entry x hx hmanaged with ⟨-, hasks⟩ | ⟨hx, hmux, -⟩
  · rw [hkey, asks_local_iff] at hasks
    obtain ⟨zone, hzone, hdomain, -⟩ := hasks
    exact (hall A hA hzones).2 ⟨zone, hzone, hdomain⟩
  · -- the entry is older: it is for a zone of the last update, and the map knows it
    by_cases hbefore : ((newServer permanent).run p es).localResolver.cancelled
    · exact noLocal_of_live permanent hold hbefore x hx hhandler
    · obtain ⟨A', hA', hasks⟩ := zone_of_localEntry permanent hx hpriority
      rw [hkey, asks_local_iff] at hasks
      obtain ⟨zone, hzone, hdomain, hpattern⟩ := hasks
      have hzones' : HasZones A' := hasZones_iff.mpr (ne_nil_of_mem hzone)
      have hlast : A' ∈ (updates es).getLast? := by
        refine (mem_iff_dropLast_or_getLast?.mp hA').resolve_left fun hdrop => hbefore ?_
        exact (cancelled_run_iff permanent es).mpr ⟨A', hdrop, hzones'⟩
      obtain ⟨last, hmem, hlastdomain, hlastpattern⟩ := (hall A' hA' hzones').1 zone hzone hdomain
      refine hmux ((muxKey_run_iff permanent es x.key).mpr ⟨A', hlast, ?_⟩)
      rw [hkey, asks_held_local_iff]
      exact ⟨last, hmem, hlastdomain, hlastpattern.trans hpattern⟩

end lastUpdate

/-- **When the registered handlers are live**: after every update if and only if, once an update
with zones was followed by another one, no zone is registered any more, and the first one's zones
all had one name. -/
theorem live_iff (p : Platform) (permanent : Bool) (es : List Event) :
    AfterEach (fun _ _ s => s.Live) p permanent es ↔ (updates es).Pairwise LeavesOut := by
  induction es using reverseRecOn with
  | nil => exact iff_of_true (afterEach_nil permanent _) List.Pairwise.nil
  | append_singleton es e ih =>
    rw [afterEach_concat_iff, updates_concat, pairwise_append, ← ih]
    refine and_congr_right fun hold => ?_
    cases haccepted : e.accepted with
    | none => simp
    | some B =>
      simp only [Option.some.injEq, forall_eq', toList_some, pairwise_singleton,
        true_and, mem_singleton, forall_eq]
      exact ⟨leavesOut_of_live haccepted (ih.mp hold), live_of_leavesOut haccepted hold⟩

/-- Two updates with one zone: the local resolver is registered and stopped, and a CNAME out of the
zone fails. -/
theorem stopped_resolver_registered : ¬ AfterEach (fun _ _ s => s.Live) ⟨id, fun _ => none⟩ false
      [.applyConfiguration {} { customZones := [oneRecordZone (ascii "a.example")] },
      .applyConfiguration {} { customZones := [oneRecordZone (ascii "b.example")] }] := by
  intro h
  have hlast := h [.applyConfiguration {} { customZones := [oneRecordZone (ascii "a.example")] }]
    (.applyConfiguration {} { customZones := [oneRecordZone (ascii "b.example")] }) _
    prefix_rfl rfl
  have hresolve := hlast.external (by decide)
    (fun _ _ => .ok [.v4 0x01010101#32]) (ascii "other.test.") typeA
  exact absurd hresolve (by decide)

end DNS
