/-
# The domains of DNS interceptors

Each DNS route registers its interceptor for its domains with `AddRoute` and removes the domains
with `RemoveRoute` (`client/internal/routemanager/dnsinterceptor/handler.go`).  The chain has one
entry for a domain at the priority of DNS routes, whoever registered it last, and a removal is by
domain: it also takes the entry away from the other interceptors that share the domain.
-/
import AnonBird.DNSUpdates
import AnonBird.Transition

open GoStrings NetIP DNSNames Function

namespace DNS

open Server

/-- The server with the interceptors, by their numbers, that are added and not removed. -/
structure Interceptors where
  server : Server := {}
  added : ℕ → Bool := fun _ => false

/-- The calls of the interceptors.  Outside batches the host configuration is applied afterwards. -/
inductive RouteCall where
  | addRoute (i : ℕ) (applied : Option (List Addr))
  | removeRoute (i : ℕ) (applied : Option (List Addr))

namespace Interceptors

-- the domains of the route of each interceptor
variable (domains : ℕ → List Bytes)

/-- The handlers after a call. -/
def step (t : Interceptors) : RouteCall → Interceptors
  | .addRoute i applied =>
    { server := (t.server.registerHandler (domains i) (.route i) priorityDNSRoute).applyHostConfig
        applied
      added := update t.added i true }
  | .removeRoute i applied =>
    { server := (t.server.deregisterHandler (domains i) priorityDNSRoute).applyHostConfig applied
      added := update t.added i false }

/-- The handlers after calls from the start. -/
def run (calls : List RouteCall) : Interceptors := calls.foldl (step domains) {}

/-- The key of a domain at the priority of DNS routes. -/
def routeKey (d : Bytes) : Bytes × ℤ := (canonical d, priorityDNSRoute)

/-- Every domain of an added interceptor has an entry, and its handler is an added interceptor. -/
def Intercepted (t : Interceptors) : Prop :=
  ∀ i, t.added i = true → ∀ d ∈ domains i, d ≠ [] →
    ∃ e ∈ t.server.handlerChain.handlers, e.key = routeKey d ∧
      ∃ j, e.handler = .route j ∧ t.added j = true

/-- The entries of DNS routes belong to interceptors, each for a domain of its own. -/
def Owned (t : Interceptors) : Prop :=
  ∀ e ∈ t.server.handlerChain.handlers, e.priority = priorityDNSRoute →
    ∃ i, e.handler = .route i ∧ ∃ d ∈ domains i, d ≠ [] ∧ e.key = routeKey d

/-- Two interceptors have a domain in common. -/
def Shares (i j : ℕ) : Prop :=
  ∃ d ∈ domains i, ∃ d' ∈ domains j, d ≠ [] ∧ d' ≠ [] ∧ canonical d = canonical d'

variable {domains} {t : Interceptors}

variable {e : HandlerEntry Handler} (i : ℕ) (applied : Option (List Addr))

/-- The host configuration concerns the fallback handler only. -/
theorem mem_applyHostConfig (s : Server) (he : e.priority = priorityDNSRoute) :
    e ∈ (s.applyHostConfig applied).handlerChain.handlers ↔ e ∈ s.handlerChain.handlers := by
  have hkey : ∀ d, e.key ≠ (canonical d, priorityFallback) := by
    intro d hkey
    have hpriority : e.priority = priorityFallback := (Prod.mk.inj hkey).2
    rw [he] at hpriority
    exact absurd hpriority (by decide)
  have hclear : e ∈ s.clearFallback.handlerChain.handlers ↔ e ∈ s.handlerChain.handlers := by
    unfold clearFallback
    dsimp only
    split <;> simp [mem_deregisterHandler, hkey]
  have hadd : ∀ u, e ∈ (s.addFallback u).handlerChain.handlers ↔ e ∈ s.handlerChain.handlers := by
    intro u
    rw [addFallback, mem_registerHandler]
    have hnew : ∀ d, e ≠ newEntry d (.withStop (.upstream u)) priorityFallback :=
      fun d heq => hkey d (heq ▸ rfl)
    simp [hkey, hnew]
  cases applied with
  | none => exact Iff.rfl
  | some nameservers =>
    rw [applyHostConfig]
    rcases s.registerFallback_cases nameservers with h | ⟨servers, h⟩
    · rw [h, hclear]
    · rw [h]
      split
      · exact hadd _
      · rw [stop_handlerChain]
        exact hadd _

theorem mem_addRoute (he : e.priority = priorityDNSRoute) :
    e ∈ (t.step domains (.addRoute i applied)).server.handlerChain.handlers ↔
      (∃ d ∈ domains i, d ≠ [] ∧ e = newEntry d (.route i) priorityDNSRoute) ∨
        (e ∈ t.server.handlerChain.handlers ∧ ∀ d ∈ domains i, d ≠ [] → e.key ≠ routeKey d) :=
  (mem_applyHostConfig applied _ he).trans (mem_registerHandler ..)

theorem mem_removeRoute (he : e.priority = priorityDNSRoute) :
    e ∈ (t.step domains (.removeRoute i applied)).server.handlerChain.handlers ↔
      e ∈ t.server.handlerChain.handlers ∧ ∀ d ∈ domains i, d ≠ [] → e.key ≠ routeKey d :=
  (mem_applyHostConfig applied _ he).trans (mem_deregisterHandler ..)

theorem Owned.step (h : t.Owned domains) (call : RouteCall) :
    (t.step domains call).Owned domains := by
  intro e he hpriority
  cases call with
  | addRoute i applied =>
    rcases (mem_addRoute i applied hpriority).mp he with ⟨d, hd, hne, rfl⟩ | ⟨hold, -⟩
    · exact ⟨i, rfl, d, hd, hne, rfl⟩
    · exact h e hold hpriority
  | removeRoute i applied =>
    exact h e ((mem_removeRoute i applied hpriority).mp he).1 hpriority

theorem owned_run (calls : List RouteCall) : (run domains calls).Owned domains :=
  List.foldlRecOn calls _ nofun fun _ h call _ => h.step call

theorem priority_of_key {d : Bytes} (h : e.key = routeKey d) :
    e.priority = priorityDNSRoute := (Prod.mk.inj h).2

theorem Intercepted.addRoute (h : t.Intercepted domains) :
    (t.step domains (.addRoute i applied)).Intercepted domains := by
  intro k hk d hd hne
  by_cases hshared : ∃ d' ∈ domains i, d' ≠ [] ∧ routeKey d = routeKey d'
  · obtain ⟨d', hd', hne', hkey⟩ := hshared
    refine ⟨newEntry d' (.route i) priorityDNSRoute,
      (mem_addRoute i applied rfl).mpr (.inl ⟨d', hd', hne', rfl⟩), hkey.symm, i, rfl, ?_⟩
    exact update_self i true t.added
  · have hki : k ≠ i := by
      rintro rfl
      exact hshared ⟨d, hd, hne, rfl⟩
    have hk' : t.added k := by
      rw [← hk]
      exact (update_of_ne hki true t.added).symm
    obtain ⟨e, he, hkey, j, hj, hadded⟩ := h k hk' d hd hne
    refine ⟨e, (mem_addRoute i applied (priority_of_key hkey)).mpr (.inr ⟨he, ?_⟩), hkey, j, hj,
      ?_⟩
    · intro d' hd' hne' hkey'
      exact hshared ⟨d', hd', hne', hkey.symm.trans hkey'⟩
    · show update t.added i true j
      rw [update_apply]
      split
      · rfl
      · exact hadded

/-- A removal keeps the law exactly if no other interceptor shares a domain. -/
theorem Intercepted.removeRoute_iff (h : t.Intercepted domains) (howned : t.Owned domains) :
    (t.step domains (.removeRoute i applied)).Intercepted domains ↔
      ∀ j, j ≠ i → t.added j → ¬ Shares domains i j := by
  have hadded : ∀ j, j ≠ i → (t.step domains (.removeRoute i applied)).added j = t.added j :=
    fun j hj => update_of_ne hj _ t.added
  constructor
  · rintro hlaw j hj hjadded ⟨d, hd, d', hd', hne, hne', hsame⟩
    obtain ⟨e, he, hkey, -⟩ := hlaw j ((hadded j hj).trans hjadded) d' hd' hne'
    refine ((mem_removeRoute i applied (priority_of_key hkey)).mp he).2 d hd hne ?_
    rw [hkey, routeKey, routeKey, hsame]
  · intro halone k hk d hd hne
    have hki : k ≠ i := by
      rintro rfl
      have hgone : (t.step domains (.removeRoute k applied)).added k = false :=
        update_self k _ t.added
      rw [hgone] at hk
      cases hk
    rw [hadded k hki] at hk
    obtain ⟨e, he, hkey, j, hj, hjadded⟩ := h k hk d hd hne
    have hother : ∀ d' ∈ domains i, d' ≠ [] → e.key ≠ routeKey d' := by
      intro d' hd' hne' hkey'
      exact halone k hki hk ⟨d', hd', d, hd, hne', hne, (Prod.mk.inj (hkey'.symm.trans hkey)).1⟩
    refine ⟨e, (mem_removeRoute i applied (priority_of_key hkey)).mpr ⟨he, hother⟩, hkey, j, hj, ?_⟩
    -- the entry is not the removed interceptor's, which would have the domain
    obtain ⟨j', hj', d', hd', hne', hkey'⟩ := howned e he (priority_of_key hkey)
    obtain rfl : j = j' := Handler.route.inj (hj.symm.trans hj')
    rw [hadded j fun hji => hother d' (hji ▸ hd') hne' hkey']
    exact hjadded

end Interceptors

/-- **Intercepted domains keep an interceptor** if and only if an interceptor is removed only while
no other added interceptor has one of its domains. -/
theorem intercepted_iff (domains : ℕ → List Bytes) (calls : List RouteCall) :
    (∀ pre, pre <+: calls → (Interceptors.run domains pre).Intercepted domains) ↔
      ∀ pre call, pre ++ [call] <+: calls → ∀ i applied, call = .removeRoute i applied →
        ∀ j, j ≠ i → (Interceptors.run domains pre).added j = true →
          ¬ Interceptors.Shares domains i j := by
  refine Transition.forall_prefix_iff nofun ?_
  intro pre call _ h
  rw [Interceptors.run, List.foldl_concat]
  cases call with
  | addRoute i applied =>
    exact iff_of_true (h.addRoute i applied) (fun _ _ hcall => by cases hcall)
  | removeRoute i applied =>
    refine (h.removeRoute_iff i applied (Interceptors.owned_run pre)).trans ?_
    constructor
    · rintro hcond _ _ ⟨⟩
      exact hcond
    · intro hcond
      exact hcond i applied rfl

/-- Two interceptors for one domain, one of which is removed. -/
theorem domain_without_interceptor : ¬ (Interceptors.run (fun _ => [ascii "example.com"])
      [.addRoute 0 none, .addRoute 1 none, .removeRoute 0 none]).Intercepted
        fun _ => [ascii "example.com"] := by
  intro h
  obtain ⟨e, he, -⟩ := h 1 rfl _ List.mem_cons_self (by decide)
  cases he

end DNS
