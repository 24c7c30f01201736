/-
# Mapping updates of the reverse proxy

Model of the mapping updates of `proxy/server.go` and of the tables that they fill: the SNI routes
of the routers (the main one, those of custom ports, and with `--private-inbound` one of each
account), their fallbacks, the UDP relays, and for each host the domain of the auth middleware with
the mapping of the HTTP proxy.  An entry is made from one mapping, so a mapping stands for it.

Set-up and clean-up each have their own case analysis, and they are no inverses: a fallback is never
cleaned up for a mapping with a domain, and a host is cleaned up whoever has set it up since.

The inbound router of an account lives as long as the client of the account, which `RemovePeer`
stops with its last service key.  Routes that arrive before its listener is up are queued and
replayed in order, so that queue and router are one table here.
-/
import AnonBird.DNSNames
import AnonBird.GoMap
import AnonBird.KeyedList

open GoStrings DNSNames List

namespace ReverseProxy

export GoMap (get set)

/-- What a service speaks. -/
inductive ServiceMode where
  | http
  | tcp
  | udp
  | tls
  deriving DecidableEq

/-- `proto.ProxyMapping`, with paths and their targets, and the settings that entries carry. -/
structure ProxyMapping (α : Type) where
  id : Bytes
  accountId : Bytes
  domain : Bytes
  mode : ServiceMode
  /-- The port, with 0 for the main port of the proxy. -/
  listenPort : ℕ
  path : List (Bytes × Bytes)
  settings : α
  deriving DecidableEq

/-- The routers of SNI routes: that of a port, and the one inside the network of an account. -/
inductive Router where
  | port (port : ℕ)
  | inbound (account : Bytes)
  deriving DecidableEq

/-- The entries besides the SNI routes. -/
inductive Key where
  | fallback (port : ℕ)
  | relay (id : Bytes)
  | host (host : Bytes)
  deriving DecidableEq

/-- `roundtrip.ServiceKey`. -/
inductive ServiceKey where
  | l4 (id : Bytes)
  | domain (domain : Bytes)
  deriving DecidableEq

/-- What happens to a mapping. -/
inductive UpdateType where
  | created
  | modified
  | removed
  deriving DecidableEq

/-- An update of the management stream. -/
structure Update (α : Type) where
  type : UpdateType
  mapping : ProxyMapping α
  /-- Whether the set-up succeeds. -/
  ok : Bool := true

variable {α : Type}

/-- The modification sets the fallback of a port. -/
def Update.SetsFallback (u : Update α) (port : ℕ) : Prop :=
  u.type = .modified ∧ u.mapping.mode = .tcp ∧ port = u.mapping.listenPort

/-- `map[SNIHost][]Route` of every router. -/
abbrev Routes (α : Type) := Router → Bytes → List (ProxyMapping α)

/-- The proxy: what it routes, and the mappings it set up. -/
structure Server (α : Type) where
  /-- The proxy runs with `--private-inbound`. -/
  privateInbound : Bool := false
  routes : Routes α := fun _ _ => []
  table : Key → Option (ProxyMapping α) := fun _ => none
  svcPorts : Bytes → Option ℕ := fun _ => none
  lastMappings : List (Bytes × ProxyMapping α) := []
  /-- The accounts with the service keys that are registered for them.  The client of an account
  is created with its first key and stopped with its last. -/
  services : List (Bytes × ServiceKey) := []

/-- A service is known by its id, or by its domain. -/
def serviceKeyForMapping (m : ProxyMapping α) : ServiceKey :=
  match m.mode with
  | .tcp | .udp => .l4 m.id
  | _ => .domain m.domain

namespace ProxyMapping

variable (m : ProxyMapping α)

/-- The account with the service key of the mapping. -/
def serviceKey : Bytes × ServiceKey := (m.accountId, serviceKeyForMapping m)

/-- The inbound router of the account, if the proxy has one. -/
def inboundRouter (privateInbound : Bool) : List Router :=
  if privateInbound then [.inbound m.accountId] else []

/-- The routers on which `setupMappingRoutes` adds a route for the domain. -/
def setupRouters (privateInbound : Bool) : List Router :=
  match m.mode with
  | .tls => [.port m.listenPort]
  | .http => if m.path = [] then [] else .port 0 :: m.inboundRouter privateInbound
  | _ => []

/-- The other entries that `setupMappingRoutes` makes. -/
def setup : List Key :=
  match m.mode with
  | .tcp => [.fallback m.listenPort]
  | .udp => [.relay m.id]
  | .tls => []
  | .http => if m.path = [] then [] else [.host m.domain]

/-- The port that set-up keeps in `svcPorts`. -/
def port : Option ℕ :=
  match m.mode with
  | .tcp => some m.listenPort
  | .tls => if m.listenPort = 0 then none else some m.listenPort
  | _ => none

/-- The routers on which `cleanupMappingRoutes` removes the route for the domain, given the port
kept for the service. -/
def cleanupRouters (privateInbound : Bool) (port : Option ℕ) : List Router :=
  if m.domain = [] then []
  else .port 0 :: m.inboundRouter privateInbound ++ port.toList.map .port

/-- The other entries that `cleanupMappingRoutes` deletes. -/
def cleanup (port : Option ℕ) : List Key :=
  (if m.domain = [] then port.toList.map .fallback else [.host m.domain]) ++ [.relay m.id]

end ProxyMapping

namespace Routes

variable (R : Routes α) (rs : List Router) (m : ProxyMapping α)

/-- `Router.AddRoute` on some routers: a route of the service is replaced in its place.  An empty
host is ignored. -/
def addRoute : Routes α := fun r host =>
  if r ∈ rs ∧ m.domain ≠ [] ∧ host = toLower m.domain then
    KeyedList.put (·.id) m (R r host)
  else R r host

/-- `Router.RemoveRoute` on some routers. -/
def removeRoute : Routes α := fun r host =>
  if r ∈ rs ∧ host = toLower m.domain then (R r host).filter (·.id ≠ m.id) else R r host

/-- A host has one route of a service at most. -/
def Unique : Prop := ∀ r host, ((R r host).map (·.id)).Nodup

variable {R}

/-- A host keeps one route of a service at most. -/
theorem Unique.addRoute (h : R.Unique) : (R.addRoute rs m).Unique := by
  intro r host
  unfold Routes.addRoute
  split
  · exact KeyedList.nodup_put (h r host) m
  · exact h r host

theorem Unique.removeRoute (h : R.Unique) : (R.removeRoute rs m).Unique := by
  intro r host
  unfold Routes.removeRoute
  split
  · exact (h r host).sublist (filter_sublist.map _)
  · exact h r host

end Routes

/-- The table after some writes. -/
def assign {ν : Type} (t : Key → ν) (ws : List (Key × ν)) : Key → ν :=
  ws.foldl (fun t w => Function.update t w.1 w.2) t

/-- A written value, or the old one. -/
theorem assign_cases {ν : Type} (t : Key → ν) (ws : List (Key × ν)) (k : Key) :
    (k, assign t ws k) ∈ ws ∨ k ∉ ws.map Prod.fst ∧ assign t ws k = t k := by
  induction ws using reverseRecOn with
  | nil => exact .inr ⟨not_mem_nil, rfl⟩
  | append_singleton ws w ih =>
    have hlast : assign t (ws ++ [w]) = Function.update (assign t ws) w.1 w.2 := foldl_concat ..
    rw [hlast]
    grind [Function.update_apply]

/-- Writes after writes. -/
theorem assign_append {ν : Type} (t : Key → ν) (ws ws' : List (Key × ν)) :
    assign t (ws ++ ws') = assign (assign t ws) ws' :=
  foldl_append ..

/-- The same value is written everywhere. -/
theorem assign_map {ν : Type} (t : Key → ν) (ks : List Key) (v : ν) (k : Key) :
    assign t (ks.map (·, v)) k = if k ∈ ks then v else t k := by
  rcases assign_cases t (ks.map (·, v)) k with h | h <;> grind

open GoMap

namespace Server

variable (s : Server α) (u : Update α)

/-- The stored mapping of the service, or the one of the update. -/
def old : ProxyMapping α := (get s.lastMappings u.mapping.id).getD u.mapping

/-- The entries besides the SNI routes that `addMapping`, `modifyMapping` and `removeMapping` write,
in order.  After a set-up that fails the mapping is cleaned up. -/
def writes : List (Key × Option (ProxyMapping α)) :=
  let m := u.mapping
  let clear (m : ProxyMapping α) (port : Option ℕ) := (m.cleanup port).map (·, none)
  let setup (port : Option ℕ) := if u.ok then m.setup.map (·, some m) else clear m port
  let old := clear (s.old u) (s.svcPorts m.id)
  match u.type with
  | .created => setup (s.svcPorts m.id)
  | .modified => old ++ setup none
  | .removed => old

/-- `RemovePeer` takes the last service key of the account, so that its client is stopped. -/
def LastKey (k : Bytes × ServiceKey) (services : List (Bytes × ServiceKey)) : Prop :=
  k ∈ services ∧ ∀ k' ∈ services, k'.1 = k.1 → k' = k

instance (k : Bytes × ServiceKey) (services : List (Bytes × ServiceKey)) :
    Decidable (LastKey k services) :=
  inferInstanceAs (Decidable (_ ∧ _))

/-- The SNI routes after `RemovePeer` for the mapping: the inbound router of an account goes with
its client. -/
def removePeer (services : List (Bytes × ServiceKey)) (R : Routes α) : Routes α := fun r host =>
  if LastKey u.mapping.serviceKey services ∧ r = .inbound u.mapping.accountId then [] else R r host

/-- The SNI routes after an update. -/
def nextRoutes : Routes α :=
  let m := u.mapping
  let clear (m : ProxyMapping α) (port : Option ℕ) (R : Routes α) :=
    R.removeRoute (m.cleanupRouters s.privateInbound port) m
  let setup (R : Routes α) := R.addRoute (m.setupRouters s.privateInbound) m
  match u.type, u.ok with
  | .created, true => setup s.routes
  | .created, false =>
    removePeer u (m.serviceKey :: s.services) (clear m (s.svcPorts m.id) s.routes)
  | .modified, true => setup (clear (s.old u) (s.svcPorts m.id) s.routes)
  | .modified, false => clear m none (clear (s.old u) (s.svcPorts m.id) s.routes)
  | .removed, _ => clear (s.old u) (s.svcPorts m.id) (removePeer u s.services s.routes)

/-- One update. -/
def step : Server α where
  privateInbound := s.privateInbound
  routes := s.nextRoutes u
  table := assign s.table (s.writes u)
  svcPorts := Function.update s.svcPorts u.mapping.id
    (match u.type, u.ok with
    | .removed, _ | _, false => none
    | .created, true => u.mapping.port <|> s.svcPorts u.mapping.id
    | .modified, true => u.mapping.port)
  lastMappings :=
    match u.type, u.ok with
    | .removed, _ => erase s.lastMappings u.mapping.id
    | _, true => set s.lastMappings u.mapping.id u.mapping
    | _, false => s.lastMappings
  services :=
    match u.type, u.ok with
    | .created, true => u.mapping.serviceKey :: s.services
    | .modified, _ => s.services
    | .created, false | .removed, _ => s.services.filter (· ≠ u.mapping.serviceKey)

/-- A proxy that runs with or without `--private-inbound`, after some updates. -/
def run (privateInbound : Bool) (us : List (Update α)) : Server α :=
  us.foldl step { privateInbound }

/-! ## What an update leaves behind -/

/-- The places where clean-up looks for the SNI routes of a mapping, given the port kept for the
service. -/
def Cleaned (m : ProxyMapping α) (port : Option ℕ) (r : Router) (host : Bytes) : Prop :=
  m.domain ≠ [] ∧ host = toLower m.domain ∧
    (r = .port 0 ∨ s.privateInbound = true ∧ r = .inbound m.accountId ∨ ∃ p ∈ port, r = .port p)

/-- The places where set-up puts the SNI route of a mapping. -/
def Placed (m : ProxyMapping α) (r : Router) (host : Bytes) : Prop :=
  m.domain ≠ [] ∧ host = toLower m.domain ∧
    (m.mode = .tls ∧ r = .port m.listenPort ∨
      m.mode = .http ∧ m.path ≠ [] ∧
        (r = .port 0 ∨ s.privateInbound = true ∧ r = .inbound m.accountId))

/-- The removal of the service stops the client of the account, and its inbound router with it. -/
def Stops (r : Router) : Prop :=
  u.type = .removed ∧ LastKey u.mapping.serviceKey s.services ∧ r = .inbound u.mapping.accountId

/-- Clean-up takes the service for one without a domain, and clears the fallback of its port. -/
def ClearsFallback (port : ℕ) : Prop :=
  (s.old u).domain = [] ∧ s.svcPorts u.mapping.id = some port

/-- After a removal or a modification the SNI routes, the fallbacks and the relay of the service are
those of its new mapping, if it has one, and those of the other services are as before. -/
structure NothingLeft : Prop where
  routes : ∀ r host, ∀ m ∈ (s.step u).routes r host, m.id = u.mapping.id →
    u.type = .modified ∧ m = u.mapping ∧ s.Placed m r host
  fallback : ∀ port m, (s.step u).table (.fallback port) = some m → m.id = u.mapping.id →
    u.SetsFallback port ∧ m = u.mapping
  relay : ∀ m, (s.step u).table (.relay u.mapping.id) = some m →
    u.type = .modified ∧ u.mapping.mode = .udp ∧ m = u.mapping
  otherRoutes : ∀ r host, ((s.step u).routes r host).filter (·.id ≠ u.mapping.id) =
    (s.routes r host).filter (·.id ≠ u.mapping.id)
  otherFallback : ∀ port m, m.id ≠ u.mapping.id →
    ((s.step u).table (.fallback port) = some m ↔ s.table (.fallback port) = some m)
  otherRelay : ∀ id, id ≠ u.mapping.id → (s.step u).table (.relay id) = s.table (.relay id)

/-- The update reaches every SNI route and every fallback that the service has, and no fallback and
no inbound router of another service. -/
structure Reaches : Prop where
  routes : ∀ r host, (∃ m ∈ s.routes r host, m.id = u.mapping.id) →
    s.Cleaned (s.old u) (s.svcPorts u.mapping.id) r host ∨
      u.type = .modified ∧ s.Placed u.mapping r host ∨ s.Stops u r
  fallback : ∀ port m, s.table (.fallback port) = some m →
    (m.id = u.mapping.id ↔ s.ClearsFallback u port ∨ u.SetsFallback port)
  inbound : ∀ r host, s.Stops u r → ∀ m ∈ s.routes r host, m.id = u.mapping.id

/-- Mappings are stored under their ids. -/
def Keyed : Prop := ∀ id m, get s.lastMappings id = some m → m.id = id

variable {s u} {m : ProxyMapping α} {port : Option ℕ} {r : Router} {host : Bytes}

/-- Where a service is removed. -/
theorem mem_cleanupRouters :
    r ∈ m.cleanupRouters s.privateInbound port ∧ host = toLower m.domain ↔
      s.Cleaned m port r host := by
  unfold ProxyMapping.cleanupRouters ProxyMapping.inboundRouter Cleaned
  cases port <;> grind

/-- Where a service is added. -/
theorem mem_setupRouters :
    r ∈ m.setupRouters s.privateInbound ∧ m.domain ≠ [] ∧ host = toLower m.domain ↔
      s.Placed m r host := by
  unfold ProxyMapping.setupRouters ProxyMapping.inboundRouter Placed
  grind

/-- The mapping of before has the id of the update. -/
theorem Keyed.old_id (h : s.Keyed) : (s.old u).id = u.mapping.id := by
  unfold old
  cases hget : get s.lastMappings u.mapping.id with
  | none => rfl
  | some m => exact h _ _ hget

/-- Mappings stay under their ids. -/
theorem Keyed.step (h : s.Keyed) (u : Update α) : (s.step u).Keyed := by
  intro id m hget
  unfold Server.step at hget
  dsimp only at hget
  split at hget
  · exact h id m (get_of_get_erase hget).2
  · grind [get_set, Keyed]
  · exact h id m hget

/-- Hosts keep one route of a service at most. -/
theorem unique_removePeer {R : Routes α} (h : R.Unique) (services : List (Bytes × ServiceKey)) :
    (removePeer u services R).Unique := by
  intro r host
  unfold removePeer
  split
  · exact nodup_nil
  · exact h r host

theorem unique_step (h : s.routes.Unique) (u : Update α) : (s.step u).routes.Unique := by
  unfold Server.step nextRoutes
  dsimp only
  split
  · exact h.addRoute _ _
  · exact unique_removePeer (h.removeRoute _ _) _
  · exact (h.removeRoute _ _).addRoute _ _
  · exact (h.removeRoute _ _).removeRoute _ _
  · exact (unique_removePeer h _).removeRoute _ _

/-- The last update of a run. -/
theorem run_concat (privateInbound : Bool) (us : List (Update α)) (u : Update α) :
    run privateInbound (us ++ [u]) = (run privateInbound us).step u :=
  foldl_concat ..

/-- What holds of the start and is kept by an update holds after all updates. -/
theorem run_induction {P : Server α → Prop} {privateInbound : Bool}
    (hinit : P { privateInbound }) (hstep : ∀ s u, P s → P (s.step u)) (us : List (Update α)) :
    P (run privateInbound us) := by
  induction us using reverseRecOn with
  | nil => exact hinit
  | append_singleton us u ih =>
    rw [run_concat]
    exact hstep _ u ih

/-- Along every run mappings are under their ids. -/
theorem keyed_run (privateInbound : Bool) (us : List (Update α)) :
    (run privateInbound us).Keyed :=
  run_induction nofun (fun _ u h => h.step u) us

/-- Along every run a host has one route of a service at most. -/
theorem unique_run (privateInbound : Bool) (us : List (Update α)) :
    (run privateInbound us).routes.Unique :=
  run_induction (P := fun s => s.routes.Unique) (fun _ _ => nodup_nil)
    (fun _ u h => unique_step h u) us

open Classical in
/-- The routes after a service is removed. -/
theorem removeRoute_cleanup (R : Routes α) :
    R.removeRoute (m.cleanupRouters s.privateInbound port) m r host =
      if s.Cleaned m port r host then (R r host).filter (·.id ≠ m.id) else R r host := by
  unfold Routes.removeRoute
  simp only [mem_cleanupRouters]

open Classical in
/-- The routes after a service is added. -/
theorem addRoute_setup (R : Routes α) :
    R.addRoute (m.setupRouters s.privateInbound) m r host =
      if s.Placed m r host then KeyedList.put (·.id) m (R r host) else R r host := by
  unfold Routes.addRoute
  simp only [mem_setupRouters]

open Classical in
/-- The SNI routes after a creation. -/
theorem routes_created (hok : u.ok = true) (htype : u.type = .created) (r : Router)
    (host : Bytes) :
    (s.step u).routes r host =
      if s.Placed u.mapping r host then KeyedList.put (·.id) u.mapping (s.routes r host)
      else s.routes r host := by
  unfold Server.step nextRoutes
  rw [htype, hok]
  exact addRoute_setup s.routes

/-- The other entries after a creation. -/
theorem table_created (hok : u.ok = true) (htype : u.type = .created) (k : Key) :
    (s.step u).table k = if k ∈ u.mapping.setup then some u.mapping else s.table k := by
  unfold Server.step writes
  simp [htype, hok, assign_map]

open Classical in
/-- The SNI routes after a removal or a modification. -/
theorem routes_step (hkeyed : s.Keyed) (hok : u.ok = true) (htype : u.type ≠ .created)
    (r : Router) (host : Bytes) :
    (s.step u).routes r host =
      let l := if s.Stops u r then [] else s.routes r host
      let l' := if s.Cleaned (s.old u) (s.svcPorts u.mapping.id) r host then
        l.filter (·.id ≠ u.mapping.id) else l
      if u.type = .modified ∧ s.Placed u.mapping r host then KeyedList.put (·.id) u.mapping l'
      else l' := by
  have hold := @hkeyed.old_id _ _ u
  unfold Server.step nextRoutes Stops
  cases hu : u.type with
  | created => exact absurd hu htype
  | modified => simp [hok, addRoute_setup, removeRoute_cleanup, hold]
  | removed => simp [removeRoute_cleanup, removePeer, hold]

/-- The other entries after a removal or a modification. -/
theorem table_step (hok : u.ok = true) (htype : u.type ≠ .created) (k : Key) :
    (s.step u).table k =
      if u.type = .modified ∧ k ∈ u.mapping.setup then some u.mapping
      else if k ∈ (s.old u).cleanup (s.svcPorts u.mapping.id) then none else s.table k := by
  unfold Server.step writes
  cases hu : u.type with
  | created => exact absurd hu htype
  | modified => simp [hok, assign_append, assign_map]
  | removed => simp [assign_map]

section Step

variable (hkeyed : s.Keyed) (hunique : s.routes.Unique) (hok : u.ok = true)
  (htype : u.type ≠ .created)

include hkeyed hunique hok htype

/-- The SNI routes of a host after the update, split by service. -/
theorem mem_routes_step :
    m ∈ (s.step u).routes r host ↔
      (u.type = .modified ∧ s.Placed u.mapping r host ∧ m = u.mapping) ∨
      m ∈ s.routes r host ∧ ¬ s.Stops u r ∧
        (m.id = u.mapping.id → ¬ s.Cleaned (s.old u) (s.svcPorts u.mapping.id) r host ∧
          ¬ (u.type = .modified ∧ s.Placed u.mapping r host)) := by
  rw [routes_step hkeyed hok htype]
  have hnodup := hunique r host
  dsimp only
  split
  · rw [KeyedList.mem_put]
    · grind
    · split
      · refine Nodup.sublist (filter_sublist.map _) ?_
        split
        · exact nodup_nil
        · exact hnodup
      · split
        · exact nodup_nil
        · exact hnodup
  · grind

omit hunique in
open Classical in
/-- The SNI routes of the other services after the update. -/
theorem filter_routes_step :
    ((s.step u).routes r host).filter (·.id ≠ u.mapping.id) =
      if s.Stops u r then [] else (s.routes r host).filter (·.id ≠ u.mapping.id) := by
  have hclean : ∀ (p : Prop) (l : List (ProxyMapping α)),
      (if p then l.filter (·.id ≠ u.mapping.id) else l).filter (·.id ≠ u.mapping.id) =
        l.filter (·.id ≠ u.mapping.id) := by
    intro p l
    split
    · simp [filter_filter]
    · rfl
  rw [routes_step hkeyed hok htype]
  dsimp only
  rw [apply_ite (filter _), KeyedList.filter_put, ite_self, hclean, apply_ite (filter _),
    filter_nil]

/-- **Nothing is left behind** by a removal or a modification if and only if it reaches what the
service has, and nothing else. -/
theorem nothingLeft_iff : s.NothingLeft u ↔ s.Reaches u := by
  have hmem := fun {r host m} => @mem_routes_step _ s u m r host hkeyed hunique hok htype
  have hfilter := fun {r host} => @filter_routes_step _ s u r host hkeyed hok htype
  have htable := fun k => @table_step _ s u hok htype k
  have hold := @hkeyed.old_id _ _ u
  constructor
  · intro h
    refine ⟨fun r host hroute => ?_, fun port m hm => ?_, fun r host hstops m hm => ?_⟩
    · obtain ⟨m, hm, hid⟩ := hroute
      by_contra! hno
      have hleft : m ∈ (s.step u).routes r host :=
        hmem.mpr (.inr ⟨hm, hno.2.2, fun _ => ⟨hno.1, fun hp => hno.2.1 hp.1 hp.2⟩⟩)
      obtain ⟨hmod, rfl, hplaced⟩ := h.routes r host m hleft hid
      exact hno.2.1 hmod hplaced
    · have hown := h.fallback port m
      have hother := h.otherFallback port m
      rw [htable] at hown hother
      unfold ClearsFallback Update.SetsFallback at *
      unfold ProxyMapping.setup ProxyMapping.cleanup at hown hother
      grind
    · have hother := h.otherRoutes r host
      rw [hfilter, if_pos hstops] at hother
      by_contra hid
      exact not_mem_nil (hother ▸ mem_filter.mpr ⟨hm, by simpa using hid⟩)
  · intro h
    refine ⟨fun r host m hm hid => ?_, fun port m hm hid => ?_, fun m hm => ?_,
      fun r host => ?_, fun port m hid => ?_, fun id hid => ?_⟩
    · rcases hmem.mp hm with ⟨hmod, hplaced, rfl⟩ | ⟨hm, hstops, hno⟩
      · exact ⟨hmod, rfl, hplaced⟩
      · have := h.routes r host ⟨m, hm, hid⟩
        have := hno hid
        tauto
    · have hreach := h.fallback port m
      rw [htable] at hm
      unfold ClearsFallback Update.SetsFallback at *
      unfold ProxyMapping.setup ProxyMapping.cleanup at hm
      grind
    · rw [htable] at hm
      unfold ProxyMapping.setup ProxyMapping.cleanup at hm
      grind
    · rw [hfilter]
      split
      next hstops =>
        refine (filter_eq_nil_iff.mpr fun m hm => ?_).symm
        simpa using h.inbound r host hstops m hm
      · rfl
    · have hreach := h.fallback port
      rw [htable]
      unfold ClearsFallback Update.SetsFallback at *
      unfold ProxyMapping.setup ProxyMapping.cleanup
      grind
    · rw [htable]
      unfold ProxyMapping.setup ProxyMapping.cleanup
      grind

end Step

variable (s u)

/-- The update is not of a TCP service, creates no service that is there, and stops the client of
the account for its last service only. -/
structure Orderly : Prop where
  mode : u.mapping.mode ≠ .tcp
  created : u.type = .created → get s.lastMappings u.mapping.id = none
  removed : u.type = .removed → LastKey u.mapping.serviceKey s.services →
    ∀ id m, get s.lastMappings id = some m → m.accountId = u.mapping.accountId →
      id = u.mapping.id

/-- Every SNI route is the one that set-up puts for a stored mapping, whose port is kept, and there
is no fallback. -/
structure Tracked : Prop where
  routes : ∀ r host, ∀ m ∈ s.routes r host, get s.lastMappings m.id = some m ∧ s.Placed m r host
  ports : ∀ id m, get s.lastMappings id = some m → m.mode = .tls → m.listenPort ≠ 0 →
    s.svcPorts id = some m.listenPort
  fallback : ∀ port, s.table (.fallback port) = none

variable {s u}

/-- An orderly update finds what the last one set up. -/
theorem Tracked.reaches (h : s.Tracked) (hu : s.Orderly u) : s.Reaches u := by
  refine ⟨fun r host ⟨m, hm, hid⟩ => ?_, fun port m hm => ?_, fun r host hstops m hm => ?_⟩
  · obtain ⟨hget, hdomain, hhost, hplace⟩ := h.routes r host m hm
    rw [hid] at hget
    have hold : s.old u = m := by simp [old, hget]
    have hport := h.ports _ m hget
    rw [hold]
    refine .inl ⟨hdomain, hhost, ?_⟩
    by_cases hmain : m.listenPort = 0 <;> grind
  · simp [h.fallback] at hm
  · obtain ⟨hremoved, hlast, rfl⟩ := hstops
    obtain ⟨hget, -, -, hplace⟩ := h.routes _ host m hm
    exact hu.removed hremoved hlast m.id m hget (by grind)

/-- What clean-up takes away is what set-up has put. -/
theorem Tracked.step (h : s.Tracked) (hkeyed : s.Keyed) (hunique : s.routes.Unique)
    (hok : u.ok = true) (hu : s.Orderly u) : (s.step u).Tracked := by
  have hmode := hu.mode
  have hstored : ∀ id, get (s.step u).lastMappings id =
      if id = u.mapping.id then if u.type = .removed then none else some u.mapping
      else get s.lastMappings id := by
    intro id
    unfold Server.step
    by_cases hid : id = u.mapping.id <;> cases u.type <;>
      simp [hok, hid, get_set, get_erase_of_ne]
  have hports : ∀ id, (s.step u).svcPorts id =
      if id = u.mapping.id then (s.step u).svcPorts u.mapping.id else s.svcPorts id := by
    intro id
    unfold Server.step
    by_cases hid : id = u.mapping.id
    · simp [hid]
    · simp [hid]
  have hown : u.type ≠ .removed → u.mapping.mode = .tls → u.mapping.listenPort ≠ 0 →
      (s.step u).svcPorts u.mapping.id = some u.mapping.listenPort := by
    intro htype htls hport
    have : u.mapping.port = some u.mapping.listenPort := by simp [ProxyMapping.port, htls, hport]
    unfold Server.step
    cases hu : u.type <;> simp_all
  have hplaced : ∀ m r host, (s.step u).Placed m r host ↔ s.Placed m r host := fun _ _ _ => .rfl
  refine ⟨fun r host m hm => ?_, fun id m hget => ?_, fun port => ?_⟩
  · rw [hplaced, hstored]
    by_cases htype : u.type = .created
    · have hnone := hu.created htype
      rw [routes_created hok htype] at hm
      have hroutes := h.routes r host
      split at hm
      · rw [KeyedList.mem_put (hunique r host)] at hm
        grind
      · grind
    · have hreaches := (h.reaches hu).routes r host
      rcases (mem_routes_step hkeyed hunique hok htype).mp hm with
        ⟨hmod, hnew, rfl⟩ | ⟨hm, hstops, hno⟩
      · simp [hmod, hnew]
      · have hid : m.id ≠ u.mapping.id := by
          intro hid
          have := hreaches ⟨m, hm, hid⟩
          have := hno hid
          tauto
        rw [if_neg hid]
        exact h.routes r host m hm
  · have hports := hports id
    have hold := h.ports id m
    rw [hstored] at hget
    grind
  · have hold := h.fallback port
    by_cases htype : u.type = .created
    · have hset : Key.fallback port ∉ u.mapping.setup := by
        unfold ProxyMapping.setup
        grind
      rw [table_created hok htype, if_neg hset, hold]
    · rw [table_step hok htype]
      unfold ProxyMapping.setup
      grind

end Server

open Server

/-- **A removed service leaves nothing behind**, and no other service is touched, exactly if the
update reaches what the service has and nothing else; and every update of a sequence does if none of
them is for a TCP service or creates one that is there, and clients stop for their last service
only. -/
theorem nothingLeft_run_iff (privateInbound : Bool) (us : List (Update α))
    (hok : ∀ u ∈ us, u.ok = true) :
    (∀ pre u, pre ++ [u] <+: us → u.type ≠ .created →
      ((run privateInbound pre).NothingLeft u ↔ (run privateInbound pre).Reaches u)) ∧
    ((∀ pre u, pre ++ [u] <+: us → (run privateInbound pre).Orderly u) →
      ∀ pre u, pre ++ [u] <+: us → u.type ≠ .created →
        (run privateInbound pre).NothingLeft u) := by
  have hiff : ∀ pre u, pre ++ [u] <+: us → u.type ≠ .created →
      ((run privateInbound pre).NothingLeft u ↔ (run privateInbound pre).Reaches u) := by
    intro pre u hpre htype
    exact nothingLeft_iff (keyed_run _ pre) (unique_run _ pre) (hok u (hpre.mem (by simp))) htype
  refine ⟨hiff, fun horderly pre u hpre htype => (hiff pre u hpre htype).mpr ?_⟩
  have htracked : ∀ pre, pre <+: us → (run privateInbound pre).Tracked := by
    intro pre
    induction pre using reverseRecOn with
    | nil => exact fun _ => ⟨nofun, nofun, fun _ => rfl⟩
    | append_singleton pre u ih =>
      intro hpre
      rw [run_concat]
      exact (ih ((prefix_append pre [u]).trans hpre)).step (keyed_run _ pre) (unique_run _ pre)
        (hok u (hpre.mem (by simp))) (horderly pre u hpre)
  exact (htracked pre ((prefix_append pre [u]).trans hpre)).reaches (horderly pre u hpre)

/-- A database behind a port. -/
def tcpMapping : ProxyMapping Unit :=
  ⟨ascii "s", ascii "a", ascii "db.example.com", .tcp, 5432,
    [(ascii "/", ascii "10.0.0.5:5432")], ()⟩

/-- The fallback of a TCP service outlives the service. -/
theorem fallback_left_behind :
    (run false [⟨.created, tcpMapping, true⟩, ⟨.removed, tcpMapping, true⟩]).table
      (.fallback 5432) = some tcpMapping := by
  decide

/-- A service with a TLS port of its own is removed without a trace. -/
theorem tls_left_nothing :
    let m : ProxyMapping Unit := { tcpMapping with mode := .tls, listenPort := 8443 }
    (run true [⟨.created, m, true⟩]).NothingLeft ⟨.removed, m, true⟩ := by
  intro m
  refine (nothingLeft_run_iff true [⟨.created, m, true⟩, ⟨.removed, m, true⟩] (by simp)).2
    ?_ [⟨.created, m, true⟩] ⟨.removed, m, true⟩ (prefix_refl _) nofun
  rintro pre u ⟨rest, hrest⟩
  have hstored : ∀ id m', get (run true [⟨.created, m, true⟩]).lastMappings id = some m' →
      id = m.id := by
    intro id m' hget
    have : get [(m.id, m)] id = some m' := hget
    simp only [get, find?_singleton] at this
    grind
  rcases pre with _ | ⟨v, _ | ⟨w, pre⟩⟩
  · obtain ⟨rfl, -⟩ : u = ⟨.created, m, true⟩ ∧ _ := by simpa using hrest
    exact ⟨by decide, fun _ => rfl, nofun⟩
  · obtain ⟨rfl, rfl, -⟩ : v = ⟨.created, m, true⟩ ∧ u = ⟨.removed, m, true⟩ ∧ _ := by
      simpa using hrest
    exact ⟨by decide, nofun, fun _ _ id m' hget _ => hstored id m' hget⟩
  · have := congrArg length hrest
    simp at this

/-! ## Snapshots -/

namespace Server

/-- The creations of a snapshot. -/
def create (s : Server α) (ms : List (ProxyMapping α)) : Server α :=
  ms.foldl (fun s m => s.step ⟨.created, m, true⟩) s

/-- `removeMapping` of a stored mapping. -/
def remove (s : Server α) (id : Bytes) : Server α :=
  match get s.lastMappings id with
  | none => s
  | some m => s.step ⟨.removed, m, true⟩

/-- The stored mappings that a snapshot does not have. -/
def stale (ord : RangeOrder Bytes) (s : Server α) (ms : List (ProxyMapping α)) :
    List Bytes :=
  (ord.order (keys s.lastMappings)).filter (· ∉ ms.map (·.id))

/-- A snapshot, and `reconcileSnapshot` after it. -/
def snapshot (ord : RangeOrder Bytes) (s : Server α) (ms : List (ProxyMapping α)) :
    Server α :=
  (stale ord (s.create ms) ms).foldl remove (s.create ms)

section

variable (s : Server α) (ids : List Bytes) (ms : List (ProxyMapping α))

/-- The mapping is stored under one of the ids. -/
def Stored (old : ProxyMapping α) : Prop := old.id ∈ ids ∧ get s.lastMappings old.id = some old

/-- The clean-up of a mapping stored under the ids deletes the entry. -/
def Deletes (k : Key) : Prop := ∃ old, s.Stored ids old ∧ k ∈ old.cleanup (s.svcPorts old.id)

/-- The clean-up of the mapping stored under the id, which is one of the ids, removes the SNI route
of the service from the host. -/
def Removes (r : Router) (host id : Bytes) : Prop :=
  ∃ old, s.Stored ids old ∧ old.id = id ∧ s.Cleaned old (s.svcPorts id) r host

/-- Every service key of the account is the key of a mapping stored under the ids. -/
def StopsClient (r : Router) : Prop :=
  ∃ account, r = .inbound account ∧ (∃ k ∈ s.services, k.1 = account) ∧
    ∀ k ∈ s.services, k.1 = account → ∃ old, s.Stored ids old ∧ old.serviceKey = k

end

variable {s : Server α}

/-- What a snapshot adds. -/
theorem create_concat (s : Server α) (ms : List (ProxyMapping α)) (m : ProxyMapping α) :
    s.create (ms ++ [m]) = (s.create ms).step ⟨.created, m, true⟩ :=
  foldl_concat ..

theorem Keyed.create (h : s.Keyed) (ms : List (ProxyMapping α)) : (s.create ms).Keyed := by
  induction ms using reverseRecOn with
  | nil => exact h
  | append_singleton ms m ih =>
    rw [create_concat]
    exact ih.step _

/-- The flag stays. -/
theorem privateInbound_create (ms : List (ProxyMapping α)) :
    (s.create ms).privateInbound = s.privateInbound := by
  induction ms using reverseRecOn with
  | nil => rfl
  | append_singleton ms m ih =>
    rw [create_concat]
    exact ih

/-- What is kept for a service that the snapshot does not have stays. -/
theorem create_kept (ms : List (ProxyMapping α)) {id : Bytes} (hid : id ∉ ms.map (·.id)) :
    get (s.create ms).lastMappings id = get s.lastMappings id ∧
      (s.create ms).svcPorts id = s.svcPorts id := by
  induction ms using reverseRecOn with
  | nil => exact ⟨rfl, rfl⟩
  | append_singleton ms m ih =>
    simp only [map_append, mem_append, not_or] at hid
    have hne : id ≠ m.id := by simpa using hid.2
    rw [create_concat]
    simpa [step, get_set, hne] using ih hid.1

/-- The services of the mappings are added. -/
theorem mem_services_create (ms : List (ProxyMapping α)) {k : Bytes × ServiceKey} :
    k ∈ (s.create ms).services ↔ k ∈ s.services ∨ ∃ m ∈ ms, m.serviceKey = k := by
  induction ms using reverseRecOn with
  | nil => simp [create]
  | append_singleton ms m ih =>
    rw [create_concat]
    simp only [step, mem_cons, ih, mem_append, not_mem_nil]
    grind

/-- The entries of the mappings are written over the old ones. -/
theorem table_create (ms : List (ProxyMapping α)) (k : Key) :
    (s.create ms).table k = ((create {} ms).table k).or (s.table k) ∧
      ((create {} ms).table k = none ↔ ∀ m ∈ ms, k ∉ m.setup) := by
  induction ms using reverseRecOn with
  | nil => simp [create]
  | append_singleton ms m ih =>
    rw [create_concat, create_concat, table_created rfl rfl, table_created rfl rfl]
    grind

open Classical in
/-- The mappings are put where they are placed. -/
theorem routes_create (ms : List (ProxyMapping α)) (r : Router) (host : Bytes) :
    (s.create ms).routes r host =
      KeyedList.putAll (·.id) (s.routes r host) (ms.filter (s.Placed · r host)) := by
  induction ms using reverseRecOn with
  | nil => rfl
  | append_singleton ms m ih =>
    have hplaced : (s.create ms).Placed m r host ↔ s.Placed m r host := by
      unfold Placed
      rw [privateInbound_create]
    rw [create_concat, routes_created rfl rfl, ih, filter_append]
    by_cases hm : s.Placed m r host
    · rw [if_pos (hplaced.mpr hm), filter_cons_of_pos (by simpa using hm), filter_nil,
        KeyedList.putAll_concat]
    · rw [if_neg (mt hplaced.mp hm), filter_cons_of_neg (by simpa using hm), filter_nil, append_nil]

section

variable {id : Bytes} {ids : List Bytes} {old : ProxyMapping α}

theorem Keyed.remove (h : s.Keyed) (id : Bytes) : (s.remove id).Keyed := by
  unfold Server.remove
  split
  · exact h
  · exact h.step _

/-- An unknown id removes nothing. -/
theorem stored_cons_of_none (hget : get s.lastMappings id = none) :
    s.Stored (id :: ids) = s.Stored ids := by
  funext old
  unfold Stored
  grind

/-- What the removal of a stored mapping leaves for the next ones. -/
theorem remove_kept (ids : List Bytes) (hget : get s.lastMappings id = some old)
    (hid : old.id = id) :
    (∀ old', s.Stored (id :: ids) old' ↔ old' = old ∨ (s.remove id).Stored ids old') ∧
    (∀ old', (s.remove id).Stored ids old' →
      old'.id ≠ id ∧ (s.remove id).svcPorts old'.id = s.svcPorts old'.id) ∧
    ∀ k, k ∈ (s.remove id).services ↔ k ∈ s.services ∧ k ≠ old.serviceKey := by
  subst hid
  unfold remove Stored
  simp only [hget, step]
  refine ⟨fun old' => ?_, fun old' hold' => ?_, fun k => by simp⟩
  · by_cases hid' : old'.id = old.id
    · grind [get_erase_self]
    · rw [get_erase_of_ne hid', mem_cons]
      grind
  · have hid' := (get_of_get_erase hold'.2).1
    exact ⟨hid', by simp [hid']⟩

/-- The entries that are left after the mappings of some ids are removed. -/
theorem table_removes (ids : List Bytes) (h : s.Keyed) (k : Key) :
    (ids.foldl remove s).table k = none ∧ s.Deletes ids k ∨
      (ids.foldl remove s).table k = s.table k ∧ ¬ s.Deletes ids k := by
  induction ids generalizing s with
  | nil => exact .inr ⟨rfl, fun ⟨_, hold, _⟩ => not_mem_nil hold.1⟩
  | cons id ids ih =>
    have hrest := ih (h.remove id)
    rw [foldl_cons]
    cases hget : get s.lastMappings id with
    | none =>
      have hsame : s.remove id = s := by simp [remove, hget]
      rw [hsame] at hrest ⊢
      unfold Deletes at hrest ⊢
      rwa [stored_cons_of_none hget]
    | some old =>
      have hid := h id old hget
      obtain ⟨hstored, hports, -⟩ := remove_kept ids hget hid
      have htable : (s.remove id).table k =
          if k ∈ old.cleanup (s.svcPorts id) then none else s.table k := by
        have hstep : s.remove id = s.step ⟨.removed, old, true⟩ := by simp [remove, hget]
        have hold : s.old ⟨.removed, old, true⟩ = old := by simp [Server.old, hid, hget]
        rw [hstep, table_step rfl (by simp), hold]
        simp [hid]
      have hdeletes : s.Deletes (id :: ids) k ↔
          k ∈ old.cleanup (s.svcPorts id) ∨ (s.remove id).Deletes ids k := by
        unfold Deletes
        simp only [hstored]
        grind
      grind

/-- The client is stopped by the removal at hand or by those that follow. -/
theorem stopsClient_cons (h : s.Keyed) (hget : get s.lastMappings id = some old) (r : Router) :
    s.StopsClient (id :: ids) r ↔
      LastKey old.serviceKey s.services ∧ r = .inbound old.accountId ∨
        (s.remove id).StopsClient ids r := by
  obtain ⟨hstored, -, hservices⟩ := remove_kept ids hget (h id old hget)
  have hkey : old.serviceKey.1 = old.accountId := rfl
  unfold StopsClient LastKey
  simp only [hstored, hservices]
  constructor
  · rintro ⟨account, rfl, ⟨k, hk, hk1⟩, hall⟩
    by_cases hmore : ∃ k' ∈ s.services, k'.1 = account ∧ k' ≠ old.serviceKey
    · obtain ⟨k', hk', hk1', hne⟩ := hmore
      refine .inr ⟨account, rfl, ⟨k', ⟨hk', hne⟩, hk1'⟩, fun k'' hk'' hk1'' => ?_⟩
      obtain ⟨old', rfl | hold', hkey'⟩ := hall k'' hk''.1 hk1''
      · exact absurd hkey'.symm hk''.2
      · exact ⟨old', hold', hkey'⟩
    · push Not at hmore
      obtain rfl := hmore k hk hk1
      exact .inl ⟨⟨hk, fun k' hk' hk1' => hmore k' hk' (hk1'.trans hk1)⟩, by rw [← hk1, hkey]⟩
  · rintro (⟨⟨hmem, hlast⟩, rfl⟩ | ⟨account, rfl, ⟨k, ⟨hk, -⟩, hk1⟩, hall⟩)
    · exact ⟨old.accountId, rfl, ⟨_, hmem, rfl⟩, fun k hk hk1 =>
        ⟨old, .inl rfl, (hlast k hk hk1).symm⟩⟩
    · refine ⟨account, rfl, ⟨k, hk, hk1⟩, fun k' hk' hk1' => ?_⟩
      by_cases heq : k' = old.serviceKey
      · exact ⟨old, .inl rfl, heq.symm⟩
      · obtain ⟨old', hold', hkey'⟩ := hall k' ⟨hk', heq⟩ hk1'
        exact ⟨old', .inr hold', hkey'⟩

open Classical in
/-- The SNI routes that are left after the mappings of some ids are removed. -/
theorem routes_removes (ids : List Bytes) (h : s.Keyed) (r : Router) (host : Bytes) :
    (ids.foldl remove s).routes r host =
      if s.StopsClient ids r then []
      else (s.routes r host).filter fun m => ¬ s.Removes ids r host m.id := by
  induction ids generalizing s with
  | nil =>
    have hstored : ∀ old, ¬ s.Stored [] old := fun old hold => not_mem_nil hold.1
    have hstops : ¬ s.StopsClient [] r := by
      rintro ⟨account, -, ⟨k, hk, hk1⟩, hall⟩
      obtain ⟨old, hold, -⟩ := hall k hk hk1
      exact hstored old hold
    rw [if_neg hstops]
    simp [Removes, hstored]
  | cons id ids ih =>
    rw [foldl_cons, ih (h.remove id)]
    cases hget : get s.lastMappings id with
    | none =>
      have hsame : s.remove id = s := by simp [remove, hget]
      unfold StopsClient Removes
      rw [hsame, stored_cons_of_none hget]
    | some old =>
      have hid := h id old hget
      obtain ⟨hstored, hports, -⟩ := remove_kept ids hget hid
      have hroutes : (s.remove id).routes r host =
          let l := if LastKey old.serviceKey s.services ∧ r = .inbound old.accountId then []
            else s.routes r host
          if s.Cleaned old (s.svcPorts id) r host then l.filter (·.id ≠ id) else l := by
        have hstep : s.remove id = s.step ⟨.removed, old, true⟩ := by simp [remove, hget]
        have hold : s.old ⟨.removed, old, true⟩ = old := by simp [Server.old, hid, hget]
        rw [hstep, routes_step h rfl (by simp), hold]
        simp [hid, Stops]
      have hcleaned : ∀ old' port, (s.remove id).Cleaned old' port r host ↔
          s.Cleaned old' port r host := by
        intro old' port
        have hflag : (s.remove id).privateInbound = s.privateInbound := by simp [remove, hget, step]
        unfold Cleaned
        rw [hflag]
      have hremoves : ∀ id', s.Removes (id :: ids) r host id' ↔
          id' = id ∧ s.Cleaned old (s.svcPorts id) r host ∨
            (s.remove id).Removes ids r host id' := by
        intro id'
        unfold Removes
        simp only [hstored, hcleaned]
        grind
      rw [hroutes]
      simp only [stopsClient_cons h hget, hremoves]
      by_cases hlast : LastKey old.serviceKey s.services ∧ r = .inbound old.accountId
      · simp [hlast]
      · simp only [hlast, if_false, false_or]
        split
        · rfl
        · split
          next hclean => simp [hclean, filter_filter, Bool.and_comm]
          next hclean => simp [hclean]

end

/-! ### What a snapshot does to the entries -/

section

variable (s : Server α) (ms : List (ProxyMapping α))

/-- The mapping is stored, and the snapshot has none with its id. -/
def Stale (old : ProxyMapping α) : Prop :=
  get s.lastMappings old.id = some old ∧ old.id ∉ ms.map (·.id)

/-- The clean-up of a stale mapping deletes the entry. -/
def StaleEntry (k : Key) : Prop :=
  ∃ old, s.Stale ms old ∧ k ∈ old.cleanup (s.svcPorts old.id)

/-- The clean-up of the stale mapping of the service removes its SNI route from the host. -/
def StaleRoute (r : Router) (host id : Bytes) : Prop :=
  ∃ old, s.Stale ms old ∧ old.id = id ∧ s.Cleaned old (s.svcPorts id) r host

/-- The service key is registered before the snapshot or by it. -/
def Registered (k : Bytes × ServiceKey) : Prop := k ∈ s.services ∨ ∃ m ∈ ms, m.serviceKey = k

/-- All service keys of the account are keys of stale mappings, so that the client of the account
is stopped and takes the inbound router along. -/
def StaleRouter (r : Router) : Prop :=
  ∃ account, r = .inbound account ∧ (∃ k, s.Registered ms k ∧ k.1 = account) ∧
    ∀ k, s.Registered ms k → k.1 = account → ∃ old, s.Stale ms old ∧ old.serviceKey = k

/-- The tables are filled as a fresh proxy fills them: what stale mappings delete is not of the
snapshot, and what they do not delete is overwritten by it. -/
def EntriesFit : Prop :=
  ∀ k, (s.StaleEntry ms k → ∀ m ∈ ms, k ∉ m.setup) ∧
    (s.table k ≠ none → s.StaleEntry ms k ∨ ∃ m ∈ ms, k ∈ m.setup)

open Classical in
/-- The SNI routes are listed as a fresh proxy lists them: a router that goes with its client has no
route of the snapshot, and at any other one the services whose routes are not stale are the first
that the snapshot has for the host, in the same order. -/
def RoutesFit : Prop :=
  ∀ r host,
    if s.StaleRouter ms r then ∀ m ∈ ms, ¬ s.Placed m r host
    else ((s.routes r host).filter fun m => ¬ s.StaleRoute ms r host m.id).map (·.id) <+:
      ((ms.filter (s.Placed · r host)).map (·.id)).eraseDups

end

variable {ord : RangeOrder Bytes} {ms : List (ProxyMapping α)}

/-- The mappings that are removed are the stale ones. -/
theorem stored_stale (old : ProxyMapping α) :
    (s.create ms).Stored (stale ord (s.create ms) ms) old ↔ s.Stale ms old := by
  have hkeys := @mem_keys _ _ _ (s.create ms).lastMappings old.id
  unfold Stored Stale
  rw [stale, mem_filter, ord.mem_order, decide_eq_true_eq]
  constructor
  · rintro ⟨⟨-, hid⟩, hget⟩
    exact ⟨(create_kept ms hid).1 ▸ hget, hid⟩
  · rintro ⟨hget, hid⟩
    have hget' := (create_kept (s := s) ms hid).1.trans hget
    exact ⟨⟨hkeys.mpr ⟨old, hget'⟩, hid⟩, hget'⟩

/-- The entries that are deleted are those of stale mappings. -/
theorem deletes_stale (k : Key) :
    (s.create ms).Deletes (stale ord (s.create ms) ms) k ↔ s.StaleEntry ms k := by
  unfold Deletes StaleEntry
  refine exists_congr fun old => ?_
  rw [stored_stale]
  exact and_congr_right fun hold => by rw [(create_kept ms hold.2).2]

/-- The routes that are removed are those of stale mappings. -/
theorem removes_stale (r : Router) (host id : Bytes) :
    (s.create ms).Removes (stale ord (s.create ms) ms) r host id ↔ s.StaleRoute ms r host id := by
  unfold Removes StaleRoute Cleaned
  refine exists_congr fun old => ?_
  rw [stored_stale, privateInbound_create]
  refine and_congr_right fun hold => and_congr_right fun hid => ?_
  rw [← hid, (create_kept ms hold.2).2]

/-- The clients that are stopped are those with stale mappings only. -/
theorem stopsClient_stale (r : Router) :
    (s.create ms).StopsClient (stale ord (s.create ms) ms) r ↔ s.StaleRouter ms r := by
  unfold StopsClient StaleRouter Registered
  simp only [stored_stale, mem_services_create]

/-- When a snapshot leaves the table of a fresh start. -/
theorem table_snapshot_iff (hkeyed : s.Keyed) {fresh : Server α}
    (hfresh : fresh.table = fun _ => none) :
    (s.snapshot ord ms).table = (fresh.create ms).table ↔ s.EntriesFit ms := by
  rw [funext_iff]
  refine forall_congr' fun k => ?_
  have hleft := table_removes (stale ord (s.create ms) ms) (hkeyed.create ms) k
  rw [deletes_stale] at hleft
  obtain ⟨hcreate, hnone⟩ := table_create (s := s) ms k
  have hfresh' := (table_create (s := fresh) ms k).1
  rw [hfresh, Option.or_none] at hfresh'
  unfold snapshot
  rw [hfresh']
  cases hk : (create {} ms).table k with
  | none => grind
  | some m => grind

/-- When a snapshot leaves the routes of a fresh start. -/
theorem routes_snapshot_iff (hkeyed : s.Keyed) (hunique : s.routes.Unique) {fresh : Server α}
    (hfresh : fresh.routes = fun _ _ => [])
    (hflag : fresh.privateInbound = s.privateInbound) :
    (s.snapshot ord ms).routes = (fresh.create ms).routes ↔ s.RoutesFit ms := by
  classical
  simp only [funext_iff]
  refine forall_congr' fun r => forall_congr' fun host => ?_
  have hplaced : ∀ m, fresh.Placed m r host ↔ s.Placed m r host := by
    intro m
    unfold Placed
    rw [hflag]
  unfold snapshot
  rw [routes_removes _ (hkeyed.create ms), routes_create, routes_create, hfresh]
  simp only [stopsClient_stale, removes_stale, hplaced]
  by_cases hstops : s.StaleRouter ms r
  · -- the router is empty in the end, so nothing may be put into it
    rw [if_pos hstops, if_pos hstops]
    rw [eq_comm, KeyedList.putAll_eq_nil_iff, filter_eq_nil_iff]
    simp only [decide_eq_true_eq]
  · rw [if_neg hstops, if_neg hstops]
    -- stale routes are none of the snapshot, so they may be dropped first
    rw [KeyedList.filter_putAll_comm fun id => ¬ s.StaleRoute ms r host id]
    · exact KeyedList.putAll_eq_iff ((hunique r host).sublist (filter_sublist.map _)) _
    · intro m hm
      rw [decide_eq_true_eq]
      rintro ⟨old, hold, hid, -⟩
      exact hold.2 (hid ▸ mem_map_of_mem (mem_filter.mp hm).1)

end Server

/-- **A snapshot reconverges** to the tables of a fresh proxy if and only if no entry of its
mappings is deleted with a stale one, every old entry is deleted or overwritten, and the old SNI
routes of a host are stale or come first in the snapshot too. -/
theorem snapshot_iff (ord : RangeOrder Bytes) (privateInbound : Bool) (us : List (Update α))
    (ms : List (ProxyMapping α)) :
    let s := run privateInbound us
    let fresh : Server α := { privateInbound }
    ((s.snapshot ord ms).table = (fresh.create ms).table ∧
      (s.snapshot ord ms).routes = (fresh.create ms).routes) ↔
        s.EntriesFit ms ∧ s.RoutesFit ms := by
  have hflag : (run privateInbound us).privateInbound = privateInbound :=
    run_induction (P := fun s => s.privateInbound = privateInbound) rfl (fun _ _ h => h) us
  exact and_congr (table_snapshot_iff (keyed_run _ us) rfl)
    (routes_snapshot_iff (keyed_run _ us) (unique_run _ us) rfl hflag.symm)

/-- A site behind a domain. -/
def httpMapping (id domain : Bytes) : ProxyMapping Unit :=
  ⟨id, ascii "a", domain, .http, 0, [(ascii "/", ascii "http://10.0.0.5")], ()⟩

/-- A service whose domain changed while the proxy was disconnected keeps its old domain too. -/
theorem old_domain_served : let old := httpMapping (ascii "s") (ascii "old.example.com")
    let new := httpMapping (ascii "s") (ascii "new.example.com")
    ((run false [⟨.created, old, true⟩]).snapshot .kept [new]).table (.host old.domain) =
      some old ∧ (create {} [new]).table (.host old.domain) = none := by
  decide

end ReverseProxy
