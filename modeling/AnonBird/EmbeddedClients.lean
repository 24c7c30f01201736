/-
# The embedded clients of the proxy

Model of the service keys that the proxy registers for an account
(`proxy/internal/roundtrip/netbird.go`) and of the notifications of management
(`reverseproxy/service/manager/manager.go`).  A key is computed from the notification.  The delete
that announces a change of the domain carries the new domain, so the old key stays registered.
-/
import AnonBird.ReverseProxy
import AnonBird.Transition

open GoStrings

namespace ReverseProxy

variable {α : Type}

namespace Server

variable (p : Server α)

/-- The account has an embedded client. -/
def client (account : Bytes) : Bool := p.services.any (·.1 = account)

/-- `processMappings` on one mapping, with `AddPeer` and `RemovePeer`. -/
def process (type : UpdateType) (m : ProxyMapping α) : Server α := p.step ⟨type, m, true⟩

/-- The account and the key of the mapping with an id. -/
def keyOf (id : Bytes) : Option (Bytes × ServiceKey) :=
  (get p.lastMappings id).map (·.serviceKey)

/-- A mapping with another id has the key. -/
def Other (id : Bytes) (k : Bytes × ServiceKey) : Prop := ∃ id', id' ≠ id ∧ p.keyOf id' = some k

/-- The keys of every account are those of its mappings, and it has a client if it has a
mapping. -/
def Exact : Prop :=
  (∀ k, k ∈ p.services ↔ ∃ id, p.keyOf id = some k) ∧
    ∀ account, p.client account = true ↔ ∃ id k, p.keyOf id = some (account, k)

/-- The key of the mapping that is replaced stays in use or is the key of the notification, which
a modification finds in use and a removal finds in no other use. -/
def Fits (type : UpdateType) (m : ProxyMapping α) : Prop :=
  (∀ k, p.keyOf m.id = some k → k = m.serviceKey ∨ p.Other m.id k) ∧
  match type with
  | .created => True
  | .modified => ∃ id, p.keyOf id = some (m.serviceKey)
  | .removed => ¬ p.Other m.id (m.serviceKey)

variable {p} {type : UpdateType} {m : ProxyMapping α} {k : Bytes × ServiceKey}

theorem exact_iff : p.Exact ↔ ∀ k, k ∈ p.services ↔ ∃ id, p.keyOf id = some k := by
  refine ⟨And.left, fun h => ⟨h, fun account => ?_⟩⟩
  simp only [client, List.any_eq_true, decide_eq_true_eq, Prod.exists, h]
  grind

theorem keyOf_process (id : Bytes) : (p.process type m).keyOf id =
    if id = m.id then if type = .removed then none else some (m.serviceKey)
    else p.keyOf id := by
  unfold keyOf process step
  by_cases hid : id = m.id <;> cases type <;> simp [hid, GoMap.get_set, GoMap.get_erase_of_ne]

theorem mem_services_process : k ∈ (p.process type m).services ↔
    match type with
    | .created => k = m.serviceKey ∨ k ∈ p.services
    | .modified => k ∈ p.services
    | .removed => k ∈ p.services ∧ k ≠ m.serviceKey := by
  unfold process step
  cases type <;> simp

theorem exists_keyOf_iff (id : Bytes) :
    (∃ id', p.keyOf id' = some k) ↔ p.Other id k ∨ p.keyOf id = some k := by
  unfold Other
  grind

theorem other_process : (p.process type m).Other m.id k ↔ p.Other m.id k :=
  exists_congr fun id => and_congr_right fun hid => by rw [keyOf_process, if_neg hid]

theorem Exact.process_iff (h : p.Exact) : (p.process type m).Exact ↔ p.Fits type m := by
  unfold Fits
  simp only [exact_iff, exists_keyOf_iff m.id, other_process] at h ⊢
  simp only [keyOf_process, mem_services_process]
  cases type <;> grind

/-- A removal before a creation of the same mapping changes nothing. -/
theorem exact_replace :
    ((p.process .removed m).process .created m).Exact ↔ (p.process .created m).Exact := by
  simp only [exact_iff, exists_keyOf_iff m.id, other_process]
  simp only [keyOf_process, mem_services_process]
  grind

end Server

/-! ## Management -/

/-- A service, with the cluster that serves it. -/
structure Service (α : Type) where
  mapping : ProxyMapping α
  proxyCluster : Bytes
  enabled : Bool

/-- What the administrator does. -/
inductive Op (α : Type) where
  | create (s : Service α)
  | update (s : Service α)
  | delete (id : Bytes)

/-- The notifications of an operation, with the clusters they go to. -/
def notifications (store : List (Bytes × Service α)) :
    Op α → List (Bytes × UpdateType × ProxyMapping α)
  | .create s => [(s.proxyCluster, .created, s.mapping)]
  | .update s =>
    match get store s.mapping.id with
    | none => []
    | some old =>
      if old.mapping.domain ≠ s.mapping.domain ∨ old.proxyCluster ≠ s.proxyCluster then
        [(old.proxyCluster, .removed, s.mapping), (s.proxyCluster, .created, s.mapping)]
      else if old.enabled = s.enabled then [(s.proxyCluster, .modified, s.mapping)]
      else [(s.proxyCluster, if s.enabled then .created else .removed, s.mapping)]
  | .delete id =>
    match get store id with
    | none => []
    | some s => [(s.proxyCluster, .removed, s.mapping)]

/-- The services of management and the proxy of a cluster. -/
structure World (α : Type) where
  store : List (Bytes × Service α) := []
  proxy : Server α := {}

namespace World

variable (cluster : Bytes) (w : World α) (op : Op α)

/-- The notifications that the proxy gets. -/
def received : List (UpdateType × ProxyMapping α) :=
  ((notifications w.store op).filter (·.1 = cluster)).map Prod.snd

/-- The store and the proxy after an operation. -/
def step : World α where
  store :=
    match op with
    | .create s => set w.store s.mapping.id s
    | .update s => if (get w.store s.mapping.id).isSome then set w.store s.mapping.id s else w.store
    | .delete id => GoMap.erase w.store id
  proxy := (w.received cluster op).foldl (fun p n => p.process n.1 n.2) w.proxy

/-- The world after operations from the start. -/
def run (ops : List (Op α)) : World α := ops.foldl (step cluster) {}

theorem received_cases : w.received cluster op = [] ∨ (∃ n, w.received cluster op = [n]) ∨
    ∃ m, w.received cluster op = [(.removed, m), (.created, m)] := by
  unfold received notifications
  grind

end World

open World

/-- **Keys and clients follow the mappings** after each operation if and only if the last
notification of every operation fits. -/
theorem clients_exact_iff (cluster : Bytes) (ops : List (Op α)) :
    (∀ pre, pre <+: ops → (run cluster pre).proxy.Exact) ↔
      ∀ pre op, pre ++ [op] <+: ops →
        ∀ n ∈ ((run cluster pre).received cluster op).getLast?,
          (run cluster pre).proxy.Fits n.1 n.2 := by
  refine Transition.forall_prefix_iff ?_ fun pre op _ h => ?_
  · exact Server.exact_iff.mpr fun k => ⟨nofun, nofun⟩
  have hstep : run cluster (pre ++ [op]) = (run cluster pre).step cluster op :=
    List.foldl_concat ..
  rw [hstep]
  generalize run cluster pre = w at h ⊢
  unfold step
  rcases w.received_cases cluster op with hnone | ⟨n, hone⟩ | ⟨m, hboth⟩
  · simp [hnone, h]
  · simp [hone, h.process_iff]
  · simp [hboth, Server.exact_replace, h.process_iff]

/-- A service changes its domain and is deleted: no mapping is left, and the client stays. -/
theorem client_left_running :
    let svc (domain : Bytes) : Service Unit := ⟨httpMapping (ascii "s") domain, ascii "c", true⟩
    let p := (run (ascii "c") [.create (svc (ascii "old.example.com")),
      .update (svc (ascii "new.example.com")), .delete (ascii "s")]).proxy
    p.lastMappings = [] ∧ p.client (ascii "a") = true ∧
      p.services = [(ascii "a", .domain (ascii "old.example.com"))] := by
  decide

end ReverseProxy
