/-
# Close listeners of relay servers

Model of the listener table of `shared/relay/client/manager.go`.  Registration compares functions by
`reflect.Value.Pointer`, which is the address of their code.  A worker passes the method value
`w.onRelayClientDisconnected`, and the method values of all workers have one code; so the table
holds one worker per server.
-/
import AnonBird.GoMap
import AnonBird.GoStrings

open GoStrings List

namespace RelayListeners

export GoMap (get set)

/-! ## Functions as values -/

/-- The code a function value points to: the method of the relay worker, or any other
function of the program. -/
inductive Code where
  | onRelayClientDisconnected
  | func (entry : ℕ)
  deriving DecidableEq, Repr

/-- `OnServerCloseListener`: a function value is its code and, for a method value, the
receiver it is bound to. -/
structure OnServerCloseListener (Worker : Type) where
  code : Code
  receiver : Worker
  deriving DecidableEq, Repr

/-- `reflect.ValueOf(f).Pointer()`. -/
def OnServerCloseListener.pointer {Worker : Type} (f : OnServerCloseListener Worker) : Code :=
  f.code

/-- The method value `w.onRelayClientDisconnected`. -/
def onRelayClientDisconnected {Worker : Type} (w : Worker) : OnServerCloseListener Worker :=
  ⟨.onRelayClientDisconnected, w⟩

/-! ## The manager -/

/-- The part of a relay client that the manager reads: the URL it connects to, and the
instance URL it has while it is connected. -/
structure Client where
  connectionURL : Bytes
  instanceURL : Option Bytes
  deriving DecidableEq, Repr

/-- `ErrRelayClientNotConnected`, and the errors built from a text. -/
inductive ManagerError where
  | relayClientNotConnected
  | text (msg : String)
  deriving DecidableEq, Repr

/-- The address of the relay that a client is connected to. -/
def Client.serverInstanceURL (c : Client) : Except ManagerError Bytes :=
  match c.instanceURL with
  | none => .error (.text "relay connection is not established")
  | some url => .ok url

/-- The home client, the foreign clients by server address, and the listeners by the
connection URL of their server. -/
structure Manager (Worker : Type) where
  relayClient : Option Client
  relayClients : List (Bytes × Client)
  onDisconnectedListeners : List (Bytes × List (OnServerCloseListener Worker))

variable {Worker : Type}

/-- A manager without relays. -/
def newManager : Manager Worker := ⟨none, [], []⟩

/-- `isForeignServer`, called with the home client set. -/
def isForeignServer (relayClient : Client) (address : Bytes) : Except ManagerError Bool :=
  match relayClient.serverInstanceURL with
  | .error _ => .error (.text "relay client not connected")
  | .ok rAddr => .ok (rAddr ≠ address)

variable (m : Manager Worker) (serverAddress : Bytes)

/-- `addListener`: a listener whose code is in the list already is not added. -/
def addListener (onClosedListener : OnServerCloseListener Worker) : Manager Worker :=
  let l := (get m.onDisconnectedListeners serverAddress).getD []
  if l.any fun e => e.pointer = onClosedListener.pointer then m
  else
    { m with
      onDisconnectedListeners :=
        set m.onDisconnectedListeners serverAddress (l ++ [onClosedListener]) }

/-- A listener for the home relay. -/
def addCloseListener (onClosedListener : OnServerCloseListener Worker) :
    Except ManagerError Unit × Manager Worker :=
  match m.relayClient with
  | none => (.error .relayClientNotConnected, m)
  | some relayClient =>
    match isForeignServer relayClient serverAddress with
    | .error err => (.error err, m)
    | .ok foreign =>
      let listenerAddr := if foreign then serverAddress else relayClient.connectionURL
      (.ok (), addListener m listenerAddr onClosedListener)

/-- The home relay is connected. -/
def storeClient (client : Client) : Manager Worker :=
  { m with relayClient := some client }

open GoMap

/-- A foreign relay is forgotten. -/
def evictForeignRelay : Manager Worker :=
  { m with relayClients := erase m.relayClients serverAddress }

/-- `notifyOnDisconnectListeners`: the listeners started, in order, and the table
without them. -/
def notifyOnDisconnectListeners :
    List (OnServerCloseListener Worker) × Manager Worker :=
  match get m.onDisconnectedListeners serverAddress with
  | none => ([], m)
  | some l =>
    (l, { m with onDisconnectedListeners := erase m.onDisconnectedListeners serverAddress })

/-- What a disconnect starts: the reconnect attempts of the home client, and the calls
of the listeners. -/
structure Started (Worker : Type) where
  reconnect : Option Client
  listeners : List (OnServerCloseListener Worker)

/-- A relay is gone: its listeners are told, the home relay is watched. -/
def onServerDisconnected : Started Worker × Manager Worker :=
  let home := m.relayClient.filter fun c => serverAddress = c.connectionURL
  let m := if home.isSome then m else evictForeignRelay m serverAddress
  let r := notifyOnDisconnectListeners m serverAddress
  (⟨home, r.1⟩, r.2)

/-! ## Histories -/

/-- One event in the life of a manager. -/
inductive Event (Worker : Type) where
  /-- a client becomes the home client -/
  | storeClient (client : Client)
  /-- the home client connects, or loses its connection -/
  | homeInstance (instanceURL : Option Bytes)
  /-- a foreign client is put into the cache -/
  | foreignClient (serverAddress : Bytes) (client : Client)
  /-- a worker passes its method value for a server -/
  | addCloseListener (worker : Worker) (serverAddress : Bytes)
  /-- the client connected to this URL reports the loss of its connection -/
  | serverDisconnected (serverAddress : Bytes)

/-- The effect of one event. -/
def step : Event Worker → Manager Worker
  | .storeClient client => storeClient m client
  | .homeInstance url =>
    { m with relayClient := m.relayClient.map fun c => { c with instanceURL := url } }
  | .foreignClient serverAddress client =>
    { m with relayClients := set m.relayClients serverAddress client }
  | .addCloseListener w serverAddress =>
    (addCloseListener m serverAddress (onRelayClientDisconnected w)).2
  | .serverDisconnected serverAddress => (onServerDisconnected m serverAddress).2

variable (es : List (Event Worker))

/-- The manager after a history. -/
def run : Manager Worker := es.foldl step newManager

/-- The workers that a disconnect of `serverAddress` calls after the history `es`. -/
def calledWorkers (serverAddress : Bytes) : List Worker :=
  (onServerDisconnected (run es) serverAddress).1.listeners.map OnServerCloseListener.receiver

/-! ## Who is owed a call -/

/-- The home client after a history, from its own events alone. -/
def homeAfter : Option Client :=
  es.foldl (fun home e =>
    match e with
    | .storeClient client => some client
    | .homeInstance url => home.map fun c => { c with instanceURL := url }
    | _ => home) none

/-- The server an address stands for: the instance URL of the connected home client stands for the
home server, every other address for itself. -/
def serverOf (home : Option Client) (address : Bytes) : Option Bytes :=
  match home with
  | none => none
  | some c =>
    match c.instanceURL with
    | none => none
    | some url => some (if url = address then c.connectionURL else address)

/-- The worker registered for the server since the server's last disconnect. -/
def RegisteredSince (server : Bytes) (w : Worker) : Prop :=
  ∃ before address after, es = before ++ .addCloseListener w address :: after ∧
    serverOf (homeAfter before) address = some server ∧ .serverDisconnected server ∉ after

/-- A registration is kept by every event but the disconnect of its server, and made by a call for
an address of the server. -/
theorem registeredSince_snoc (e : Event Worker) (server : Bytes) (w : Worker) :
    RegisteredSince (es ++ [e]) server w ↔
      (RegisteredSince es server w ∧ e ≠ .serverDisconnected server) ∨
        ∃ address, e = .addCloseListener w address ∧
          serverOf (homeAfter es) address = some server := by
  constructor
  · rintro ⟨before, address, after, heq, hserver, hno⟩
    rcases eq_nil_or_concat after with rfl | ⟨after, e', rfl⟩
    · obtain ⟨rfl, he⟩ := append_inj' heq rfl
      rw [List.cons.injEq] at he
      exact .inr ⟨address, he.1, hserver⟩
    · rw [concat_eq_append, ← cons_append, ← append_assoc] at heq
      obtain ⟨rfl, he⟩ := append_inj' heq rfl
      rw [List.cons.injEq] at he
      rw [concat_eq_append, mem_append, mem_singleton, not_or, ← he.1] at hno
      exact .inl ⟨⟨before, address, after, rfl, hserver, hno.1⟩, fun h => hno.2 h.symm⟩
  · rintro (⟨⟨before, address, after, rfl, hserver, hno⟩, hne⟩ | ⟨address, rfl, hserver⟩)
    · refine ⟨before, address, after ++ [e], by simp, hserver, ?_⟩
      rw [mem_append, mem_singleton, not_or]
      exact ⟨hno, fun h => hne h.symm⟩
    · exact ⟨es, address, [], rfl, hserver, by simp⟩

/-! ## The table -/

/-- The entry of a server and the registrations since its last disconnect: no entry, or
the method value of one registered worker. -/
def Owes (server : Bytes) (entry : Option (List (OnServerCloseListener Worker))) : Prop :=
  match entry with
  | none => ∀ w, ¬ RegisteredSince es server w
  | some l => ∃ w, l = [onRelayClientDisconnected w] ∧ RegisteredSince es server w

/-- The table after a history. -/
structure Tracks (es : List (Event Worker)) (m : Manager Worker) : Prop where
  home : m.relayClient = homeAfter es
  owes : ∀ server, Owes es server (get m.onDisconnectedListeners server)

variable {es : List (Event Worker)}

/-- An event that registers nobody for the server and does not disconnect it leaves
what its entry says. -/
theorem Owes.snoc {server : Bytes}
    {entry : Option (List (OnServerCloseListener Worker))} (h : Owes es server entry)
    (e : Event Worker) (hdis : e ≠ .serverDisconnected server)
    (hadd : ∀ w address, e = .addCloseListener w address →
      serverOf (homeAfter es) address ≠ some server) : Owes (es ++ [e]) server entry := by
  have hiff : ∀ w, RegisteredSince (es ++ [e]) server w ↔ RegisteredSince es server w := by
    intro w
    rw [registeredSince_snoc]
    constructor
    · rintro (h | ⟨address, he, hserver⟩)
      · exact h.1
      · exact absurd hserver (hadd w address he)
    · intro h
      exact .inl ⟨h, hdis⟩
  cases entry with
  | none => exact fun w hw => h w ((hiff w).mp hw)
  | some l =>
    obtain ⟨w, hl, hw⟩ := h
    exact ⟨w, hl, (hiff w).mpr hw⟩

theorem homeAfter_snoc (es : List (Event Worker)) (e : Event Worker) : homeAfter (es ++ [e]) =
      match e with
      | .storeClient client => some client
      | .homeInstance url => (homeAfter es).map fun c => { c with instanceURL := url }
      | _ => homeAfter es := by
  rw [homeAfter, foldl_concat]
  rfl

/-- **Registration.**  A call for an address that stands for no server is refused; every
other call adds its listener to the entry of that server. -/
theorem addCloseListener_eq (address : Bytes) (f : OnServerCloseListener Worker) :
    (addCloseListener m address f).2 = match serverOf m.relayClient address with
      | none => m
      | some server => addListener m server f := by
  unfold addCloseListener serverOf isForeignServer Client.serverInstanceURL
  cases m.relayClient with
  | none => rfl
  | some c =>
    cases hc : c.instanceURL with
    | none => simp [hc]
    | some url =>
      by_cases heq : url = address <;> simp [hc, heq]

variable (server : Bytes)

theorem addListener_relayClient (f : OnServerCloseListener Worker) :
    (addListener m server f).relayClient = m.relayClient := by
  unfold addListener
  dsimp only
  split <;> rfl

theorem get_addListener_of_ne (server' : Bytes) (f : OnServerCloseListener Worker)
    (h : server' ≠ server) :
    get (addListener m server f).onDisconnectedListeners server' =
      get m.onDisconnectedListeners server' := by
  unfold addListener
  dsimp only
  split
  · rfl
  · exact get_set_of_ne h

/-- In a table of method values of the worker, the first registration for a server
stays: a second one finds its own code in the list. -/
theorem Tracks.addListener {m : Manager Worker} (h : Tracks es m)
    (w : Worker) (address server : Bytes)
    (hserver : serverOf (homeAfter es) address = some server) :
    Owes (es ++ [.addCloseListener w address]) server (get
        (addListener m server (onRelayClientDisconnected w)).onDisconnectedListeners server) := by
  have howes := h.owes server
  have hnew : RegisteredSince (es ++ [.addCloseListener w address]) server w :=
    (registeredSince_snoc _ _ _ _).mpr (.inr ⟨address, rfl, hserver⟩)
  unfold RelayListeners.addListener
  cases hget : get m.onDisconnectedListeners server with
  | none =>
    simp only [Option.getD_none, any_nil, Bool.false_eq_true, if_false, nil_append,
      get_set_self]
    exact ⟨w, rfl, hnew⟩
  | some l =>
    rw [hget] at howes
    obtain ⟨w', rfl, hw'⟩ := howes
    have hany : ([onRelayClientDisconnected w'].any fun e =>
        e.pointer = (onRelayClientDisconnected w).pointer) = true := by
      simp [OnServerCloseListener.pointer, onRelayClientDisconnected]
    simp only [Option.getD_some, hany, if_true, hget]
    refine ⟨w', rfl, ?_⟩
    exact (registeredSince_snoc _ _ _ _).mpr (.inl ⟨hw', by simp⟩)

theorem onServerDisconnected_relayClient :
    (onServerDisconnected m server).2.relayClient = m.relayClient := by
  unfold onServerDisconnected notifyOnDisconnectListeners evictForeignRelay
  dsimp only
  split <;> split <;> rfl

/-- The foreign client that a disconnect may evict is no part of the listener table. -/
theorem onServerDisconnected_notify :
    (onServerDisconnected m server).1.listeners = (notifyOnDisconnectListeners m server).1 ∧
      (onServerDisconnected m server).2.onDisconnectedListeners =
        (notifyOnDisconnectListeners m server).2.onDisconnectedListeners := by
  rw [onServerDisconnected]
  by_cases hhome : (m.relayClient.filter fun c => server = c.connectionURL).isSome = true
  · rw [if_pos hhome]
    exact ⟨rfl, rfl⟩
  · rw [if_neg hhome, notifyOnDisconnectListeners, notifyOnDisconnectListeners, evictForeignRelay]
    cases get m.onDisconnectedListeners server with
    | none | some l => exact ⟨rfl, rfl⟩

theorem onServerDisconnected_listeners :
    (onServerDisconnected m server).1.listeners =
      (get m.onDisconnectedListeners server).getD [] := by
  rw [(onServerDisconnected_notify m server).1, notifyOnDisconnectListeners]
  cases get m.onDisconnectedListeners server with
  | none => rfl
  | some l => rfl

theorem get_onServerDisconnected (server' : Bytes) :
    get (onServerDisconnected m server).2.onDisconnectedListeners server' =
      if server' = server then none else get m.onDisconnectedListeners server' := by
  rw [(onServerDisconnected_notify m server).2, notifyOnDisconnectListeners]
  by_cases hs : server' = server
  · rw [if_pos hs, hs]
    cases hget : get m.onDisconnectedListeners server with
    | none => exact hget
    | some l => exact get_erase_self
  · rw [if_neg hs]
    cases get m.onDisconnectedListeners server with
    | none => rfl
    | some l => exact get_erase_of_ne hs

theorem Tracks.step {m : Manager Worker} (h : Tracks es m)
    (e : Event Worker) : Tracks (es ++ [e]) (step m e) := by
  cases e with
  | storeClient client =>
    refine ⟨by rw [homeAfter_snoc]; rfl, fun server => ?_⟩
    exact (h.owes server).snoc _ (by simp) (by simp)
  | homeInstance url =>
    refine ⟨by rw [homeAfter_snoc, ← h.home]; rfl, fun server => ?_⟩
    exact (h.owes server).snoc _ (by simp) (by simp)
  | foreignClient address client =>
    refine ⟨by rw [homeAfter_snoc]; exact h.home, fun server => ?_⟩
    exact (h.owes server).snoc _ (by simp) (by simp)
  | addCloseListener w address =>
    rw [RelayListeners.step, addCloseListener_eq, h.home]
    cases hserver : serverOf (homeAfter es) address with
    | none =>
      refine ⟨by rw [homeAfter_snoc]; exact h.home, fun server => ?_⟩
      refine (h.owes server).snoc _ (by simp) ?_
      rintro w' address' he
      cases he
      simp [hserver]
    | some server =>
      refine ⟨by rw [homeAfter_snoc, addListener_relayClient]; exact h.home, fun server' => ?_⟩
      by_cases hs : server' = server
      · rw [hs]
        exact h.addListener w address server hserver
      · dsimp only
        rw [get_addListener_of_ne _ _ _ _ hs]
        refine (h.owes server').snoc _ (by simp) ?_
        rintro w' address' he
        cases he
        rw [hserver]
        exact fun hc => hs (Option.some.inj hc).symm
  | serverDisconnected server =>
    refine ⟨?_, fun server' => ?_⟩
    · rw [homeAfter_snoc, RelayListeners.step, onServerDisconnected_relayClient]
      exact h.home
    · rw [RelayListeners.step, get_onServerDisconnected]
      split
      next hs =>
        intro w hw
        rcases (registeredSince_snoc _ _ _ _).mp hw with hw | ⟨address, he, -⟩
        · exact hw.2 (by rw [hs])
        · cases he
      next hs =>
        refine (h.owes server').snoc _ ?_ (by simp)
        exact fun he => hs (Event.serverDisconnected.inj he).symm

theorem tracks_run (es : List (Event Worker)) : Tracks es (run es) := by
  induction es using reverseRecOn with
  | nil =>
    refine ⟨rfl, fun server w => ?_⟩
    rintro ⟨before, address, after, h, -⟩
    simp at h
  | append_singleton es e ih =>
    rw [run, foldl_concat]
    exact ih.step e

/-! ## What a disconnect calls -/

theorem calledWorkers_cases (es : List (Event Worker)) (server : Bytes) :
    (calledWorkers es server = [] ∧ ∀ w, ¬ RegisteredSince es server w) ∨
      ∃ w, calledWorkers es server = [w] ∧ RegisteredSince es server w := by
  have h := (tracks_run es).owes server
  rw [calledWorkers, onServerDisconnected_listeners]
  cases hget : get (run es).onDisconnectedListeners server with
  | none =>
    rw [hget] at h
    exact .inl ⟨rfl, h⟩
  | some l =>
    rw [hget] at h
    obtain ⟨w, rfl, hw⟩ := h
    exact .inr ⟨w, rfl, hw⟩

/-- **Who hears of a disconnect**: every worker that registered since the previous one, exactly
once, if and only if these registrations were made by a single worker. -/
theorem disconnect_calls_registered_iff [DecidableEq Worker] (es : List (Event Worker))
    (server : Bytes) : (∀ w, RegisteredSince es server w → (calledWorkers es server).count w = 1) ↔
      ∀ w w', RegisteredSince es server w → RegisteredSince es server w' → w = w' := by
  rcases calledWorkers_cases es server with ⟨hnil, hnone⟩ | ⟨v, hcall, hv⟩
  · constructor
    · intro _ w w' hw
      exact absurd hw (hnone w)
    · intro _ w hw
      exact absurd hw (hnone w)
  · rw [hcall]
    constructor
    · intro h
      -- the list has one element, so a worker it counts is that element
      have hall : ∀ w, RegisteredSince es server w → v = w := by
        intro w hw
        have hcount := h w hw
        by_contra hne
        rw [count_singleton, if_neg (by simpa using hne)] at hcount
        exact absurd hcount (by decide)
      intro w w' hw hw'
      rw [← hall w hw, ← hall w' hw']
    · intro h w hw
      rw [h w v hw hv, count_singleton_self]

/-- The home relay at `h`, reached as `i`. -/
def homeRelay : Client := ⟨ascii "h", some (ascii "i")⟩

/-- Two workers register for the home relay, which then disconnects: the second one is
never called. -/
theorem second_worker_not_called :
    ¬ ∀ (es : List (Event ℕ)) (server : Bytes) (w : ℕ), RegisteredSince es server w →
      (calledWorkers es server).count w = 1 := by
  intro h
  have hcount := h [.storeClient homeRelay, .addCloseListener 1 (ascii "i"),
    .addCloseListener 2 (ascii "i")] (ascii "h") 2
    ⟨[.storeClient homeRelay, .addCloseListener 1 (ascii "i")], ascii "i", [], rfl,
      by decide, by simp⟩
  exact absurd hcount (by decide)

end RelayListeners
