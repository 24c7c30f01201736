/-
# The DNS interceptor

Model of `client/internal/routemanager/dnsinterceptor/handler.go`.  For each name that it answers,
an interceptor stores the host prefixes of the answer, and keeps a reference to each of them in two
shared counters, of routes and of allowed addresses.  Where the firewall can translate addresses,
routes and answers carry fake addresses.

What the counters' functions return, which addresses are local and the orders of the map loops are
those of an environment.
-/
import AnonBird.DNSNames
import AnonBird.FakeIP
import AnonBird.InternalDNAT
import AnonBird.RefCounter
import AnonBird.Transition

open GoStrings NetIP RefCounter Uspfilter Option
open GoMap hiding get set

namespace DNSInterceptor

open DNSNames

export GoMap (get set)

/-! ## Answers -/

/-- The types of question that are intercepted. -/
inductive QType where
  | a
  | aaaa
  deriving DecidableEq

/-- The other type. -/
def QType.other : QType → QType
  | a => aaaa
  | aaaa => a

/-- What a query asks for. -/
structure Question where
  name : Bytes
  qtype : QType

/-- `dns.RR`: address records have the bytes of their address. -/
inductive RR where
  | a (ip : Bytes)
  | aaaa (ip : Bytes)
  | other
  deriving DecidableEq

/-- The address of an address record. -/
def RR.addr : RR → Option Addr
  | a ip => Addr.fromSlice ip
  | aaaa ip => Addr.fromSlice ip
  | other => none

/-- An address record with another address. -/
def RR.withIP : RR → Bytes → RR
  | a _, ip => a ip
  | aaaa _, ip => aaaa ip
  | other, _ => other

/-- A DNS message. -/
structure Msg where
  question : List Question
  answer : List RR

/-- The prefix of an address: `netip.PrefixFrom(ip.Unmap(), ip.BitLen())`. -/
def hostPrefix (ip : Addr) : Prefix := ⟨ip.unmap, ip.bitLen⟩

/-- The prefixes of an answer, as `writeMsg` collects them. -/
def Msg.newPrefixes (r : Msg) : List Prefix :=
  r.answer.filterMap fun rr => rr.addr.map hostPrefix

variable {r : Msg} {p : Prefix}

theorem Msg.mem_newPrefixes :
    p ∈ r.newPrefixes ↔ ∃ rr ∈ r.answer, ∃ ip, rr.addr = some ip ∧ hostPrefix ip = p := by
  simp [newPrefixes]

/-! ## What interceptors share -/

/-- The two reference counters. -/
inductive CounterName where
  | route
  | allowedIPs
  deriving DecidableEq

/-- A call of a counter for a prefix: how it changed the count, and whether it failed. -/
structure Call where
  counter : CounterName
  realPrefix : Prefix
  change : ℤ
  failed : Bool
  deriving DecidableEq

/-- What interceptors share. -/
structure World where
  routeRefCounter : Counter Prefix Unit := {}
  allowedIPsRefcounter : Counter Prefix Bytes := {}
  fakeIPManager : FakeIP.Manager := FakeIP.newManager
  /-- `internalDnatFw`: the firewall, if it supports internal DNAT. -/
  internalDnatFw : Option InternalDNAT := none
  /-- The calls of the counters, the last one first. -/
  calls : List Call := []

/-- What the code does not decide.  The functions of the counters may return something else at each
call. -/
structure Env where
  addRoute : ℕ → AddResult Unit
  removeRoute : ℕ → Bool
  addAllowedIP : ℕ → Bytes → AddResult Bytes
  removeAllowedIP : ℕ → Bool
  isLocalIP : Addr → Bool
  prefixOrder : RangeOrder Prefix
  mappingOrder : RangeOrder Addr
  domainOrder : RangeOrder Bytes
  cleanupOrder : RangeOrder Bytes

namespace World

variable (env : Env) (w : World)

/-- A prefix under the fake address, where DNAT is used. -/
def transformRealToFakePrefix (realPrefix : Prefix) : Prefix :=
  match w.internalDnatFw, w.fakeIPManager.getFakeIP realPrefix.addr with
  | some _, some fakeIP => ⟨fakeIP, realPrefix.bits⟩
  | _, _ => realPrefix

/-- `routeRefCounter.Increment` for a prefix. -/
def incrementRoute (realPrefix : Prefix) : Bool × World :=
  let routePrefix := w.transformRealToFakePrefix realPrefix
  let done := w.routeRefCounter.increment routePrefix (env.addRoute w.calls.length)
  let change := done.2.count routePrefix - w.routeRefCounter.count routePrefix
  (done.1.isSome, { w with
    routeRefCounter := done.2
    calls := ⟨.route, realPrefix, change, done.1.isNone⟩ :: w.calls })

/-- `routeRefCounter.Decrement` for a prefix. -/
def decrementRoute (realPrefix : Prefix) : World :=
  let routePrefix := w.transformRealToFakePrefix realPrefix
  let done := w.routeRefCounter.decrement routePrefix (env.removeRoute w.calls.length)
  let change := done.2.count routePrefix - w.routeRefCounter.count routePrefix
  { w with
    routeRefCounter := done.2
    calls := ⟨.route, realPrefix, change, !done.1⟩ :: w.calls }

/-- A prefix is counted as allowed for a peer. -/
def addAllowedIPForPrefix (peerKey : Bytes) (realPrefix : Prefix) : World :=
  let done := w.allowedIPsRefcounter.increment realPrefix
    (env.addAllowedIP w.calls.length peerKey)
  let change := done.2.count realPrefix - w.allowedIPsRefcounter.count realPrefix
  { w with
    allowedIPsRefcounter := done.2
    calls := ⟨.allowedIPs, realPrefix, change, done.1.isNone⟩ :: w.calls }

/-- `allowedIPsRefcounter.Decrement` for a prefix. -/
def decrementAllowedIP (realPrefix : Prefix) : World :=
  let done := w.allowedIPsRefcounter.decrement realPrefix (env.removeAllowedIP w.calls.length)
  let change := done.2.count realPrefix - w.allowedIPsRefcounter.count realPrefix
  { w with
    allowedIPsRefcounter := done.2
    calls := ⟨.allowedIPs, realPrefix, change, !done.1⟩ :: w.calls }

/-- `addRouteAndAllowedIP`, for the current peer. -/
def addRouteAndAllowedIP (currentPeerKey : Bytes) (realPrefix : Prefix) : World :=
  let added := w.incrementRoute env realPrefix
  if !added.1 || currentPeerKey = [] then added.2
  else added.2.addAllowedIPForPrefix env currentPeerKey realPrefix

/-- The route of a prefix is released, then its allowed address (`removeAllowedIP`). -/
def removeRouteAndAllowedIP (currentPeerKey : Bytes) (realPrefix : Prefix) : World :=
  let w := w.decrementRoute env realPrefix
  if currentPeerKey = [] then w else w.decrementAllowedIP env realPrefix

/-- The fake addresses for new prefixes, and the mappings from them to the real ones. -/
def allocateFakeIPs (m : FakeIP.Manager) (toAdd : List Prefix) :
    FakeIP.Manager × List (Addr × Addr) :=
  toAdd.foldl (fun acc p =>
    let allocated := acc.1.allocateFakeIP p.addr
    match allocated.1 with
    | some fakeIP => (allocated.2, set acc.2 fakeIP p.addr)
    | none => (allocated.2, acc.2)) (m, [])

/-- The manager after new prefixes are seen. -/
def allocated (toAdd : List Prefix) : World :=
  match w.internalDnatFw with
  | none => w
  | some _ => { w with fakeIPManager := (allocateFakeIPs w.fakeIPManager toAdd).1 }

/-- The loop of `addDNATMappings`; an error is only logged. -/
def addMappings (mappings : List (Addr × Addr)) (fw : InternalDNAT) : InternalDNAT :=
  (range env.mappingOrder mappings).foldl
    (fun fw e => fw.addInternalDNATMapping env.isLocalIP e.1 e.2) fw

/-- The loop of `removeDNATMappings`; an error is only logged. -/
def removeMappings (m : FakeIP.Manager) (realPrefixes : List Prefix) (fw : InternalDNAT) :
    InternalDNAT :=
  realPrefixes.foldl (fun fw p =>
    match m.getFakeIP p.addr with
    | some fakeIP => fw.removeInternalDNATMapping fakeIP
    | none => fw) fw

/-- Fake addresses are mapped to real ones in the firewall. -/
def addDNATMappings (mappings : List (Addr × Addr)) : World :=
  { w with internalDnatFw := w.internalDnatFw.map (addMappings env mappings) }

/-- The mappings of prefixes leave the firewall. -/
def removeDNATMappings (realPrefixes : List Prefix) : World :=
  { w with internalDnatFw := w.internalDnatFw.map (removeMappings w.fakeIPManager realPrefixes) }

/-- Nothing but the counters and the record of their calls is other. -/
structure Counts (w w' : World) : Prop where
  fakeIPManager : w'.fakeIPManager = w.fakeIPManager
  internalDnatFw : w'.internalDnatFw = w.internalDnatFw

variable (currentPeerKey : Bytes)

theorem counts_addRouteAndAllowedIP (p : Prefix) :
    Counts w (w.addRouteAndAllowedIP env currentPeerKey p) := by
  unfold addRouteAndAllowedIP
  dsimp only
  split <;> exact ⟨rfl, rfl⟩

theorem counts_removeRouteAndAllowedIP (p : Prefix) :
    Counts w (w.removeRouteAndAllowedIP env currentPeerKey p) := by
  unfold removeRouteAndAllowedIP
  split <;> exact ⟨rfl, rfl⟩

theorem counts_foldl {f : World → Prefix → World} (h : ∀ w p, Counts w (f w p)) (ps : List Prefix) :
    Counts w (ps.foldl f w) := by
  induction ps generalizing w with
  | nil => exact ⟨rfl, rfl⟩
  | cons p ps ih =>
    have hrest := ih (f w p)
    exact ⟨hrest.fakeIPManager.trans (h w p).fakeIPManager,
      hrest.internalDnatFw.trans (h w p).internalDnatFw⟩

/-- The addresses in a reply become fake ones, where DNAT is used. -/
def replaceIPsInDNSResponse (reply : Msg) : Msg :=
  match w.internalDnatFw with
  | none => reply
  | some _ =>
    { reply with
      answer := reply.answer.map fun rr =>
        match rr.addr.bind w.fakeIPManager.getFakeIP with
        | some fakeIP => rr.withIP fakeIP.asSlice
        | none => rr }

end World

/-! ## The changes of an answer -/

/-- The second loop of `determinePrefixChanges`: the set with what is in use, and what is new. -/
def markInUse (prefixSet : List (Prefix × Bool)) (newPrefixes : List Prefix) :
    List (Prefix × Bool) × List Prefix :=
  newPrefixes.foldl (fun acc p =>
    if (get acc.1 p).isSome then (set acc.1 p true, acc.2)
    else (acc.1, acc.2 ++ [p])) (prefixSet, [])

/-- `determinePrefixChanges`: what to add and what to remove. -/
def determinePrefixChanges (ord : RangeOrder Prefix) (oldPrefixes newPrefixes : List Prefix) :
    List Prefix × List Prefix :=
  let prefixSet := setAll (fun _ => false) [] oldPrefixes
  let marked := markInUse prefixSet newPrefixes
  (marked.2, (range ord marked.1).filterMap fun e => if e.2 then none else some e.1)

/-- A prefix of the set is in use if it was met, and those that are not in the set are new, as often
as they were met. -/
theorem markInUse_spec (prefixSet : List (Prefix × Bool)) (newPrefixes : List Prefix) :
    (∀ p, get (markInUse prefixSet newPrefixes).1 p =
      (get prefixSet p).map fun inUse => inUse || decide (p ∈ newPrefixes)) ∧
    (markInUse prefixSet newPrefixes).2 = newPrefixes.filter fun p => (get prefixSet p).isNone := by
  unfold markInUse
  induction newPrefixes using List.reverseRecOn with
  | nil => simp
  | append_singleton ps q ih =>
    obtain ⟨hset, hnew⟩ := ih
    rw [List.foldl_concat]
    have hq : (get (ps.foldl (fun acc p =>
        if (get acc.1 p).isSome then (set acc.1 p true, acc.2)
        else (acc.1, acc.2 ++ [p])) (prefixSet, [])).1 q).isSome = (get prefixSet q).isSome := by
      rw [hset q, isSome_map]
    by_cases hold : (get prefixSet q).isSome
    · rw [if_pos (hq.trans hold)]
      refine ⟨fun p => ?_, ?_⟩
      · rw [get_set]
        split
        next hp =>
          obtain ⟨inUse, hget⟩ := isSome_iff_exists.mp hold
          rw [hp, hget]
          simp
        next hp =>
          rw [hset p]
          simp [hp]
      · rw [hnew, List.filter_append]
        simp [isNone_eq_false_iff.mpr hold]
    · rw [if_neg (by rw [hq]; exact hold)]
      have hnone : get prefixSet q = none := by simpa using hold
      refine ⟨fun p => ?_, ?_⟩
      · rw [hset p]
        by_cases hp : p = q
        · rw [hp, hnone]
          rfl
        · simp [hp]
      · rw [hnew, List.filter_append]
        simp [hnone]

section Changes

variable (ord : RangeOrder Prefix) (oldPrefixes newPrefixes : List Prefix)

theorem get_prefixSet (p : Prefix) : get (setAll (fun _ => false) [] oldPrefixes) p =
      if p ∈ oldPrefixes then some false else none := by
  rw [get_setAll]
  rfl

/-- What is added is new, and repeated as the answer repeats it. -/
theorem toAdd_eq : (determinePrefixChanges ord oldPrefixes newPrefixes).1 =
    newPrefixes.filter fun p => p ∉ oldPrefixes := by
  refine ((markInUse_spec _ newPrefixes).2).trans ?_
  congr 1
  funext p
  rw [get_prefixSet]
  by_cases hp : p ∈ oldPrefixes <;> simp [hp]

theorem mem_toAdd : p ∈ (determinePrefixChanges ord oldPrefixes newPrefixes).1 ↔
    p ∈ newPrefixes ∧ p ∉ oldPrefixes := by
  rw [toAdd_eq]
  simp

theorem mem_toRemove : p ∈ (determinePrefixChanges ord oldPrefixes newPrefixes).2 ↔
    p ∈ oldPrefixes ∧ p ∉ newPrefixes := by
  rw [determinePrefixChanges, List.mem_filterMap]
  have hget := (markInUse_spec (setAll (fun _ => false) [] oldPrefixes) newPrefixes).1 p
  rw [get_prefixSet] at hget
  constructor
  · rintro ⟨⟨q, inUse⟩, hmem, h⟩
    cases inUse with
    | true => cases h
    | false =>
      obtain rfl : q = p := by simpa using h
      rw [mem_range, hget] at hmem
      by_cases hp : q ∈ oldPrefixes
      · rw [if_pos hp] at hmem
        exact ⟨hp, by simpa using hmem⟩
      · rw [if_neg hp] at hmem
        cases hmem
  · rintro ⟨hold, hnew⟩
    refine ⟨(p, false), ?_, rfl⟩
    rw [mem_range, hget, if_pos hold]
    simp [hnew]

/-- A prefix is removed once, however often it was stored. -/
theorem nodup_toRemove : (determinePrefixChanges ord oldPrefixes newPrefixes).2.Nodup := by
  have hset : (keys (setAll (fun _ => false) [] oldPrefixes)).Nodup :=
    List.foldlRecOn (motive := fun m => (keys m).Nodup) oldPrefixes _ List.nodup_nil
      fun _ h _ _ => nodup_keys_set h _ _
  have hmarked :
      (keys (markInUse (setAll (fun _ => false) [] oldPrefixes) newPrefixes).1).Nodup := by
    refine List.foldlRecOn (motive := fun acc : List (Prefix × Bool) × List Prefix =>
      (keys acc.1).Nodup) newPrefixes _ hset ?_
    intro acc h p _
    split
    · exact nodup_keys_set h _ _
    · exact h
  refine (nodup_keys_range hmarked ord).of_map.filterMap ?_
  rintro ⟨p, inUse⟩ ⟨q, inUse'⟩ r hp hq
  cases inUse <;> cases inUse' <;> simp_all

end Changes

/-! ## The interceptor -/

/-- `DnsInterceptor`; each name is stored once. -/
structure Interceptor where
  keepRoute : Bool
  currentPeerKey : Bytes := []
  interceptedDomains : List (Bytes × List Prefix) := []
  nodup : (keys interceptedDomains).Nodup

/-- `New`. -/
def newInterceptor (keepRoute : Bool) : Interceptor where
  keepRoute := keepRoute
  interceptedDomains := []
  nodup := List.nodup_nil

namespace Interceptor

variable (env : Env) (d : Interceptor) (w : World)

/-- The prefixes of a name. -/
def prefixes (domain : Bytes) : List Prefix := (get d.interceptedDomains domain).getD []

/-- What an answer adds to the prefixes of a name, and what it drops. -/
def changes (resolvedDomain : Bytes) (newPrefixes : List Prefix) : List Prefix × List Prefix :=
  determinePrefixChanges env.prefixOrder (d.prefixes resolvedDomain) newPrefixes

/-- The prefixes of a name are stored after an answer, if they changed. -/
def storePrefixes (resolvedDomain : Bytes) (newPrefixes : List Prefix) : Interceptor :=
  let changes := d.changes env resolvedDomain newPrefixes
  if changes.1 = [] ∧ changes.2 = [] then d
  else
    { d with
      interceptedDomains := set d.interceptedDomains resolvedDomain
        (if d.keepRoute then d.prefixes resolvedDomain ++ changes.1 else newPrefixes)
      nodup := nodup_keys_set d.nodup _ _ }

/-- The new prefixes of an answer get their fake addresses, references and mappings. -/
def addPrefixes (toAdd : List Prefix) : World :=
  let mappings := (World.allocateFakeIPs w.fakeIPManager toAdd).2
  (toAdd.foldl (fun w p => w.addRouteAndAllowedIP env d.currentPeerKey p)
    (w.allocated toAdd)).addDNATMappings env mappings

/-- The prefixes that an answer drops lose their references and mappings. -/
def removePrefixes (toRemove : List Prefix) : World :=
  if d.keepRoute then w
  else (toRemove.foldl (fun w p => w.removeRouteAndAllowedIP env d.currentPeerKey p)
    w).removeDNATMappings toRemove

/-- The prefixes of a domain are replaced by those of a reply. -/
def updateDomainPrefixes (resolvedDomain : Bytes) (newPrefixes : List Prefix) :
    Interceptor × World :=
  let changes := d.changes env resolvedDomain newPrefixes
  (d.storePrefixes env resolvedDomain newPrefixes,
    d.removePrefixes env (d.addPrefixes env w changes.1) changes.2)

/-- `writeMsg`: the interceptor and the rest after an answer, and the reply. -/
def writeMsg (r : Msg) : Interceptor × World × Msg :=
  match r.question with
  | [] => (d, w, r)
  | q :: _ =>
    if r.newPrefixes = [] then (d, w, r)
    else
      let updated := d.updateDomainPrefixes env w (toLower q.name) r.newPrefixes
      (updated.1, updated.2, updated.2.replaceIPsInDNSResponse r)

/-- An answer is passed on, or it updates the prefixes of its name. -/
theorem writeMsg_cases (r : Msg) :
    ((r.question = [] ∨ r.newPrefixes = []) ∧ d.writeMsg env w r = (d, w, r)) ∨
    ∃ q rest, r.question = q :: rest ∧ r.newPrefixes ≠ [] ∧
      let new := d.updateDomainPrefixes env w (toLower q.name) r.newPrefixes
      d.writeMsg env w r = (new.1, new.2, new.2.replaceIPsInDNSResponse r) := by
  unfold writeMsg
  cases hquestion : r.question with
  | nil => exact .inl ⟨.inl rfl, rfl⟩
  | cons q rest =>
    dsimp only
    split
    next hnil =>
      exact .inl ⟨.inr hnil, rfl⟩
    next hne =>
      exact .inr ⟨q, rest, rfl, hne, rfl⟩

/-- The stored prefixes in the order in which a loop over the names and their prefixes meets
them. -/
def stored : List Prefix :=
  (range env.domainOrder d.interceptedDomains).flatMap Prod.snd

/-- The stored prefixes are allowed for a peer. -/
def addAllowedIPs (peerKey : Bytes) : Interceptor × World :=
  ({ d with currentPeerKey := peerKey },
    (d.stored env).foldl (fun w p => w.addAllowedIPForPrefix env peerKey p) w)

/-- The stored prefixes are no longer allowed. -/
def removeAllowedIPs : Interceptor × World :=
  ({ d with currentPeerKey := [] }, (d.stored env).foldl (fun w p => w.decrementAllowedIP env p) w)

/-- The mappings of all domains leave the firewall. -/
def cleanupDNATMappings : World :=
  (range env.cleanupOrder d.interceptedDomains).foldl (fun w e => w.removeDNATMappings e.2) w

/-- The handler forgets its domains and takes back their routes. -/
def removeRoute : Interceptor × World :=
  ({ d with
      interceptedDomains := []
      nodup := List.nodup_nil },
    d.cleanupDNATMappings env
      ((d.stored env).foldl (fun w p => w.removeRouteAndAllowedIP env d.currentPeerKey p) w))

variable (resolvedDomain : Bytes) (newPrefixes : List Prefix)

/-- Only the name of the answer gets other prefixes: those of the answer, and with `KeepRoute` also
those it had. -/
theorem mem_prefixes_storePrefixes (domain : Bytes) (p : Prefix) :
    p ∈ (d.storePrefixes env resolvedDomain newPrefixes).prefixes domain ↔
      if domain = resolvedDomain then p ∈ newPrefixes ∨ d.keepRoute ∧ p ∈ d.prefixes domain
      else p ∈ d.prefixes domain := by
  unfold storePrefixes
  dsimp only
  split
  next hsame =>
    have hadd : p ∈ newPrefixes → p ∈ d.prefixes resolvedDomain := by
      intro hp
      by_contra hold
      have hmem : p ∈ (d.changes env resolvedDomain newPrefixes).1 :=
        (mem_toAdd _ _ _).mpr ⟨hp, hold⟩
      rw [hsame.1] at hmem
      cases hmem
    have hremove : p ∈ d.prefixes resolvedDomain → p ∈ newPrefixes := by
      intro hp
      by_contra hnew
      have hmem : p ∈ (d.changes env resolvedDomain newPrefixes).2 :=
        (mem_toRemove _ _ _).mpr ⟨hp, hnew⟩
      rw [hsame.2] at hmem
      cases hmem
    split
    next hdomain =>
      rw [hdomain]
      tauto
    · rfl
  · rw [prefixes, get_set]
    split
    next hdomain =>
      rw [getD_some, hdomain]
      cases d.keepRoute with
      | false => simp
      | true =>
        rw [if_pos rfl, List.mem_append, changes, mem_toAdd]
        tauto
    · rfl

@[simp] theorem keepRoute_storePrefixes :
    (d.storePrefixes env resolvedDomain newPrefixes).keepRoute = d.keepRoute := by
  unfold storePrefixes
  dsimp only
  split <;> rfl

@[simp] theorem currentPeerKey_storePrefixes :
    (d.storePrefixes env resolvedDomain newPrefixes).currentPeerKey = d.currentPeerKey := by
  unfold storePrefixes
  dsimp only
  split <;> rfl

end Interceptor

/-! ## Answers of both types -/

/-- The name of the question, `resolvedDomain`. -/
def Msg.resolvedDomain (r : Msg) : Option Bytes :=
  r.question.head?.map fun q => toLower q.name

/-- The message answers a question of this type for this name. -/
def Msg.isFor (r : Msg) (domain : Bytes) (qtype : QType) : Bool :=
  match r.question with
  | [] => false
  | q :: _ => toLower q.name = domain && q.qtype = qtype

/-- The prefixes of the latest answer of a type for a name. -/
def latest (qtype : QType) (domain : Bytes) (es : List (Env × Msg)) : List Prefix :=
  match (es.filter fun e => e.2.isFor domain qtype).getLast? with
  | none => []
  | some e => e.2.newPrefixes

variable (qtype : QType)

theorem latest_concat (domain : Bytes) (es : List (Env × Msg)) (e : Env × Msg) :
    latest qtype domain (es ++ [e]) =
      if e.2.isFor domain qtype then e.2.newPrefixes else latest qtype domain es := by
  unfold latest
  by_cases h : e.2.isFor domain qtype <;> simp [h]

/-- One answer after another. -/
def handle (d : Interceptor) (w : World) (es : List (Env × Msg)) : Interceptor × World :=
  es.foldl (fun s e => ((s.1.writeMsg e.1 s.2 e.2).1, (s.1.writeMsg e.1 s.2 e.2).2.1)) (d, w)

variable {d : Interceptor} {w : World} {es : List (Env × Msg)} {e : Env × Msg} {domain : Bytes}

theorem handle_concat : (handle d w (es ++ [e])).1 =
    ((handle d w es).1.writeMsg e.1 (handle d w es).2 e.2).1 := by
  unfold handle
  rw [List.foldl_concat]

theorem keepRoute_writeMsg (env : Env) (d : Interceptor) (w : World) (r : Msg) :
    (d.writeMsg env w r).1.keepRoute = d.keepRoute := by
  rcases d.writeMsg_cases env w r with ⟨-, hwritten⟩ | ⟨q, rest, -, -, hwritten⟩
  · rw [hwritten]
  · rw [hwritten]
    exact d.keepRoute_storePrefixes env _ _

theorem keepRoute_handle (d : Interceptor) (w : World) (es : List (Env × Msg)) :
    (handle d w es).1.keepRoute = d.keepRoute := by
  induction es using List.reverseRecOn with
  | nil => rfl
  | append_singleton es e ih => rw [handle_concat, keepRoute_writeMsg, ih]

theorem Msg.resolvedDomain_eq_some_iff :
    r.resolvedDomain = some domain ↔ ∃ qtype, r.isFor domain qtype := by
  unfold resolvedDomain isFor
  cases r.question with
  | nil => simp
  | cons q rest => simp

/-- An answer with addresses replaces the prefixes of its name; one without leaves them. -/
theorem mem_prefixes_writeMsg (env : Env) (w : World) (r : Msg) (domain : Bytes)
    (hkeep : d.keepRoute = false) (p : Prefix) : p ∈ (d.writeMsg env w r).1.prefixes domain ↔
      if r.resolvedDomain = some domain ∧ r.newPrefixes ≠ [] then p ∈ r.newPrefixes
      else p ∈ d.prefixes domain := by
  rcases d.writeMsg_cases env w r with ⟨hnone, hwritten⟩ | ⟨q, rest, hquestion, hne, hwritten⟩
  · rw [hwritten, if_neg]
    rintro ⟨hdomain, hne⟩
    rcases hnone with hquestion | hnil
    · rw [Msg.resolvedDomain, hquestion] at hdomain
      cases hdomain
    · exact hne hnil
  · rw [hwritten]
    show p ∈ (d.storePrefixes env (toLower q.name) r.newPrefixes).prefixes domain ↔ _
    rw [d.mem_prefixes_storePrefixes, hkeep]
    have hdomain : r.resolvedDomain = some domain ↔ domain = toLower q.name := by
      rw [Msg.resolvedDomain, hquestion, List.head?_cons, map_some, Option.some.injEq, eq_comm]
    by_cases hsame : domain = toLower q.name
    · rw [if_pos hsame, if_pos ⟨hdomain.mpr hsame, hne⟩]
      simp
    · rw [if_neg hsame, if_neg fun h => hsame (hdomain.mp h.1)]

/-- **Both types coexist**: the routes of the name are those of the latest answer of each type. -/
def Coexist (d : Interceptor) (w : World) (domain : Bytes) (es : List (Env × Msg)) : Prop :=
  ∀ p, p ∈ (handle d w es).1.prefixes domain ↔
    p ∈ latest .a domain es ∨ p ∈ latest .aaaa domain es

/-- The answer repeats all addresses of the latest answer of the other type; or, if it has none, its
own latest had none that the other does not have. -/
def RepeatsOther (domain : Bytes) (es : List (Env × Msg)) (r : Msg) : Prop :=
  ∀ qtype, r.isFor domain qtype = true →
    if r.newPrefixes = [] then latest qtype domain es ⊆ latest qtype.other domain es
    else latest qtype.other domain es ⊆ r.newPrefixes

theorem coexist_iff_either : Coexist d w domain es ↔ ∀ p, p ∈ (handle d w es).1.prefixes domain ↔
      p ∈ latest qtype domain es ∨ p ∈ latest qtype.other domain es := by
  cases qtype with
  | a => rfl
  | aaaa =>
    refine forall_congr' fun p => ?_
    rw [or_comm]
    rfl

theorem Msg.isFor_unique {qtype qtype' : QType} (h : r.isFor domain qtype)
    (h' : r.isFor domain qtype') : qtype = qtype' := by
  unfold isFor at h h'
  split at h
  · cases h
  next q rest hquestion =>
    simp only [hquestion, Bool.and_eq_true, decide_eq_true_eq] at h h'
    exact h.2.symm.trans h'.2

theorem QType.other_ne : qtype.other ≠ qtype := by
  cases qtype with
  | a => exact nofun
  | aaaa => exact nofun

/-- The step: after an answer both types coexist if and only if it repeats what the other has. -/
theorem coexist_concat_iff (hkeep : d.keepRoute = false) (h : Coexist d w domain es) :
    Coexist d w domain (es ++ [e]) ↔ RepeatsOther domain es e.2 := by
  have hmem := mem_prefixes_writeMsg e.1 (handle d w es).2 e.2 domain
    ((keepRoute_handle d w es).trans hkeep)
  by_cases hfor : e.2.resolvedDomain = some domain
  · obtain ⟨qtype, hqtype⟩ := Msg.resolvedDomain_eq_some_iff.mp hfor
    have hother : ¬ e.2.isFor domain qtype.other := by
      intro hc
      exact qtype.other_ne (Msg.isFor_unique hc hqtype)
    have hcond : RepeatsOther domain es e.2 ↔
        if e.2.newPrefixes = [] then latest qtype domain es ⊆ latest qtype.other domain es
        else latest qtype.other domain es ⊆ e.2.newPrefixes := by
      constructor
      · intro hr
        exact hr qtype hqtype
      · intro hr qtype' hqtype'
        rw [← Msg.isFor_unique hqtype hqtype']
        exact hr
    rw [hcond, coexist_iff_either qtype, handle_concat, latest_concat, latest_concat,
      if_pos hqtype, if_neg hother]
    rw [coexist_iff_either qtype] at h
    by_cases hnil : e.2.newPrefixes = []
    · -- the stored prefixes are kept
      simp only [hmem, h, hnil, ne_eq, not_true_eq_false, and_false, if_false, if_true,
        List.not_mem_nil, false_or, or_iff_right_iff_imp]
      rfl
    · simp only [hmem, if_pos (And.intro hfor hnil), if_neg hnil, iff_self_or]
      rfl
  · have hnone : ∀ qtype, latest qtype domain (es ++ [e]) = latest qtype domain es := by
      intro qtype
      rw [latest_concat, if_neg fun hc => hfor (Msg.resolvedDomain_eq_some_iff.mpr ⟨qtype, hc⟩)]
    refine iff_of_true ?_ fun qtype hqtype =>
      absurd (Msg.resolvedDomain_eq_some_iff.mpr ⟨qtype, hqtype⟩) hfor
    intro p
    rw [hnone, hnone, handle_concat, hmem, if_neg fun hc => hfor hc.1]
    exact h p

/-- **Answers of one type take the routes of the other.** The routes of a name are those of its
latest A and AAAA answers, after each answer, if and only if each answer that has addresses repeats
those of the other type, and no answer without addresses should have dropped any. -/
theorem coexist_iff (w : World) (peerKey domain : Bytes) (es : List (Env × Msg)) :
    (∀ pre, pre <+: es →
      Coexist { newInterceptor false with currentPeerKey := peerKey } w domain pre) ↔
    ∀ pre e, pre ++ [e] <+: es → RepeatsOther domain pre e.2 := by
  apply Transition.forall_prefix_iff
  · intro p
    exact iff_of_false List.not_mem_nil fun h => h.elim List.not_mem_nil List.not_mem_nil
  · intro pre e _ h
    exact coexist_concat_iff rfl h

/-- All counters succeed, and no address is local. -/
def allSucceed : Env where
  addRoute _ := .ok ()
  removeRoute _ := true
  addAllowedIP _ peerKey := .ok peerKey
  removeAllowedIP _ := true
  isLocalIP _ := false
  prefixOrder := .kept
  mappingOrder := .kept
  domainOrder := .kept
  cleanupOrder := .kept

/-- An answer to a question with some addresses. -/
def reply (qtype : QType) (name : Bytes) (ips : List Bytes) : Msg where
  question := [⟨name, qtype⟩]
  answer := ips.map fun ip => if qtype = .a then .a ip else .aaaa ip

/-- A client asks for both types of a host: the AAAA answer removes the IPv4 route. -/
theorem route_lost_to_other_type : ¬ Coexist { newInterceptor false with currentPeerKey := [112] }
    {} [104] [(allSucceed, reply .a [104] [[10, 0, 0, 1]]),
      (allSucceed, reply .aaaa [104] [[0x20, 1, 0xd, 0xb8] ++ List.replicate 11 0 ++ [1]])] := by
  intro h
  have hlost := (h (hostPrefix (.v4 0x0A000001#32))).mpr (by decide)
  revert hlost
  decide

end DNSInterceptor
