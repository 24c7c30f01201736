/-
# Fake addresses and their mappings

Interceptors that share the fake addresses and the firewall.  A fake address that was handed out in
an answer reaches its host only while the firewall translates it, so the mapping should stay while
some name of some interceptor has the real address.
-/
import AnonBird.DNSInterceptor

open GoStrings NetIP Uspfilter List Option

namespace DNSInterceptor

open DNSNames FakeIP.Manager

/-! ## Allocation and mappings -/

open FakeIP

variable (m : Manager)

namespace World

/-- The mappings of new prefixes go from their fake addresses, all of them, to their own
addresses. -/
structure Allocation (m : Manager) (toAdd : List Prefix)
    (result : Manager × List (Addr × Addr)) : Prop where
  kept : ∀ real fake, m.getFakeIP real = some fake → result.1.getFakeIP real = some fake
  fresh : ∀ real fake, result.1.getFakeIP real = some fake →
    m.getFakeIP real = some fake ∨ ∃ p ∈ toAdd, p.addr.unmap = real.unmap
  sound : ∀ fake real, get result.2 fake = some real →
    result.1.getFakeIP real = some fake ∧ ∃ p ∈ toAdd, p.addr = real
  complete : ∀ p ∈ toAdd, ∀ fake, result.1.getFakeIP p.addr = some fake →
    ∃ real, get result.2 fake = some real

variable {mappings : List (Addr × Addr)}

/-- One more address is allocated. -/
theorem Allocation.concat {m m' : Manager} {ps : List Prefix} {q : Prefix}
    {result : Manager × List (Addr × Addr)}
    (h : Allocation m ps result) (hm' : m' = (result.1.allocateFakeIP q.addr).2)
    (hmappings : ∀ fake, get mappings fake =
      if (result.1.allocateFakeIP q.addr).1 = some fake then some q.addr
      else get result.2 fake) : Allocation m (ps ++ [q]) (m', mappings) := by
  have hget : ∀ real, m'.getFakeIP real =
      if real.unmap = q.addr.unmap then (result.1.allocateFakeIP q.addr).1
      else result.1.getFakeIP real := by
    rw [hm']
    exact result.1.getFakeIP_allocateFakeIP q.addr
  have hkept : ∀ real fake, result.1.getFakeIP real = some fake →
      m'.getFakeIP real = some fake := by
    rw [hm']
    intro real fake hreal
    exact getFakeIP_of_allocate hreal
  refine ⟨fun real fake hreal => hkept real fake (h.kept real fake hreal), ?_, ?_, ?_⟩
  · intro real fake hreal
    rw [hget] at hreal
    split at hreal
    next hsame =>
      exact .inr ⟨q, by simp, hsame.symm⟩
    · rcases h.fresh real fake hreal with hold | ⟨p, hp, hpreal⟩
      · exact .inl hold
      · exact .inr ⟨p, mem_append_left _ hp, hpreal⟩
  · intro fake real hfake
    rw [hmappings] at hfake
    split at hfake
    next hallocated =>
      cases hfake
      refine ⟨?_, q, by simp, rfl⟩
      rw [hget, if_pos rfl, hallocated]
    · obtain ⟨hreal, p, hp, hpreal⟩ := h.sound fake real hfake
      exact ⟨hkept real fake hreal, p, mem_append_left _ hp, hpreal⟩
  · intro p hp fake hfake
    rw [hget] at hfake
    rw [hmappings]
    split
    · exact ⟨_, rfl⟩
    next hallocated =>
      split at hfake
      · exact absurd hfake hallocated
      next hne =>
        rcases mem_append.mp hp with hp | hp
        · exact h.complete p hp fake hfake
        · rw [mem_singleton.mp hp] at hne
          exact absurd rfl hne

/-- The loop over the new prefixes. -/
theorem allocation_allocateFakeIPs (toAdd : List Prefix) :
    Allocation m toAdd (allocateFakeIPs m toAdd) := by
  unfold allocateFakeIPs
  induction toAdd using reverseRecOn with
  | nil =>
    refine ⟨fun _ _ h => h, fun _ _ h => .inl h, fun _ _ h => ?_, fun p hp => ?_⟩
    · cases h
    · cases hp
  | append_singleton ps q ih =>
    rw [foldl_concat]
    dsimp only
    split
    next fakeIP hallocated =>
      refine ih.concat rfl fun fake => ?_
      rw [GoMap.get_set, hallocated]
      simp [eq_comm]
    next hallocated =>
      refine ih.concat rfl fun fake => ?_
      rw [hallocated]
      simp

/-- What the firewall translates an address to. -/
def translation (w : World) (addr : Addr) : Option Addr :=
  w.internalDnatFw.bind fun fw => fw.getDNATTranslation addr

/-- New mappings come before old ones. -/
theorem getDNATTranslation_addMappings (env : Env)
    (hlocal : ∀ fake real, get mappings fake = some real → env.isLocalIP real = false)
    (fw : InternalDNAT) (addr : Addr) : (addMappings env mappings fw).getDNATTranslation addr =
      (get mappings addr).or (fw.getDNATTranslation addr) := by
  -- over a part of the loop, what is added is what the part has
  have hloop : ∀ entries : List (Addr × Addr), (∀ e ∈ entries, get mappings e.1 = some e.2) →
      (entries.foldl (fun fw e => fw.addInternalDNATMapping env.isLocalIP e.1 e.2)
        fw).getDNATTranslation addr =
      if addr ∈ entries.map Prod.fst then get mappings addr
      else fw.getDNATTranslation addr := by
    intro entries
    induction entries using reverseRecOn with
    | nil => simp
    | append_singleton entries e ih =>
      intro hmem
      have hentry := hmem e (by simp)
      rw [foldl_concat, InternalDNAT.addInternalDNATMapping, hlocal _ _ hentry, if_neg (by simp),
        InternalDNAT.getDNATTranslation_set, ih fun e he => hmem e (mem_append_left _ he)]
      simp only [map_append, map_singleton, mem_append, mem_singleton]
      by_cases haddr : addr = e.1
      · simp [haddr, hentry]
      · simp only [haddr, if_false, or_false]
  rw [addMappings, hloop _ fun _ he => GoMap.mem_range.mp he]
  simp only [GoMap.mem_range_fst]
  cases get mappings addr <;> rfl

/-- The fake addresses of the prefixes are no longer mapped. -/
theorem getDNATTranslation_removeMappings (ps : List Prefix)
    (fw : InternalDNAT) (addr : Addr) : (removeMappings m ps fw).getDNATTranslation addr =
      if ∃ p ∈ ps, m.getFakeIP p.addr = some addr then none else fw.getDNATTranslation addr := by
  unfold removeMappings
  induction ps using reverseRecOn with
  | nil => simp
  | append_singleton ps p ih =>
    rw [foldl_concat]
    by_cases hp : m.getFakeIP p.addr = some addr
    · simp [hp]
    · cases hfake : m.getFakeIP p.addr with
      | none => simpa [hfake] using ih
      | some fakeIP =>
        have hne : addr ≠ fakeIP := by
          rintro rfl
          exact hp hfake
        simpa [hfake, hne, hne.symm] using ih

/-- A record whose address has a fake one carries that in the reply. -/
theorem mem_replaceIPsInDNSResponse {w : World} {r : Msg} {rr : RR} {ip fake : Addr}
    (hfw : w.internalDnatFw.isSome) (hrr : rr ∈ r.answer) (hip : rr.addr = some ip)
    (hfake : w.fakeIPManager.getFakeIP ip = some fake) :
    RR.a fake.asSlice ∈ (w.replaceIPsInDNSResponse r).answer ∨
      RR.aaaa fake.asSlice ∈ (w.replaceIPsInDNSResponse r).answer := by
  obtain ⟨fw, hfw⟩ := isSome_iff_exists.mp hfw
  have hmem : rr.withIP fake.asSlice ∈ (w.replaceIPsInDNSResponse r).answer := by
    rw [replaceIPsInDNSResponse, hfw]
    refine mem_map.mpr ⟨rr, hrr, ?_⟩
    rw [hip, bind_some, hfake]
  cases rr with
  | a ip => exact .inl hmem
  | aaaa ip => exact .inr hmem
  | other => cases hip

end World

open World

namespace Interceptor

variable (env : Env) (d : Interceptor) {w : World} {fw : InternalDNAT}

/-- What new prefixes do to the manager and the firewall. -/
theorem addPrefixes_firewall (hfw : w.internalDnatFw = some fw) (toAdd : List Prefix) :
    (d.addPrefixes env w toAdd).fakeIPManager = (allocateFakeIPs w.fakeIPManager toAdd).1 ∧
    (d.addPrefixes env w toAdd).internalDnatFw =
      some (addMappings env (allocateFakeIPs w.fakeIPManager toAdd).2 fw) := by
  have hcounts := (w.allocated toAdd).counts_foldl
    (fun w p => w.counts_addRouteAndAllowedIP env d.currentPeerKey p) toAdd
  have hallocated : w.allocated toAdd =
      { w with fakeIPManager := (allocateFakeIPs w.fakeIPManager toAdd).1 } := by
    rw [allocated, hfw]
  rw [hallocated] at hcounts
  refine ⟨?_, ?_⟩
  · rw [addPrefixes, addDNATMappings, hallocated]
    exact hcounts.fakeIPManager
  · rw [addPrefixes, addDNATMappings, hallocated]
    rw [hcounts.internalDnatFw]
    rw [hfw, map_some]

/-- What old prefixes do to the manager and the firewall. -/
theorem removePrefixes_firewall (hfw : w.internalDnatFw = some fw) (toRemove : List Prefix) :
    (d.removePrefixes env w toRemove).fakeIPManager = w.fakeIPManager ∧
    (d.removePrefixes env w toRemove).internalDnatFw =
      some (removeMappings w.fakeIPManager (if d.keepRoute then [] else toRemove) fw) := by
  have hcounts := w.counts_foldl
    (fun w p => w.counts_removeRouteAndAllowedIP env d.currentPeerKey p) toRemove
  unfold removePrefixes
  split
  · exact ⟨rfl, hfw⟩
  · rw [removeDNATMappings]
    refine ⟨hcounts.fakeIPManager, ?_⟩
    rw [hcounts.fakeIPManager, hcounts.internalDnatFw, hfw, map_some]

variable {d}

/-- A prefix of a domain is stored. -/
theorem exists_of_mem_prefixes {domain : Bytes} {p : Prefix} (hp : p ∈ d.prefixes domain) :
    ∃ ps, (domain, ps) ∈ d.interceptedDomains ∧ p ∈ ps := by
  unfold prefixes at hp
  cases hget : get d.interceptedDomains domain with
  | none =>
    rw [hget] at hp
    cases hp
  | some ps =>
    rw [hget] at hp
    exact ⟨ps, GoMap.mem_of_get hget, hp⟩

end Interceptor

/-! ## Interceptors that share a firewall -/

/-- Interceptors, what they share, and the replies they have written. -/
structure System (ι : Type) where
  interceptors : ι → Interceptor
  world : World
  replies : List Msg := []

/-- An answer that an interceptor handles. -/
structure Delivery (ι : Type) where
  receiver : ι
  env : Env
  msg : Msg

/-- New interceptors with their peers, and a firewall that supports internal DNAT. -/
def System.start {ι : Type} (keepRoute : ι → Bool) (peerKey : ι → Bytes) (w : World)
    (fw : InternalDNAT) : System ι where
  interceptors i := { newInterceptor (keepRoute i) with currentPeerKey := peerKey i }
  world := { w with internalDnatFw := some fw }

open Function

namespace System

variable {ι : Type} (s : System ι)

/-- What an answer adds to the prefixes of its name, and what it drops from them. -/
def changes (e : Delivery ι) : List Prefix × List Prefix :=
  match e.msg.question with
  | [] => ([], [])
  | q :: _ =>
    if e.msg.newPrefixes = [] then ([], [])
    else
      (s.interceptors e.receiver).changes e.env (toLower q.name) e.msg.newPrefixes

/-- The prefixes whose references and mappings an answer releases. -/
def dropped (e : Delivery ι) : List Prefix :=
  if (s.interceptors e.receiver).keepRoute then [] else (s.changes e).2

/-- The fake addresses and the mappings of an answer. -/
def allocation (e : Delivery ι) : Manager × List (Addr × Addr) :=
  allocateFakeIPs s.world.fakeIPManager (s.changes e).1

/-- Some name of some interceptor has the prefix. -/
def Stored (p : Prefix) : Prop := ∃ i domain, p ∈ (s.interceptors i).prefixes domain

/-- The address was handed out in a reply. -/
def HandedOut (addr : Addr) : Prop :=
  ∃ r ∈ s.replies, RR.a addr.asSlice ∈ r.answer ∨ RR.aaaa addr.asSlice ∈ r.answer

/-- **Mappings outlive their users**: while the prefixes of some name have an address, its fake
address is translated to it if it was handed out. -/
def Kept : Prop :=
  ∀ p, s.Stored p → ∀ fake, s.world.fakeIPManager.getFakeIP p.addr = some fake →
    s.HandedOut fake → s.world.translation fake = some p.addr

/-- The firewall takes the mappings of an answer: none is to an address of this host. -/
def Accepted (e : Delivery ι) : Prop :=
  ∀ fake real, get (s.allocation e).2 fake = some real → e.env.isLocalIP real = false

/-- The answer has the prefix, or a name has it that is not the answered one. -/
def InUse (e : Delivery ι) (p : Prefix) : Prop :=
  p ∈ e.msg.newPrefixes ∨ ∃ i domain, p ∈ (s.interceptors i).prefixes domain ∧
    ¬ (i = e.receiver ∧ e.msg.resolvedDomain = some domain)

/-- No address with a fake one that an answer drops is in the answer or in use for another name or
interceptor. -/
def Spares (e : Delivery ι) : Prop :=
  ∀ p ∈ s.dropped e, (s.allocation e).1.getFakeIP p.addr ≠ none →
    ∀ p', s.InUse e p' → p'.addr ≠ p.addr

variable [DecidableEq ι]

/-- One of the handlers writes a reply. -/
def step (e : Delivery ι) : System ι :=
  let written := (s.interceptors e.receiver).writeMsg e.env s.world e.msg
  { interceptors := update s.interceptors e.receiver written.1
    world := written.2.1
    replies := written.2.2 :: s.replies }

/-- The system after replies. -/
def run (es : List (Delivery ι)) : System ι := es.foldl (fun s e => s.step e) s

/-- What an answer does: the prefixes of its name get fake addresses, which are mapped, and the
mappings of the dropped prefixes are removed. -/
structure Delivered (e : Delivery ι) : Prop where
  firewall : (s.step e).world.internalDnatFw.isSome
  fakeIPManager : (s.step e).world.fakeIPManager = (s.allocation e).1
  translation : s.Accepted e → ∀ addr, (s.step e).world.translation addr =
    if ∃ p ∈ s.dropped e, (s.allocation e).1.getFakeIP p.addr = some addr then none
    else (get (s.allocation e).2 addr).or (s.world.translation addr)
  stored : ∀ p, (s.step e).Stored p → s.Stored p ∨ p ∈ (s.changes e).1
  old : ∀ p ∈ (s.changes e).2, s.Stored p
  new : ∀ p ∈ (s.changes e).1, ∃ ip, p = hostPrefix ip ∧
    ∀ fake, (s.allocation e).1.getFakeIP ip = some fake → (s.step e).HandedOut fake
  replies : ∀ addr, s.HandedOut addr → (s.step e).HandedOut addr

variable {s} {e : Delivery ι}

section

variable (hfw : s.world.internalDnatFw.isSome)

include hfw

/-- An answer without a question or without addresses is passed on. -/
theorem delivered_of_passed_on
    (hwritten : (s.interceptors e.receiver).writeMsg e.env s.world e.msg =
      (s.interceptors e.receiver, s.world, e.msg)) (hchanges : s.changes e = ([], [])) :
    s.Delivered e := by
  have hstep : s.step e =
      { interceptors := s.interceptors, world := s.world, replies := e.msg :: s.replies } := by
    rw [step, hwritten, update_eq_self]
  have hallocation : s.allocation e = (s.world.fakeIPManager, []) := by
    rw [allocation, hchanges]
    rfl
  have hdropped : s.dropped e = [] := by
    rw [dropped, hchanges, ite_self]
  refine ⟨by rw [hstep]; exact hfw, by rw [hstep, hallocation], fun _ addr => ?_, fun p hp => ?_,
    fun p hp => ?_, fun p hp => ?_, fun addr => ?_⟩
  · rw [hstep, hallocation, hdropped]
    simp [get]
  · rw [hstep] at hp
    exact .inl hp
  · rw [hchanges] at hp
    cases hp
  · rw [hchanges] at hp
    cases hp
  · rintro ⟨r, hr, haddr⟩
    exact ⟨r, mem_cons_of_mem _ hr, haddr⟩

/-- The case of a reply that updates a domain. -/
theorem delivered_of_update {q : Question}
    {rest : List Question} (hquestion : e.msg.question = q :: rest) (hne : e.msg.newPrefixes ≠ [])
    (hupdated :
      let new := (s.interceptors e.receiver).updateDomainPrefixes e.env s.world (toLower q.name)
        e.msg.newPrefixes
      (s.interceptors e.receiver).writeMsg e.env s.world e.msg =
        (new.1, new.2, new.2.replaceIPsInDNSResponse e.msg)) : s.Delivered e := by
  obtain ⟨fw, hfw⟩ := isSome_iff_exists.mp hfw
  have hchanges : s.changes e = (s.interceptors e.receiver).changes e.env
      (toLower q.name) e.msg.newPrefixes := by
    rw [changes, hquestion]
    dsimp only
    rw [if_neg hne]
  have hworld : (s.step e).world = (s.interceptors e.receiver).removePrefixes e.env
      ((s.interceptors e.receiver).addPrefixes e.env s.world (s.changes e).1) (s.changes e).2 := by
    rw [step, hupdated, hchanges]
    rfl
  obtain ⟨hadded, haddedFw⟩ :=
    (s.interceptors e.receiver).addPrefixes_firewall e.env hfw (s.changes e).1
  obtain ⟨hmanager, hfirewall⟩ :=
    (s.interceptors e.receiver).removePrefixes_firewall e.env haddedFw (s.changes e).2
  rw [← hworld, hadded] at hmanager hfirewall
  have htranslates : (s.step e).world.internalDnatFw =
      some (removeMappings (s.allocation e).1 (s.dropped e)
        (addMappings e.env (s.allocation e).2 fw)) := hfirewall
  have hsome : (s.step e).world.internalDnatFw.isSome := by
    rw [htranslates]
    rfl
  have hinterceptors : (s.step e).interceptors = update s.interceptors e.receiver
      ((s.interceptors e.receiver).storePrefixes e.env (toLower q.name)
        e.msg.newPrefixes) := by
    rw [step, hupdated]
    rfl
  have hreplies : (s.step e).replies =
      (s.step e).world.replaceIPsInDNSResponse e.msg :: s.replies := by
    rw [step, hupdated]
  refine ⟨hsome, hmanager, fun haccepted addr => ?_, ?_, ?_, ?_, ?_⟩
  · rw [translation, htranslates, bind_some, getDNATTranslation_removeMappings,
      getDNATTranslation_addMappings e.env haccepted, translation, hfw,
      bind_some]
  · rintro p ⟨i, domain, hp⟩
    rw [hinterceptors] at hp
    by_cases hi : i = e.receiver
    · rw [hi, update_self, Interceptor.mem_prefixes_storePrefixes] at hp
      by_cases hold : p ∈ (s.interceptors e.receiver).prefixes domain
      · exact .inl ⟨e.receiver, domain, hold⟩
      · right
        split at hp
        next hdomain =>
          rw [hdomain] at hold hp
          rw [hchanges, Interceptor.changes, mem_toAdd]
          rcases hp with hp | hp
          · exact ⟨hp, hold⟩
          · exact absurd hp.2 hold
        · exact absurd hp hold
    · rw [update_of_ne hi] at hp
      exact .inl ⟨i, domain, hp⟩
  · intro p hp
    rw [hchanges, Interceptor.changes, mem_toRemove] at hp
    exact ⟨e.receiver, _, hp.1⟩
  · intro p hp
    rw [hchanges, Interceptor.changes, mem_toAdd] at hp
    obtain ⟨rr, hrr, ip, hip, hprefix⟩ := Msg.mem_newPrefixes.mp hp.1
    refine ⟨ip, hprefix.symm, fun fake hfake => ?_⟩
    refine ⟨_, by rw [hreplies]; exact mem_cons_self, ?_⟩
    apply mem_replaceIPsInDNSResponse hsome hrr hip
    rw [hmanager]
    exact hfake
  · rintro addr ⟨r, hr, haddr⟩
    exact ⟨r, by rw [hreplies]; exact mem_cons_of_mem _ hr, haddr⟩

/-- What every reply does. -/
theorem delivered (e : Delivery ι) : s.Delivered e := by
  rcases (s.interceptors e.receiver).writeMsg_cases e.env s.world e.msg with
    ⟨hnone, hwritten⟩ | ⟨q, rest, hquestion, hne, hwritten⟩
  · refine delivered_of_passed_on hfw hwritten ?_
    unfold changes
    split
    · rfl
    next hquestion =>
      rcases hnone with hnil | hnil
      · rw [hnil] at hquestion
        cases hquestion
      · exact if_pos hnil
  · exact delivered_of_update hfw hquestion hne hwritten

end

/-- Where an answer drops something, the prefixes that are stored after it are those in use with
it. -/
theorem stored_step_iff {p : Prefix} (hp : p ∈ s.dropped e) (p' : Prefix) :
    (s.step e).Stored p' ↔ s.InUse e p' := by
  obtain ⟨hkeep, hp⟩ : (s.interceptors e.receiver).keepRoute = false ∧ p ∈ (s.changes e).2 := by
    unfold dropped at hp
    split at hp
    · cases hp
    next hkeep => exact ⟨by simpa using hkeep, hp⟩
  obtain ⟨name, hname, hne⟩ :
      ∃ name, e.msg.resolvedDomain = some name ∧ e.msg.newPrefixes ≠ [] := by
    unfold changes at hp
    split at hp
    · cases hp
    next q rest hquestion =>
      refine ⟨toLower q.name, by rw [Msg.resolvedDomain, hquestion]; rfl, fun hnil => ?_⟩
      rw [if_pos hnil] at hp
      cases hp
  have hwritten := fun domain => mem_prefixes_writeMsg e.env s.world e.msg domain hkeep p'
  have hother : ∀ i, i ≠ e.receiver → (s.step e).interceptors i = s.interceptors i :=
    fun i hi => update_of_ne hi _ _
  have hreceiver : (s.step e).interceptors e.receiver =
      ((s.interceptors e.receiver).writeMsg e.env s.world e.msg).1 := update_self _ _ _
  constructor
  · rintro ⟨i, domain, hp'⟩
    by_cases hi : i = e.receiver
    · rw [hi, hreceiver, hwritten] at hp'
      split at hp'
      · exact .inl hp'
      next hdomain => exact .inr ⟨e.receiver, domain, hp', fun h => hdomain ⟨h.2, hne⟩⟩
    · rw [hother i hi] at hp'
      exact .inr ⟨i, domain, hp', fun h => hi h.1⟩
  · rintro (hp' | ⟨i, domain, hp', hdomain⟩)
    · refine ⟨e.receiver, name, ?_⟩
      rw [hreceiver, hwritten, if_pos ⟨hname, hne⟩]
      exact hp'
    · refine ⟨i, domain, ?_⟩
      by_cases hi : i = e.receiver
      · rw [hi, hreceiver, hwritten, if_neg fun h => hdomain ⟨hi, h.1⟩]
        exact hi ▸ hp'
      · rw [hother i hi]
        exact hp'

/-! ## Histories -/

/-- What holds in every history: stored addresses are unmapped, and fake addresses of stored ones
were handed out. -/
structure Sound (s : System ι) : Prop where
  firewall : s.world.internalDnatFw.isSome
  unmapped : ∀ p, s.Stored p → p.addr.unmap = p.addr
  handed : ∀ p, s.Stored p → ∀ fake, s.world.fakeIPManager.getFakeIP p.addr = some fake →
    s.HandedOut fake

omit [DecidableEq ι] in
/-- Nothing is stored at the start. -/
theorem sound_start (keepRoute : ι → Bool) (peerKey : ι → Bytes) (w : World) (fw : InternalDNAT) :
    (start keepRoute peerKey w fw).Sound := by
  have hnone : ∀ p, ¬ (start keepRoute peerKey w fw).Stored p := by
    rintro p ⟨i, domain, hp⟩
    cases hp
  exact ⟨rfl, fun p hp => absurd hp (hnone p), fun p hp => absurd hp (hnone p)⟩

/-- Addresses that are the same unmapped share their fake address. -/
theorem getFakeIP_congr {real real' : Addr} (h : real.unmap = real'.unmap) :
    m.getFakeIP real = m.getFakeIP real' := by
  rw [getFakeIP, h, getFakeIP]

/-- A prefix stored after a step was stored before, or is new. -/
theorem Sound.stored_step (h : s.Sound) {p : Prefix} {fake : Addr} (hp : (s.step e).Stored p)
    (hfake : (s.allocation e).1.getFakeIP p.addr = some fake) :
    s.Stored p ∧ s.world.fakeIPManager.getFakeIP p.addr = some fake ∨
      ∃ q ∈ (s.changes e).1, q.addr.unmap = p.addr.unmap := by
  have hdelivered := delivered h.firewall e
  have hallocation := allocation_allocateFakeIPs s.world.fakeIPManager (s.changes e).1
  rcases hdelivered.stored p hp with hold | hnew
  · rcases hallocation.fresh p.addr fake hfake with hkept | hfresh
    · exact .inl ⟨hold, hkept⟩
    · exact .inr hfresh
  · exact .inr ⟨p, hnew, rfl⟩

/-- A reply keeps the system sound. -/
theorem Sound.step (h : s.Sound) (e : Delivery ι) : (s.step e).Sound := by
  have hdelivered := delivered h.firewall e
  refine ⟨hdelivered.firewall, fun p hp => ?_, fun p hp fake hfake => ?_⟩
  · rcases hdelivered.stored p hp with hold | hnew
    · exact h.unmapped p hold
    · obtain ⟨ip, rfl, -⟩ := hdelivered.new p hnew
      exact ip.unmap_unmap
  · rw [hdelivered.fakeIPManager] at hfake
    rcases h.stored_step hp hfake with ⟨hold, hkept⟩ | ⟨q, hq, haddr⟩
    · exact hdelivered.replies fake (h.handed p hold fake hkept)
    · obtain ⟨ip, rfl, hhanded⟩ := hdelivered.new q hq
      apply hhanded
      rw [getFakeIP_congr _ (show ip.unmap = p.addr.unmap from ip.unmap_unmap.symm.trans haddr)]
      exact hfake

/-- An answer whose mappings the firewall takes keeps the mappings of what is in use if and only if
it drops nothing that is still in use. -/
theorem kept_step_iff (h : s.Sound) (haccepted : s.Accepted e) (hkept : s.Kept) :
    (s.step e).Kept ↔ s.Spares e := by
  have hdelivered := delivered h.firewall e
  have hsound := h.step e
  have hallocation := allocation_allocateFakeIPs s.world.fakeIPManager (s.changes e).1
  constructor
  · intro hafter p hp hfake p' hp' haddr
    rw [← stored_step_iff hp] at hp'
    obtain ⟨fake, hfake⟩ := ne_none_iff_exists'.mp hfake
    have hfake' : (s.step e).world.fakeIPManager.getFakeIP p'.addr = some fake := by
      rw [hdelivered.fakeIPManager, haddr]
      exact hfake
    have htranslated := hafter p' hp' fake hfake' (hsound.handed p' hp' fake hfake')
    rw [hdelivered.translation haccepted, if_pos ⟨p, hp, hfake⟩] at htranslated
    cases htranslated
  · intro hspares p hp fake hfake _
    rw [hdelivered.fakeIPManager] at hfake
    -- no dropped prefix has this fake address
    have hdropped : ¬ ∃ q ∈ s.dropped e, (s.allocation e).1.getFakeIP q.addr = some fake := by
      rintro ⟨q, hq, hqfake⟩
      refine hspares q hq (by rw [hqfake]; exact some_ne_none fake) p
        ((stored_step_iff hq p).mp hp) ?_
      have hstored : s.Stored q := by
        unfold dropped at hq
        split at hq
        · cases hq
        · exact hdelivered.old q hq
      rw [← hsound.unmapped p hp, ← h.unmapped q hstored]
      exact eq_of_getFakeIP hfake hqfake
    rw [hdelivered.translation haccepted, if_neg hdropped]
    cases hmapping : get (s.allocation e).2 fake with
    | some real =>
      obtain ⟨hreal, q, hq, rfl⟩ := hallocation.sound fake real hmapping
      obtain ⟨ip, rfl, -⟩ := hdelivered.new q hq
      rw [some_or, ← hsound.unmapped p hp]
      rw [show (hostPrefix ip).addr = (hostPrefix ip).addr.unmap from ip.unmap_unmap.symm]
      exact congrArg some (eq_of_getFakeIP hreal hfake)
    | none =>
      rcases h.stored_step hp hfake with ⟨hold, hkeptFake⟩ | ⟨q, hq, haddr⟩
      · exact hkept p hold fake hkeptFake (h.handed p hold fake hkeptFake)
      · rw [← getFakeIP_congr _ haddr] at hfake
        obtain ⟨real, hreal⟩ := hallocation.complete q hq fake hfake
        rw [allocation, hreal] at hmapping
        cases hmapping

/-- Every run keeps the system sound. -/
theorem sound_run (h : s.Sound) (es : List (Delivery ι)) : (s.run es).Sound :=
  foldlRecOn es _ h fun _ h e _ => h.step e

end System

open DNSInterceptor.System

/-- **When mappings outlive their users.** The mapping of a fake address stays while its real
address is in use if and only if no answer drops an address, from the prefixes of its name, that has
a fake one and is still in use for another name or interceptor. -/
theorem kept_iff {ι : Type} [DecidableEq ι] (keepRoute : ι → Bool) (peerKey : ι → Bytes)
    (w : World) (fw : InternalDNAT) (es : List (Delivery ι))
    (haccepted : ∀ pre e, pre ++ [e] <+: es →
      ((start keepRoute peerKey w fw).run pre).Accepted e) :
    (∀ pre, pre <+: es → ((start keepRoute peerKey w fw).run pre).Kept) ↔
      ∀ pre e, pre ++ [e] <+: es → ((start keepRoute peerKey w fw).run pre).Spares e := by
  have hstart := sound_start keepRoute peerKey w fw
  apply Transition.forall_prefix_iff
  · rintro p ⟨i, domain, hp⟩
    cases hp
  · intro pre e hpre hkept
    rw [System.run, foldl_concat]
    exact kept_step_iff (sound_run hstart pre) (haccepted pre e hpre) hkept

/-- Two names are answered with the same address, and then the first one with another. -/
def sharedThenMoved : List (Delivery Unit) :=
  [⟨(), allSucceed, reply .a [97] [[10, 0, 0, 1]]⟩, ⟨(), allSucceed, reply .a [98] [[10, 0, 0, 1]]⟩,
    ⟨(), allSucceed, reply .a [97] [[10, 0, 0, 2]]⟩]

/-- Two names are answered with different addresses, and then the first one with a third. -/
def separateThenMoved : List (Delivery Unit) :=
  [⟨(), allSucceed, reply .a [97] [[10, 0, 0, 1]]⟩, ⟨(), allSucceed, reply .a [98] [[10, 0, 0, 2]]⟩,
    ⟨(), allSucceed, reply .a [97] [[10, 0, 0, 3]]⟩]

/-- The last answer drops an address that no other name has, so all mappings in use are kept. -/
theorem kept_separateThenMoved : ((start (fun _ : Unit => false) (fun _ => [112]) {}
    noMappings).run separateThenMoved).Kept := by
  refine (kept_iff (fun _ : Unit => false) (fun _ => [112]) {} noMappings separateThenMoved ?_).mpr
    ?_ separateThenMoved prefix_rfl
  · intro pre e hpre fake real _
    have he : e ∈ separateThenMoved := hpre.subset (by simp)
    simp only [separateThenMoved, mem_cons, not_mem_nil, or_false] at he
    rcases he with rfl | rfl | rfl <;> rfl
  · intro pre e hpre p hp hfake p' hp' haddr
    rcases pre with _ | ⟨d, _ | ⟨d', _ | ⟨d'', rest⟩⟩⟩
    all_goals simp [separateThenMoved] at hpre
    · obtain rfl := hpre
      cases hp
    · obtain ⟨rfl, rfl⟩ := hpre
      cases hp
    · obtain ⟨rfl, rfl, rfl⟩ := hpre
      obtain rfl := mem_singleton.mp (show p ∈ [hostPrefix (.v4 0x0A000001#32)] from hp)
      rcases hp' with hnew | ⟨⟨⟩, domain, hold, hdomain⟩
      · obtain rfl := mem_singleton.mp (show p' ∈ [hostPrefix (.v4 0x0A000003#32)] from hnew)
        revert haddr
        decide
      · obtain ⟨ps, hps, hp'⟩ := Interceptor.exists_of_mem_prefixes hold
        obtain heq | hps := mem_cons.mp (show (domain, ps) ∈
          [([98], [hostPrefix (.v4 0x0A000002#32)]), ([97], [hostPrefix (.v4 0x0A000001#32)])]
            from hps)
        · cases heq
          obtain rfl := mem_singleton.mp hp'
          revert haddr
          decide
        · cases mem_singleton.mp hps
          exact hdomain ⟨rfl, rfl⟩

/-- The second name still has the address, and its fake address was handed out, but is no longer
translated. -/
theorem mapping_lost_in_use :
    ¬ ((start (fun _ : Unit => false) (fun _ => [112]) {} noMappings).run
      sharedThenMoved).Kept := by
  intro h
  have htranslated := h (hostPrefix (.v4 0x0A000001#32)) ⟨(), [98], by decide⟩
    (.v4 0xF0000001#32) (by decide) ⟨_, mem_cons_of_mem _ mem_cons_self, by decide⟩
  revert htranslated
  decide

end DNSInterceptor
