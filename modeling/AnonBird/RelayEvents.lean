/-
# Delivery of peer state events

Model of the event loop of `relay/server/store/listener.go`.  Online and offline events of a
listener are queued on one channel, "because with it we can ensure all events will be processed in
the order they were sent".  The loop takes what is queued and reports first the peers that came
online and then those that went offline.
-/
import AnonBird.RelayMessages
import AnonBird.Transition

open RelayMessages List

namespace RelayEvents

/-! ## The event loop -/

/-- A peer came online or went offline. -/
structure Event where
  peerID : PeerID
  online : Bool
  deriving DecidableEq

/-- A call of one of the two callbacks. -/
inductive Call where
  | onPeersComeOnline (peers : List PeerID)
  | onPeersWentOffline (peers : List PeerID)
  deriving DecidableEq

/-- The lists `peersOnline` and `peersOffline` of one round of the loop. -/
structure Round where
  peersOnline : List PeerID
  peersOffline : List PeerID
  deriving DecidableEq

/-- The channel of a listener and its event loop; there is no round while the loop waits for
an event.  The calls are those made so far. -/
structure Loop where
  eventChan : List Event
  round : Option Round
  calls : List Call
  deriving DecidableEq

/-- The capacity of the channel. -/
def eventChanSize : ℕ := 244

/-- A new listener. -/
def newListener : Loop := ⟨[], none, []⟩

/-- An event is appended to the list of its kind. -/
def Round.add (r : Round) (e : Event) : Round :=
  if e.online then { r with peersOnline := r.peersOnline ++ [e.peerID] }
  else { r with peersOffline := r.peersOffline ++ [e.peerID] }

/-- The calls at the end of a round. -/
def Round.calls (r : Round) : List Call :=
  (if 0 < r.peersOnline.length then [.onPeersComeOnline r.peersOnline] else []) ++
    if 0 < r.peersOffline.length then [.onPeersWentOffline r.peersOffline] else []

/-- What happens on the channel and in the loop.  The steps that receive name the event they
receive. -/
inductive Label where
  /-- `l.eventChan <- &event{…}` -/
  | send (e : Event)
  /-- `case e := <-l.eventChan` -/
  | receive (e : Event)
  /-- `e = <-l.eventChan`, with an event queued. -/
  | drain (e : Event)
  /-- The channel is empty and the callbacks are called. -/
  | deliver
  deriving DecidableEq

/-- One step; a send waits while the channel is full. -/
def Loop.step (l : Loop) : Label → Option Loop
  | .send e =>
    if l.eventChan.length < eventChanSize then some { l with eventChan := l.eventChan ++ [e] }
    else none
  | .receive e =>
    match l.round, l.eventChan with
    | none, e' :: rest =>
      if e = e' then some { l with eventChan := rest, round := some (Round.add ⟨[], []⟩ e) }
      else none
    | _, _ => none
  | .drain e =>
    match l.round, l.eventChan with
    | some r, e' :: rest =>
      if e = e' then some { l with eventChan := rest, round := some (r.add e) } else none
    | _, _ => none
  | .deliver =>
    match l.round, l.eventChan with
    | some r, [] => some { l with round := none, calls := l.calls ++ r.calls }
    | _, _ => none

/-- The steps as a relation. -/
def Step (l : Loop) (a : Label) (l' : Loop) : Prop := l.step a = some l'

variable {l l' : Loop} {e : Event}

theorem step_send (h : Step l (.send e) l') :
    l' = { l with eventChan := l.eventChan ++ [e] } := by
  simp only [Step, Loop.step] at h
  split at h
  · exact (Option.some.inj h).symm
  · cases h

theorem step_receive (h : Step l (.receive e) l') :
    ∃ rest, l.round = none ∧ l.eventChan = e :: rest ∧
      l' = { l with eventChan := rest, round := some (Round.add ⟨[], []⟩ e) } := by
  simp only [Step, Loop.step] at h
  split at h
  next e' rest hnone hchan =>
    split at h
    next he =>
      subst he
      exact ⟨rest, hnone, hchan, (Option.some.inj h).symm⟩
    · cases h
  · cases h

theorem step_drain (h : Step l (.drain e) l') :
    ∃ r rest, l.round = some r ∧ l.eventChan = e :: rest ∧
      l' = { l with eventChan := rest, round := some (r.add e) } := by
  simp only [Step, Loop.step] at h
  split at h
  next r e' rest hr hchan =>
    split at h
    next he =>
      subst he
      exact ⟨r, rest, hr, hchan, (Option.some.inj h).symm⟩
    · cases h
  · cases h

theorem step_deliver (h : Step l .deliver l') : ∃ r, l.round = some r ∧ l.eventChan = [] ∧
      l' = { l with round := none, calls := l.calls ++ r.calls } := by
  simp only [Step, Loop.step] at h
  split at h
  next r hr hchan =>
    exact ⟨r, hr, hchan, (Option.some.inj h).symm⟩
  · cases h

/-! ## What is queued and what is reported -/

/-- The events that were queued, in order. -/
def sent (as : List Label) : List Event :=
  as.filterMap fun
    | .send e => some e
    | _ => none

variable (p : PeerID)

/-- The kinds of the events for a peer, in order. -/
def kinds (es : List Event) : List Bool :=
  (es.filter fun e => e.peerID = p).map Event.online

/-- What a call tells about a peer. -/
def Call.about : Call → List Bool
  | .onPeersComeOnline peers => (peers.filter (· = p)).map fun _ => true
  | .onPeersWentOffline peers => (peers.filter (· = p)).map fun _ => false

/-- The notifications about a peer that the calls make, in order. -/
def notifications (calls : List Call) : List Bool := calls.flatMap (Call.about p)

/-- The batches of a run: the events of the rounds that are over, and those of the round that
is not. -/
structure Batches where
  done : List (List Event)
  current : List Event

/-- The batches after one more step. -/
def Batches.next (b : Batches) : Label → Batches
  | .send _ => b
  | .receive e => { b with current := [e] }
  | .drain e => { b with current := b.current ++ [e] }
  | .deliver => ⟨b.done ++ [b.current], []⟩

/-- The batches of a run. -/
def batches (as : List Label) : Batches := as.foldl Batches.next ⟨[], []⟩

/-- In a batch no online event of a peer follows an offline event of it. -/
def OnlineFirst (batch : List Event) : Prop :=
  batch.Pairwise fun e e' => e.peerID = e'.peerID → e'.online = true → e.online = true

instance (batch : List Event) : Decidable (OnlineFirst batch) :=
  inferInstanceAs (Decidable (batch.Pairwise _))

/-! ## One batch -/

/-- The two lists of a batch. -/
def roundOf (batch : List Event) : Round :=
  ⟨(batch.filter (·.online)).map Event.peerID, (batch.filter (!·.online)).map Event.peerID⟩

variable (batch : List Event)

theorem roundOf_concat (e : Event) :
    roundOf (batch ++ [e]) = (roundOf batch).add e := by
  unfold roundOf Round.add
  cases h : e.online <;> simp [h]

/-- The calls of a round tell of its two lists, one after the other. -/
theorem notifications_calls (r : Round) : notifications p r.calls =
      ((r.peersOnline.filter (· = p)).map fun _ => true) ++
        (r.peersOffline.filter (· = p)).map fun _ => false := by
  obtain ⟨on, off⟩ := r
  cases on <;> cases off <;> simp [notifications, Round.calls, Call.about]

/-- A batch is reported with its online events first. -/
theorem notifications_roundOf : notifications p (roundOf batch).calls =
      (kinds p batch).filter id ++ (kinds p batch).filter (!·) := by
  rw [notifications_calls]
  congr 1
  all_goals
    induction batch with
    | nil => rfl
    | cons e batch ih =>
      by_cases hp : e.peerID = p <;> cases hon : e.online <;>
        simpa [roundOf, kinds, hp, hon] using ih

/-- Moving the online kinds to the front changes nothing exactly if they are there already. -/
theorem filter_append_filter_eq_iff (ks : List Bool) :
    ks.filter id ++ ks.filter (!·) = ks ↔ ks.Pairwise fun k k' => k' = true → k := by
  constructor
  · intro h
    rw [← h, pairwise_append]
    refine ⟨?_, ?_, ?_⟩
    · exact pairwise_of_forall_mem_list fun k hk _ _ _ => (List.mem_filter.mp hk).2
    · refine pairwise_of_forall_mem_list fun _ _ k' hk' htrue => ?_
      have hfalse := (List.mem_filter.mp hk').2
      simp [htrue] at hfalse
    · intro k hk _ _ _
      exact (List.mem_filter.mp hk).2
  · intro h
    induction h with
    | nil => rfl
    | @cons k ks hk _ ih =>
      cases k with
      | true => simpa using ih
      | false =>
        -- behind an offline event there are offline events only
        have hall : ∀ k' ∈ ks, k' = false := fun k' hk' => by
          cases k' with
          | true => exact (hk true hk' rfl).symm
          | false => rfl
        have hon : ks.filter id = [] :=
          filter_eq_nil_iff.mpr fun k' hk' => by simp [hall k' hk']
        have hoff : ks.filter (!·) = ks :=
          filter_eq_self.mpr fun k' hk' => by simp [hall k' hk']
        simp [hon, hoff]

/-- **One batch**: its report is in the order of its events exactly if its online events come
first. -/
theorem notifications_roundOf_eq_iff :
    (∀ p, notifications p (roundOf batch).calls = kinds p batch) ↔ OnlineFirst batch := by
  simp only [notifications_roundOf, filter_append_filter_eq_iff, kinds, pairwise_map,
    pairwise_filter, decide_eq_true_eq]
  unfold OnlineFirst
  constructor
  · intro h
    rw [pairwise_iff_getElem]
    intro i j hi hj hij hsame
    exact pairwise_iff_getElem.mp (h batch[j].peerID) i j hi hj hij hsame rfl
  · intro h p
    exact h.imp fun {e e'} hee he he' => hee (he.trans he'.symm)

/-! ## All batches of a run -/

theorem length_notifications_roundOf :
    (notifications p (roundOf batch).calls).length = (kinds p batch).length := by
  rw [notifications_roundOf]
  exact (filter_append_perm id (kinds p batch)).length_eq

/-- What the batches of a run have to do with the state it has reached. -/
structure Accounts (as : List Label) (l : Loop) : Prop where
  sent_eq : sent as = (batches as).done.flatten ++ (batches as).current ++ l.eventChan
  calls_eq : l.calls = (batches as).done.flatMap fun batch => (roundOf batch).calls
  round_eq : ∀ r, l.round = some r → r = roundOf (batches as).current
  waiting : l.round = none → (batches as).current = []

theorem batches_concat (as : List Label) (a : Label) :
    batches (as ++ [a]) = (batches as).next a := by
  unfold batches
  rw [foldl_append]
  rfl

theorem sent_concat (as : List Label) (a : Label) : sent (as ++ [a]) = sent as ++ sent [a] :=
  filterMap_append

theorem Accounts.step {as : List Label} {a : Label} (h : Accounts as l)
    (hstep : Step l a l') : Accounts (as ++ [a]) l' := by
  obtain ⟨hsent, hcalls, hround, hwait⟩ := h
  cases a with
  | send e =>
    obtain rfl := step_send hstep
    refine ⟨?_, ?_, ?_, ?_⟩ <;> rw [batches_concat] <;> try assumption
    rw [sent_concat, hsent, append_assoc]
    rfl
  | receive e =>
    obtain ⟨rest, hnone, hchan, rfl⟩ := step_receive hstep
    refine ⟨?_, ?_, ?_, ?_⟩ <;> rw [batches_concat]
    · rw [sent_concat, hsent, hwait hnone, hchan]
      simp [sent, Batches.next]
    · exact hcalls
    · rintro r ⟨⟩
      exact (roundOf_concat [] e).symm
    · rintro ⟨⟩
  | drain e =>
    obtain ⟨r, rest, hr, hchan, rfl⟩ := step_drain hstep
    refine ⟨?_, ?_, ?_, ?_⟩ <;> rw [batches_concat]
    · rw [sent_concat, hsent, hchan]
      simp [sent, Batches.next]
    · exact hcalls
    · rintro r' ⟨⟩
      rw [hround r hr]
      exact (roundOf_concat _ e).symm
    · rintro ⟨⟩
  | deliver =>
    obtain ⟨r, hr, hchan, rfl⟩ := step_deliver hstep
    refine ⟨?_, ?_, ?_, ?_⟩ <;> rw [batches_concat]
    · rw [sent_concat, hsent, hchan]
      simp [sent, Batches.next]
    · simp [hcalls, Batches.next, hround r hr]
    · rintro r' ⟨⟩
    · exact fun _ => rfl

/-- Concatenations of lists of equal lengths are equal exactly if the lists are. -/
theorem flatMap_eq_flatMap_iff {α β : Type} {f g : α → List β} (xs : List α)
    (hlen : ∀ x ∈ xs, (f x).length = (g x).length) :
    xs.flatMap f = xs.flatMap g ↔ ∀ x ∈ xs, f x = g x := by
  induction xs with
  | nil => simp
  | cons x xs ih =>
    rw [forall_mem_cons] at hlen
    rw [flatMap_cons, flatMap_cons, forall_mem_cons, ← ih hlen.2]
    constructor
    · intro h
      exact append_inj h hlen.1
    · rintro ⟨hx, hxs⟩
      rw [hx, hxs]

theorem kinds_append (es es' : List Event) : kinds p (es ++ es') = kinds p es ++ kinds p es' := by
  simp [kinds]

theorem kinds_flatten (bs : List (List Event)) : kinds p bs.flatten = bs.flatMap (kinds p) := by
  induction bs with
  | nil => rfl
  | cons b bs ih => rw [flatten_cons, kinds_append, ih, flatMap_cons]

open Transition

/-- **Events are delivered in order exactly if every batch has its online events first**: whenever
the loop is waiting, if and only if in no batch an online event of a peer follows an offline event
of that peer. -/
theorem delivered_in_order_iff (as : List Label) (l : Loop)
    (hrun : Run Step (fun _ _ => True) newListener as l) (hwait : l.round = none) :
    (∀ p, notifications p l.calls ++ kinds p l.eventChan = kinds p (sent as)) ↔
      ∀ batch ∈ (batches as).done, OnlineFirst batch := by
  have hacc : Accounts as l := by
    refine hrun.invariant (P := Accounts) ⟨rfl, rfl, fun r h => ?_, fun _ => rfl⟩ ?_
    · cases h
    · intro as l a l' h _ hstep
      exact h.step hstep
  have hcalls : ∀ p, notifications p l.calls =
      (batches as).done.flatMap fun batch => notifications p (roundOf batch).calls := by
    intro p
    rw [hacc.calls_eq]
    exact flatMap_assoc
  simp only [hacc.sent_eq, hacc.waiting hwait, append_nil, kinds_append, hcalls,
    append_left_inj, kinds_flatten]
  rw [← forall₂_congr fun batch _ => notifications_roundOf_eq_iff batch]
  constructor
  · intro h batch hbatch p
    exact (flatMap_eq_flatMap_iff _ fun b _ => length_notifications_roundOf p b).mp (h p) batch
      hbatch
  · intro h p
    exact (flatMap_eq_flatMap_iff _ fun b _ => length_notifications_roundOf p b).mpr
      fun batch hbatch => h batch hbatch p

/-- Two events of a peer that are taken in rounds of their own. -/
theorem delivered_in_order_separately : ∃ l, Run Step (fun _ _ => True) newListener
        [.send ⟨.ofBytes [1], false⟩, .receive ⟨.ofBytes [1], false⟩, .deliver,
          .send ⟨.ofBytes [1], true⟩, .receive ⟨.ofBytes [1], true⟩, .deliver] l ∧ l.round = none ∧
      ∀ p, notifications p l.calls ++ kinds p l.eventChan =
        kinds p [⟨.ofBytes [1], false⟩, ⟨.ofBytes [1], true⟩] := by
  refine Run.exists_imp (P := fun l => l.round = none) ?_
    ⟨_, .go rfl (.go rfl (.go rfl (.go rfl (.go rfl (.go rfl .nil))))), rfl⟩
  intro l hrun hround
  exact ⟨hround, (delivered_in_order_iff _ _ hrun hround).mpr (by decide)⟩

/-- A peer that reconnects at once: the listener is told that it came online and then that it went
offline. -/
theorem reconnect_reported_as_offline : ∃ l, Run Step (fun _ _ => True) newListener
        [.send ⟨.ofBytes [1], false⟩, .send ⟨.ofBytes [1], true⟩,
          .receive ⟨.ofBytes [1], false⟩, .drain ⟨.ofBytes [1], true⟩, .deliver] l ∧
      l.round = none ∧ l.eventChan = [] ∧ notifications (.ofBytes [1]) l.calls = [true, false] ∧
      kinds (.ofBytes [1]) [⟨.ofBytes [1], false⟩, ⟨.ofBytes [1], true⟩] = [false, true] := by
  exact ⟨_, .go rfl (.go rfl (.go rfl (.go rfl (.go rfl .nil)))), rfl, rfl, by decide, by decide⟩

end RelayEvents
