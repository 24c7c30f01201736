/-
# Online notifications of the relay server

Model of the presence of peers on a relay server: `Relay.Accept` of `relay/server/relay.go`, the
store, and the interest of listeners (`relay/server/store/listener.go` and `notifier.go`).
Accepting a connection reads whether its peer is in the store, adds the connection and, if the peer
was not there before, announces it; each is a critical section of its own.  An accept that has read
the peer as present does not announce it, also if its connection is then added to a store without
the peer (`online_event_queued`).
-/
import AnonBird.RelayEvents
import AnonBird.RelayStore

open RelayMessages RelayEvents Relay List Option
open GoMap hiding get set

namespace RelayPresence

open Store

export GoMap (get set)

/-! ## Listeners -/

/-- The interest of a listener, and all events queued on its channel so far. -/
structure Listener where
  interestedPeersForOffline : List PeerID
  interestedPeersForOnline : List PeerID
  queued : List Event
  deriving DecidableEq

/-- A listener without interests. -/
def newListener : Listener := ⟨[], [], []⟩

/-- Interest in peers begins. -/
def Listener.addInterestedPeers (l : Listener) (peerIDs : List PeerID) : Listener :=
  { l with
    interestedPeersForOffline := l.interestedPeersForOffline ++ peerIDs
    interestedPeersForOnline := l.interestedPeersForOnline ++ peerIDs }

/-- Interest in peers ends. -/
def Listener.removeInterestedPeer (l : Listener) (peerIDs : List PeerID) : Listener :=
  { l with
    interestedPeersForOffline := l.interestedPeersForOffline.filter (· ∉ peerIDs)
    interestedPeersForOnline := l.interestedPeersForOnline.filter (· ∉ peerIDs) }

/-- An interested listener is told that a peer went offline. -/
def Listener.peerWentOffline (l : Listener) (peerID : PeerID) : Listener :=
  if peerID ∈ l.interestedPeersForOffline then { l with queued := l.queued ++ [⟨peerID, false⟩] }
  else l

/-- `peerComeOnline`: the peer is announced once. -/
def Listener.peerComeOnline (l : Listener) (peerID : PeerID) : Listener :=
  if peerID ∈ l.interestedPeersForOnline then
    { l with
      queued := l.queued ++ [⟨peerID, true⟩]
      interestedPeersForOnline := l.interestedPeersForOnline.filter (· ≠ peerID) }
  else l

/-! ## The server -/

/-- How far the call that handles a connection has come.  In `checked`, `announcing`,
`deleted` and `leaving` it is between two critical sections. -/
inductive Phase where
  /-- `Accept` has read whether the peer is in the store. -/
  | checked (wasOnline : Bool)
  /-- The connection was added, and the peer was not there before. -/
  | announcing
  /-- `Accept` is through. -/
  | serving
  /-- The connection ended and was deleted. -/
  | deleted
  /-- No other connection of the peer was found. -/
  | leaving
  | closed
  deriving DecidableEq

/-- No call is in progress for the connection. -/
def Phase.Quiet (ph : Phase) : Prop := ph = .serving ∨ ph = .closed

instance (ph : Phase) : Decidable ph.Quiet := inferInstanceAs (Decidable (_ ∨ _))

/-- The store, the listeners of the notifier and the connections that were accepted. -/
structure Server where
  store : Store
  listeners : List (ℕ × Listener)
  conns : List (Peer × Phase)

/-- A server without connections. -/
def newServer : Server := ⟨newStore, [], []⟩

/-- The critical sections. -/
inductive Label where
  /-- `wasOnline := r.store.HasPeer(peer.ID())` of a new connection. -/
  | hasPeer (q : Peer)
  /-- `r.store.AddPeer(peer)` -/
  | addPeer (q : Peer)
  /-- `r.notifier.PeerCameOnline(peer.ID())` -/
  | peerCameOnline (q : Peer)
  /-- `r.store.DeletePeer(peer)`, when the connection has ended. -/
  | deletePeer (q : Peer)
  /-- `!r.store.HasPeer(peer.ID())` after a connection was deleted. -/
  | hasOther (q : Peer)
  /-- `r.notifier.PeerWentOffline(peer.ID())` -/
  | peerWentOffline (q : Peer)
  /-- `NewListener` -/
  | newListener (l : ℕ)
  /-- `RemoveListener` -/
  | removeListener (l : ℕ)
  /-- `GetOnlinePeersAndRegisterInterest` -/
  | subscribe (l : ℕ) (peerIDs : List PeerID)
  /-- `RemoveInterestedPeer` -/
  | unsubscribe (l : ℕ) (peerIDs : List PeerID)
  deriving DecidableEq

variable (s : Server)

/-- The server with a connection in a phase. -/
def Server.setPhase (q : Peer) (ph : Phase) : Server :=
  { s with conns := set s.conns q ph }

/-- The server with every listener changed, as the notifier does. -/
def Server.notify (f : Listener → Listener) : Server :=
  { s with listeners := mapValues f s.listeners }

/-- `GetOnlinePeersAndRegisterInterest`: the peers that are online, and the server; `none` if there
is no such listener. -/
def Server.getOnlinePeersAndRegisterInterest (peerIDs : List PeerID) (l : ℕ) :
    Option (List PeerID × Server) :=
  (get s.listeners l).map fun li =>
    (peerIDs.filter s.store.knows,
      { s with listeners := set s.listeners l (li.addInterestedPeers peerIDs) })

/-- One critical section, if it is the turn of its call. -/
def Server.step : Label → Option Server
  | .hasPeer q =>
    if get s.conns q = none then some (s.setPhase q (.checked (s.store.hasPeer q.id)))
    else none
  | .addPeer q =>
    match get s.conns q with
    | some (.checked wasOnline) =>
      some { s with
        store := (s.store.addPeer q).2
        conns := set s.conns q (if wasOnline then .serving else .announcing) }
    | _ => none
  | .peerCameOnline q =>
    if get s.conns q = some .announcing then
      some ((s.notify fun l => l.peerComeOnline q.id).setPhase q .serving)
    else none
  | .deletePeer q =>
    if get s.conns q = some .serving then
      some { s with
        store := (s.store.deletePeer q).2
        conns := set s.conns q (if (s.store.deletePeer q).1 then .deleted else .closed) }
    else none
  | .hasOther q =>
    if get s.conns q = some .deleted then
      some (s.setPhase q (if s.store.hasPeer q.id then .closed else .leaving))
    else none
  | .peerWentOffline q =>
    if get s.conns q = some .leaving then
      some ((s.notify fun l => l.peerWentOffline q.id).setPhase q .closed)
    else none
  | .newListener l =>
    if get s.listeners l = none then
      some { s with listeners := set s.listeners l RelayPresence.newListener }
    else none
  | .removeListener l => some { s with listeners := erase s.listeners l }
  | .subscribe l peerIDs => (s.getOnlinePeersAndRegisterInterest peerIDs l).map Prod.snd
  | .unsubscribe l peerIDs =>
    (get s.listeners l).map fun li =>
      { s with listeners := set s.listeners l (li.removeInterestedPeer peerIDs) }

/-- The steps as a relation. -/
def Step (a : Label) (s' : Server) : Prop := s.step a = some s'

variable {s s' : Server} {l : ℕ} {ids : List PeerID}

open Server

theorem of_step_subscribe (hsub : Step s (.subscribe l ids) s') :
    ∃ li, get s.listeners l = some li ∧
      s' = { s with listeners := set s.listeners l (li.addInterestedPeers ids) } := by
  simp only [Step, step, getOnlinePeersAndRegisterInterest, Option.map_map,
    Option.map_eq_some_iff] at hsub
  obtain ⟨li, hli, rfl⟩ := hsub
  exact ⟨li, hli, rfl⟩

/-- No call of `Accept` and no disconnect is in progress. -/
def Server.Quiet (s : Server) : Prop := ∀ e ∈ s.conns, e.2.Quiet

instance (s : Server) : Decidable s.Quiet := inferInstanceAs (Decidable (∀ e ∈ s.conns, _))

/-- The events queued to a listener so far. -/
def Server.queued (s : Server) (l : ℕ) : List Event :=
  ((get s.listeners l).map Listener.queued).getD []

/-- A step that does not end the interest of a listener in a peer. -/
def KeepsInterest (l : ℕ) (p : PeerID) : Label → Prop
  | .unsubscribe l' peerIDs => l' = l → p ∉ peerIDs
  | .removeListener l' => l' ≠ l
  | _ => True

/-- A connection is added to a store without its peer only if that was read before. -/
def InsertsFresh (s : Server) : Label → Prop
  | .addPeer q => s.store.hasPeer q.id = false → get s.conns q ≠ some (.checked true)
  | _ => True

theorem Server.get_notify (s : Server) (f : Listener → Listener) (l : ℕ) :
    get (s.notify f).listeners l = (get s.listeners l).map f :=
  get_mapValues f s.listeners l

/-! ## What a listener waits for -/

/-- Since its subscription the listener got the online event of the peer, or it is still interested
and an accept in progress will announce the peer if it is in the store. -/
def Server.Watched (s : Server) (l : ℕ) (p : PeerID) (before : List Event) : Prop :=
  ∃ li since, get s.listeners l = some li ∧ li.queued = before ++ since ∧
    (⟨p, true⟩ ∈ since ∨
      p ∈ li.interestedPeersForOnline ∧
        (s.store.hasPeer p = true → ∃ q : Peer, q.id = p ∧ get s.conns q = some .announcing))

variable {p : PeerID}

open Listener

/-- A listener changes by events at the end of its channel. -/
theorem Listener.queued_peerComeOnline (li : Listener) (p : PeerID) :
    ∃ es, (li.peerComeOnline p).queued = li.queued ++ es := by
  unfold peerComeOnline
  split
  · exact ⟨_, rfl⟩
  · exact ⟨[], (append_nil _).symm⟩

theorem Listener.queued_peerWentOffline (li : Listener) (p : PeerID) :
    ∃ es, (li.peerWentOffline p).queued = li.queued ++ es := by
  unfold peerWentOffline
  split
  · exact ⟨_, rfl⟩
  · exact ⟨[], (append_nil _).symm⟩

variable {before : List Event}

/-- A step that lets the listener go on: it may get events, but keeps its interest, and no accept
that is to announce a peer is lost. -/
theorem Server.Watched.update (h : s.Watched l p before) (f : Listener → Listener)
    (hlisteners : get s'.listeners l = (get s.listeners l).map f)
    (hqueued : ∀ li : Listener, ∃ es, (f li).queued = li.queued ++ es)
    (hinterest : ∀ li : Listener, p ∈ li.interestedPeersForOnline →
      p ∈ (f li).interestedPeersForOnline) (hstore : s'.store.hasPeer p → s.store.hasPeer p)
    (hconns : ∀ q, q.id = p → get s.conns q = some .announcing →
      get s'.conns q = some .announcing) : s'.Watched l p before := by
  obtain ⟨li, since, hli, hsince, hcase⟩ := h
  obtain ⟨es, hes⟩ := hqueued li
  refine ⟨f li, since ++ es, by rw [hlisteners, hli]; rfl, ?_, ?_⟩
  · rw [hes, hsince, append_assoc]
  · refine hcase.imp (fun hmem => mem_append_left es hmem) fun ⟨hint, hann⟩ =>
      ⟨hinterest li hint, fun hhas => ?_⟩
    obtain ⟨q, hq, hphase⟩ := hann (hstore hhas)
    exact ⟨q, hq, hconns q hq hphase⟩

/-- A step that does not reach the listener. -/
theorem Server.Watched.congr (h : s.Watched l p before)
    (hlisteners : get s'.listeners l = get s.listeners l)
    (hstore : s'.store.hasPeer p → s.store.hasPeer p)
    (hconns : ∀ q, q.id = p → get s.conns q = some .announcing →
      get s'.conns q = some .announcing) : s'.Watched l p before :=
  h.update id (by rw [hlisteners, Option.map_id, id]) (fun _ => ⟨[], (append_nil _).symm⟩)
    (fun _ hint => hint) hstore hconns

variable {q : Peer}

/-- Another phase of a connection that is not announcing leaves those that are. -/
theorem announcing_set {conns : List (Peer × Phase)} {ph : Phase}
    (hq : get conns q ≠ some .announcing) (q' : Peer) (_ : q'.id = p)
    (h : get conns q' = some .announcing) : get (set conns q ph) q' = some .announcing := by
  have hne : q' ≠ q := by
    rintro rfl
    exact hq h
  rw [get_set_of_ne hne]
  exact h

theorem hasPeer_of_hasPeer_deletePeer {st : Store} (h : (st.deletePeer q).2.hasPeer p) :
    st.hasPeer p := by
  obtain ⟨c, r, hr⟩ := hasPeer_iff.mp h
  rw [peerChannel_deletePeer] at hr
  split at hr
  · cases hr
  · exact hasPeer_iff.mpr ⟨c, r, hr⟩

theorem hasPeer_addPeer_of_ne {st : Store} (hne : p ≠ q.id) :
    (st.addPeer q).2.hasPeer p = st.hasPeer p := by
  rw [Bool.eq_iff_iff, hasPeer_iff, hasPeer_iff]
  simp [peerChannel_addPeer, hne]

theorem hasPeer_addPeer_self (st : Store) (q : Peer) : (st.addPeer q).2.hasPeer q.id :=
  hasPeer_iff.mpr ⟨q.channelID, q, by simp [peerChannel_addPeer]⟩

/-- Adding a connection keeps the account if an accept that finds no peer in the store has not
read one there before. -/
theorem Server.Watched.addPeer {wasOnline : Bool} (h : s.Watched l p before)
    (hfresh : s.store.hasPeer q.id = false → wasOnline = false)
    (hq : get s.conns q = some (.checked wasOnline)) : Watched { s with
      store := (s.store.addPeer q).2
      conns := set s.conns q (if wasOnline then .serving else .announcing) } l p before := by
  have hkept : ∀ q', q'.id = p → get s.conns q' = some .announcing →
      get (set s.conns q (if wasOnline then .serving else .announcing)) q' =
        some .announcing := announcing_set (by rw [hq]; simp)
  by_cases hp : p = q.id
  · cases hhas : s.store.hasPeer p with
    | true => exact h.congr rfl (fun _ => hhas) hkept
    | false =>
      -- the peer enters the store, and this accept announces it
      obtain rfl : wasOnline = false := hfresh (hp ▸ hhas)
      obtain ⟨li, since, hli, hsince, hcase⟩ := h
      exact ⟨li, since, hli, hsince, hcase.imp_right fun ⟨hint, _⟩ =>
        ⟨hint, fun _ => ⟨q, hp.symm, by simp⟩⟩⟩
  · exact h.congr rfl (fun hhas => (hasPeer_addPeer_of_ne hp) ▸ hhas) hkept

/-- An announcement of the peer reaches the listener; one of another peer does not end its
interest. -/
theorem Server.Watched.peerCameOnline (h : s.Watched l p before) :
    ((s.notify fun li => li.peerComeOnline q.id).setPhase q .serving).Watched l p before := by
  by_cases hp : p = q.id
  · subst hp
    obtain ⟨li, since, hli, hsince, hcase⟩ := h
    obtain ⟨es, hes⟩ := li.queued_peerComeOnline q.id
    refine ⟨li.peerComeOnline q.id, since ++ es, ?_, by rw [hes, hsince, append_assoc], ?_⟩
    · exact (s.get_notify (fun li => li.peerComeOnline q.id) l).trans (by rw [hli]; rfl)
    · left
      obtain hmem | ⟨hint, -⟩ := hcase
      · exact mem_append_left es hmem
      · simp only [peerComeOnline, hint, if_true] at hes
        rw [← append_cancel_left hes]
        simp
  · refine h.update (fun li => li.peerComeOnline q.id) ?_ (fun li => li.queued_peerComeOnline q.id)
      (fun li hint => ?_) id ?_
    · exact s.get_notify (fun li => li.peerComeOnline q.id) l
    · unfold peerComeOnline
      split <;> simp [hint, hp]
    · intro q' hq' hann
      have hne : q' ≠ q := by
        rintro rfl
        exact hp hq'.symm
      exact (get_set_of_ne hne).trans hann

/-- **The step lemma**: whatever happens, a listener keeps waiting until the event arrives. -/
theorem Server.Watched.step {a : Label} (h : s.Watched l p before) (hfresh : InsertsFresh s a)
    (hkeeps : KeepsInterest l p a) (hstep : Step s a s') : s'.Watched l p before := by
  cases a with
  | hasPeer q | hasOther q =>
    obtain ⟨hq, ⟨⟩⟩ := ite_none_right_eq_some.mp hstep
    exact h.congr rfl id (announcing_set (by rw [hq]; simp))
  | addPeer q =>
    simp only [Step, Server.step] at hstep
    split at hstep
    next wasOnline hq =>
      cases hstep
      refine h.addPeer (fun habsent => ?_) hq
      cases wasOnline with
      | true => exact absurd hq (hfresh habsent)
      | false => rfl
    · cases hstep
  | peerCameOnline q =>
    obtain ⟨-, ⟨⟩⟩ := ite_none_right_eq_some.mp hstep
    exact h.peerCameOnline
  | deletePeer q =>
    obtain ⟨hq, ⟨⟩⟩ := ite_none_right_eq_some.mp hstep
    exact h.congr rfl hasPeer_of_hasPeer_deletePeer (announcing_set (by rw [hq]; simp))
  | peerWentOffline q =>
    obtain ⟨hq, ⟨⟩⟩ := ite_none_right_eq_some.mp hstep
    have hnot : get s.conns q ≠ some .announcing := by
      rw [hq]
      simp
    refine h.update (fun li => li.peerWentOffline q.id)
      (s.get_notify (fun li => li.peerWentOffline q.id) l)
      (fun li => li.queued_peerWentOffline q.id) (fun li hint => ?_) id (announcing_set hnot)
    unfold peerWentOffline
    split <;> exact hint
  | newListener l' =>
    obtain ⟨hl', ⟨⟩⟩ := ite_none_right_eq_some.mp hstep
    have hne : l ≠ l' := by
      rintro rfl
      obtain ⟨li, -, hli, -⟩ := h
      rw [hl'] at hli
      cases hli
    exact h.congr (get_set_of_ne hne) id fun _ _ hann => hann
  | removeListener l' =>
    cases hstep
    exact h.congr (get_erase_of_ne (Ne.symm hkeeps)) id fun _ _ hann => hann
  | subscribe l' ids =>
    obtain ⟨li', hli', rfl⟩ := of_step_subscribe hstep
    by_cases hl : l = l'
    · subst hl
      refine h.update (fun li => li.addInterestedPeers ids) ?_ (fun _ => ⟨[], (append_nil _).symm⟩)
        (fun li hint => mem_append_left ids hint) id fun _ _ hann => hann
      simp [hli']
    · exact h.congr (get_set_of_ne hl) id fun _ _ hann => hann
  | unsubscribe l' ids =>
    obtain ⟨li', hli', rfl⟩ := map_eq_some_iff.mp hstep
    by_cases hl : l = l'
    · subst hl
      refine h.update (fun li => li.removeInterestedPeer ids) ?_
        (fun _ => ⟨[], (append_nil _).symm⟩) (fun li hint => ?_) id fun _ _ hann => hann
      · simp [hli']
      · exact List.mem_filter.mpr ⟨hint, by simpa using hkeeps rfl⟩
    · exact h.congr (get_set_of_ne hl) id fun _ _ hann => hann

theorem watched_of_subscribe (hsub : Step s (.subscribe l ids) s')
    (hp : p ∈ ids) (habsent : s.store.hasPeer p = false) : s'.Watched l p (s.queued l) := by
  obtain ⟨li, hli, rfl⟩ := of_step_subscribe hsub
  refine ⟨li.addInterestedPeers ids, [], get_set_self, ?_, .inr ⟨?_, ?_⟩⟩
  · simp [Server.queued, hli, Listener.addInterestedPeers]
  · exact mem_append_right _ hp
  · intro hhas
    exact absurd (habsent.symm.trans hhas) (by simp)

/-- In a quiet server nothing is still to be announced. -/
theorem Server.Watched.queued_of_quiet (h : s.Watched l p before) (hquiet : s.Quiet)
    (hin : s.store.hasPeer p) : ∃ since, s.queued l = before ++ since ∧ ⟨p, true⟩ ∈ since := by
  obtain ⟨li, since, hli, hsince, hmem | ⟨-, hann⟩⟩ := h
  · exact ⟨since, by rw [queued, hli]; exact hsince, hmem⟩
  · obtain ⟨q, -, hq⟩ := hann hin
    obtain hphase | hphase := hquiet _ (mem_of_get hq) <;> cases hphase

open Transition

/-- **Online notifications are not lost** if no connection enters a store without its peer by an
accept that has read the peer as present: with no call in progress, a peer in the store was
announced to every listener that registered its interest while it was absent. And if the condition
is violated while no other call is in progress, a listener that registers just before that is not
notified. -/
theorem online_event_queued (l : ℕ) :
    (∀ (as as' : List Label) (s s' t : Server) (p : PeerID) (ids : List PeerID),
      Run Step (fun _ _ => True) newServer as s → s.store.hasPeer p = false →
      p ∈ ids → Step s (.subscribe l ids) s' →
      Run Step (fun s a => InsertsFresh s a ∧ KeepsInterest l p a) s' as' t →
      t.Quiet → t.store.hasPeer p = true →
      ∃ since, t.queued l = s.queued l ++ since ∧ ⟨p, true⟩ ∈ since) ∧
    ∀ (as : List Label) (s s' : Server) (q : Peer),
      Run Step (fun _ _ => True) newServer as s → ¬ InsertsFresh s (.addPeer q) →
      (∀ e ∈ s.conns, e.1 ≠ q → e.2.Quiet) → Step s (.subscribe l [q.id]) s' →
      ∃ t, Step s' (.addPeer q) t ∧ t.Quiet ∧ t.store.hasPeer q.id = true ∧
        t.queued l = s.queued l := by
  constructor
  · intro as as' s s' t p ids _ habsent hp hsub hrun hquiet hin
    have hwatched : t.Watched l p (s.queued l) := by
      refine hrun.invariant (P := fun _ t => t.Watched l p (s.queued l))
        (watched_of_subscribe hsub hp habsent) ?_
      intro _ u a u' h hok hstep
      exact h.step hok.1 hok.2 hstep
    exact hwatched.queued_of_quiet hquiet hin
  · intro as s s' q _ hstale hothers hsub
    simp only [InsertsFresh, Classical.not_imp, not_not] at hstale
    obtain ⟨li, hli, rfl⟩ := of_step_subscribe hsub
    refine ⟨_, by simp only [Step, step, hstale.2]; rfl, ?_, hasPeer_addPeer_self _ q, ?_⟩
    · intro e he
      obtain rfl | ⟨he, hne⟩ := mem_set.mp he
      · exact .inl rfl
      · exact hothers e he hne
    · simp [Server.queued, hli, Listener.addInterestedPeers]

/-- Two connections of one peer, on the channels 0 and 1. -/
def onChannel (c : UInt32) : Peer := ⟨c.toNat, .ofBytes [1], c⟩

/-- A peer that connects after a listener registered its interest is announced to it. -/
theorem fresh_accept_announced : ∃ s s' t : Server,
      Run Step (fun _ _ => True) newServer [.newListener 0] s ∧
      Step s (.subscribe 0 [.ofBytes [1]]) s' ∧
      Run Step (fun s a => InsertsFresh s a ∧ KeepsInterest 0 (.ofBytes [1]) a) s'
        [.hasPeer (onChannel 0), .addPeer (onChannel 0), .peerCameOnline (onChannel 0)] t ∧
      ∃ since, t.queued 0 = s.queued 0 ++ since ∧ ⟨.ofBytes [1], true⟩ ∈ since := by
  obtain ⟨s, s', t, hstart, habsent, hsub, hrun, hquiet, hin⟩ : ∃ s s' t : Server,
      Run Step (fun _ _ => True) newServer [.newListener 0] s ∧
      s.store.hasPeer (.ofBytes [1]) = false ∧ Step s (.subscribe 0 [.ofBytes [1]]) s' ∧
      Run Step (fun s a => InsertsFresh s a ∧ KeepsInterest 0 (.ofBytes [1]) a) s'
        [.hasPeer (onChannel 0), .addPeer (onChannel 0), .peerCameOnline (onChannel 0)] t ∧
      t.Quiet ∧ t.store.hasPeer (.ofBytes [1]) = true :=
    ⟨_, _, _, .go rfl .nil, rfl, rfl, .cons ⟨trivial, trivial⟩ rfl
      (.cons ⟨fun _ => by decide, trivial⟩ rfl (.cons ⟨trivial, trivial⟩ rfl .nil)),
      by decide, rfl⟩
  exact ⟨s, s', t, hstart, hsub, hrun, (online_event_queued 0).1 _ _ _ _ _ _ _ hstart habsent
    mem_cons_self hsub hrun hquiet hin⟩

/-- An accept has read the peer as present, the peer leaves the store, a listener registers its
interest, and the connection is added without an announcement. -/
theorem stale_accept_not_announced : ∃ s s' t : Server,
      Run Step (fun _ _ => True) newServer
        [.newListener 0, .hasPeer (onChannel 0), .addPeer (onChannel 0),
          .peerCameOnline (onChannel 0), .hasPeer (onChannel 1), .deletePeer (onChannel 0),
          .hasOther (onChannel 0), .peerWentOffline (onChannel 0)] s ∧
      s.store.hasPeer (.ofBytes [1]) = false ∧ Step s (.subscribe 0 [.ofBytes [1]]) s' ∧
      Run Step (fun _ a => KeepsInterest 0 (.ofBytes [1]) a) s'
        [.addPeer (onChannel 1)] t ∧
      t.Quiet ∧ t.store.hasPeer (.ofBytes [1]) = true ∧ t.queued 0 = [] :=
  ⟨_, _, _, .go rfl (.go rfl (.go rfl (.go rfl (.go rfl (.go rfl (.go rfl (.go rfl .nil))))))),
    rfl, rfl, .go rfl .nil, by decide, rfl, rfl⟩

end RelayPresence
