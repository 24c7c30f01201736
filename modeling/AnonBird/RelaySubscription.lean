/-
# Connections and subscriptions of the relay client

The relay client subscribes to the state of a peer with its first connection and unsubscribes with
the last one.  Whether a new connection needs a subscription is decided in the first section of
`OpenConnChannel`, and the connection is counted in a later one.  So a connection that is not yet
counted does not stop a close, and a second wait for the same peer that times out ends the
subscription of the first (`subscribed_while_connected`).
-/
import AnonBird.RelayClient

open RelayMessages Transition List
open Relay (ConnKey)
open GoMap hiding get set
open Option

namespace RelayClient

open Phase Client

/-! ## Counting -/

/-- The connection of a call was counted. -/
def Phase.isCounted (ph : Phase) : Bool := ph = .confirming || ph = .opened

/-- The call has not counted its connection and not given it up. -/
def Phase.isPending (ph : Phase) : Bool :=
  !(ph.isCounted || ph = .closing || ph = .failed)

variable (c : Client)

/-- The container belongs to a call whose connection was counted. -/
def Client.counted (r : ℕ) : Bool :=
  ((get c.calls r).map fun call => call.phase.isCounted).getD false

/-- The registered connections to a peer that were counted. -/
def Client.tally (p : PeerID) : ℕ :=
  c.conns.countP fun e => e.1.peerID = p && c.counted e.2

/-- The registered connections to a peer. -/
def Client.registered (p : PeerID) : ℕ := c.conns.countP fun e => e.1.peerID = p

/-- A registered connection belongs to a call that has not given it up. -/
structure Client.Owned (c : Client) : Prop where
  nodup : (keys c.conns).Nodup
  owner : ∀ k r, get c.conns k = some r → ∃ call, get c.calls r = some call ∧
    call.key = k ∧ call.phase ≠ .closing ∧ call.phase ≠ .failed

/-- The counts are right: the count of a peer is the number of counted connections, and a close
that unsubscribes closes the last one. -/
structure Client.Tallied (c : Client) : Prop extends c.Owned where
  refs : ∀ p, c.refs p = c.tally p
  last : ∀ r st, c.mu = some (.closeConn r st) → ∃ call, get c.calls r = some call ∧
    call.phase = .opened ∧ get c.conns call.key = some r ∧ c.refs call.key.peerID ≤ 1

variable {c c' : Client}

/-- The tally depends on these fields only. -/
theorem Client.Tallied.congr (h : c.Tallied)
    (hsame : (c'.mu, c'.conns, c'.peerConnRefs, c'.calls) =
      (c.mu, c.conns, c.peerConnRefs, c.calls)) : c'.Tallied := by
  obtain ⟨⟩ := c
  obtain ⟨⟩ := c'
  obtain ⟨rfl, rfl, rfl, rfl⟩ := hsame
  exact ⟨⟨h.nodup, h.owner⟩, h.refs, h.last⟩

/-- The lock is taken, passed on or released. -/
theorem Client.Tallied.withMu (h : c.Tallied) {mu : Option Holder}
    (hlast : ∀ r st, mu = some (.closeConn r st) → ∃ call, get c.calls r = some call ∧
      call.phase = .opened ∧ get c.conns call.key = some r ∧ c.refs call.key.peerID ≤ 1) :
    Tallied { c with mu := mu } := ⟨⟨h.nodup, h.owner⟩, h.refs, hlast⟩

/-! ### Calls that go on -/

/-- A call moves on. -/
theorem get_setCall (c : Client) (r r' : ℕ) (call : Call) : get (c.setCall r call).calls r' =
      if r' = r then some call else get c.calls r' := get_set _ _ _ _

/-- Whether a call is counted, after one moved on. -/
theorem counted_setCall (c : Client) (r r' : ℕ) (call : Call) :
    (c.setCall r call).counted r' = if r' = r then call.phase.isCounted else c.counted r' := by
  unfold counted
  rw [get_setCall]
  split <;> rfl

variable {r : ℕ}

/-- A call is counted by its phase. -/
theorem counted_eq {call : Call} (hcall : get c.calls r = some call) :
    c.counted r = call.phase.isCounted := by
  rw [counted, hcall]
  rfl

/-- A registered connection belongs to a call that goes on. -/
theorem Client.Owned.call (h : c.Owned) {k : ConnKey} {call : Call}
    (hconn : get c.conns k = some r) (hcall : get c.calls r = some call) :
    call.key = k ∧ call.phase ≠ .closing ∧ call.phase ≠ .failed := by
  obtain ⟨call', hcall', hrest⟩ := h.owner k r hconn
  cases hcall'.symm.trans hcall
  exact hrest

/-- The counted connections to a peer, without the one of a key. -/
def Client.tallyWithout (c : Client) (key : ConnKey) (p : PeerID) : ℕ :=
  (erase c.conns key).countP fun e => e.1.peerID = p && c.counted e.2

variable {call' call : Call}

namespace Client.Owned

variable (h : c.Owned) (hcall : get c.calls r = some call)

include h hcall

theorem setCall (call' : Call) (hkey : call'.key = call.key)
    (hkept : get c.conns call.key = some r →
      call'.phase ≠ .closing ∧ call'.phase ≠ .failed) : (c.setCall r call').Owned := by
  refine ⟨h.nodup, fun k r' hk => ?_⟩
  by_cases hr : r' = r
  · subst hr
    have hkk := (h.call hk hcall).1
    exact ⟨call', by rw [get_setCall, if_pos rfl], hkey.trans hkk, hkept (hkk ▸ hk)⟩
  · obtain ⟨call'', hcall'', hrest⟩ := h.owner k r' hk
    exact ⟨call'', by rw [get_setCall, if_neg hr]; exact hcall'', hrest⟩

/-- The tally is that of the other keys and the connection of the key. -/
theorem tally_eq (hconn : get c.conns call.key = some r) (p : PeerID) : c.tally p =
    c.tallyWithout call.key p + if call.key.peerID = p ∧ call.phase.isCounted then 1 else 0 := by
  unfold tally
  rw [countP_erase h.nodup hconn, counted_eq hcall]
  simp only [Bool.and_eq_true, decide_eq_true_eq]
  rfl

/-- The other connections are tallied as before. -/
theorem tallyWithout_setCall (call' : Call) (p : PeerID) :
    (c.setCall r call').tallyWithout call.key p = c.tallyWithout call.key p := by
  refine countP_congr fun e he => ?_
  rw [counted_setCall, if_neg]
  rintro rfl
  obtain ⟨hmem, hne⟩ := List.mem_filter.mp he
  have hkey := (h.call (get_of_mem h.nodup hmem) hcall).1
  simp [hkey] at hne

/-- The tally after a call moved on. -/
theorem tally_setCall (call' : Call) (hkey : call'.key = call.key)
    (hconn : get c.conns call.key = some r)
    (hkept : call'.phase ≠ .closing ∧ call'.phase ≠ .failed) (p : PeerID) :
    (c.setCall r call').tally p = c.tallyWithout call.key p +
      if call.key.peerID = p ∧ call'.phase.isCounted then 1 else 0 := by
  have howned := h.setCall hcall call' hkey fun _ => hkept
  have hcall' : get (c.setCall r call').calls r = some call' := by
    rw [get_setCall, if_pos rfl]
  rw [howned.tally_eq hcall' (hkey ▸ hconn), hkey, h.tallyWithout_setCall hcall]

/-- A call without a registered connection does not matter for the tally. -/
theorem tally_setCall_unregistered (hconn : get c.conns call.key ≠ some r)
    (call' : Call) (p : PeerID) : (c.setCall r call').tally p = c.tally p := by
  refine countP_congr fun e he => ?_
  rw [counted_setCall, if_neg]
  rintro rfl
  have hget := get_of_mem h.nodup he
  exact hconn ((h.call hget hcall).1 ▸ hget)

omit hcall in
/-- A connection is unregistered. -/
theorem eraseConn (key : ConnKey) : Owned { c with conns := erase c.conns key } := by
  refine ⟨nodup_keys_filter h.nodup _, fun k r hk => ?_⟩
  exact h.owner k r (get_of_get_erase hk).2

end Client.Owned

namespace Client.Tallied

variable (h : c.Tallied)

include h

/-- A call begins. -/
theorem addCall (hnew : get c.calls r = none) (call : Call) :
    (c.setCall r call).Tallied := by
  have hold : ∀ {r' : ℕ} {call' : Call}, get c.calls r' = some call' →
      get (c.setCall r call).calls r' = some call' := by
    intro r' call' hcall'
    have hne : r' ≠ r := by
      rintro rfl
      rw [hnew] at hcall'
      cases hcall'
    rw [get_setCall, if_neg hne]
    exact hcall'
  refine ⟨⟨h.nodup, fun k r' hk => ?_⟩, fun p => ?_, fun r' st hmu => ?_⟩
  · obtain ⟨call', hcall', hrest⟩ := h.owner k r' hk
    exact ⟨call', hold hcall', hrest⟩
  · refine (h.refs p).trans (countP_congr fun e he => ?_)
    obtain ⟨call', hcall', -⟩ := h.owner e.1 e.2 (get_of_mem h.nodup he)
    rw [counted_eq hcall', counted_eq (hold hcall')]
  · obtain ⟨call', hcall', hrest⟩ := h.last r' st hmu
    exact ⟨call', hold hcall', hrest⟩

variable (hcall : get c.calls r = some call)

include hcall

/-- A call goes on without being counted and without giving up a registered connection. -/
theorem setCall (hkey : call'.key = call.key)
    (hcount : call'.phase.isCounted = call.phase.isCounted)
    (hkept : get c.conns call.key = some r → call'.phase ≠ .closing ∧ call'.phase ≠ .failed)
    (hopened : call.phase = .opened → call'.phase = .opened) : (c.setCall r call').Tallied := by
  refine ⟨h.toOwned.setCall hcall call' hkey hkept, fun p => ?_, fun r' st hmu => ?_⟩
  · have htally : (c.setCall r call').tally p = c.tally p := by
      by_cases hconn : get c.conns call.key = some r
      · rw [h.tally_setCall hcall call' hkey hconn (hkept hconn), h.tally_eq hcall hconn, hcount]
      · exact h.tally_setCall_unregistered hcall hconn call' p
    rw [htally]
    exact h.refs p
  · obtain ⟨call'', hcall'', hphase, hconn⟩ := h.last r' st hmu
    by_cases hr : r' = r
    · subst hr
      cases hcall''.symm.trans hcall
      exact ⟨call', by rw [get_setCall, if_pos rfl], hopened hphase, hkey ▸ hconn⟩
    · exact ⟨call'', by rw [get_setCall, if_neg hr]; exact hcall'', hphase, hconn⟩

/-! ### Connections that come and go -/

/-- A connection is registered. -/
theorem insertConn (hmu : c.mu = none) (hconn : get c.conns call.key = none)
    (hcount : call.phase.isCounted = false)
    (hphase : call.phase ≠ .closing ∧ call.phase ≠ .failed) :
    Tallied { c with conns := set c.conns call.key r } := by
  refine ⟨⟨nodup_keys_set h.nodup call.key r, fun k r' hk => ?_⟩, fun p => ?_, fun r' st hmu' => ?_⟩
  · obtain ⟨rfl, rfl⟩ | ⟨-, hk⟩ := get_set_eq_some.mp hk
    · exact ⟨call, hcall, rfl, hphase⟩
    · exact h.owner k r' hk
  · have hr : c.counted r = false := (counted_eq hcall).trans hcount
    refine (h.refs p).trans ?_
    unfold tally
    rw [set, erase_of_get_none hconn, countP_cons]
    simp only [counted] at hr ⊢
    simp [hr]
  · rw [hmu] at hmu'
    cases hmu'

/-- A connection that is not counted is unregistered. -/
theorem removeConn (hmu : c.mu = none) (hcount : call.phase.isCounted = false) :
    (c.removeConn r call.key).Tallied := by
  unfold Client.removeConn
  split
  next hconn =>
    refine ⟨h.toOwned.eraseConn call.key, fun p => ?_, fun r' st hmu' => ?_⟩
    · refine (h.refs p).trans ((h.tally_eq hcall hconn p).trans ?_)
      rw [hcount]
      simp only [Bool.false_eq_true, and_false, if_false, Nat.add_zero]
      rfl
    · rw [hmu] at hmu'
      cases hmu'
  · exact h

/-- A connection is counted. -/
theorem count (hmu : c.mu = none) (hphase : call.phase = .counting) :
    ((c.count r call.key).setCall r { call with phase := .confirming }).Tallied := by
  have hkept : confirming ≠ .closing ∧ confirming ≠ .failed := by decide
  have howned : (c.setCall r { call with phase := .confirming }).Owned :=
    h.toOwned.setCall hcall _ rfl fun _ => hkept
  unfold Client.count
  split
  next hconn =>
    refine ⟨⟨howned.nodup, howned.owner⟩, fun p => ?_, fun r' st hmu' => ?_⟩
    · have hafter : (c.setCall r { call with phase := .confirming }).tally p =
          c.tallyWithout call.key p + if call.key.peerID = p ∧ true then 1 else 0 :=
        h.toOwned.tally_setCall hcall { call with phase := .confirming } rfl hconn hkept p
      have hbefore : c.refs p = c.tallyWithout call.key p := by
        rw [h.refs p, h.tally_eq hcall hconn, hphase]
        simp [isCounted]
      refine Eq.trans ?_ hafter.symm
      rw [← hbefore]
      simp only [Client.refs, Client.setCall, get_set]
      by_cases hp : p = call.key.peerID
      · subst hp
        simp
      · simp [hp, Ne.symm hp]
    · exact absurd (hmu.symm.trans hmu') (by simp)
  next hconn =>
    refine ⟨howned, fun p => ?_, fun r' st hmu' => ?_⟩
    · rw [h.tally_setCall_unregistered hcall hconn]
      exact h.refs p
    · exact absurd (hmu.symm.trans hmu') (by simp)

/-- A counted connection is unregistered. -/
theorem dropConn (hphase : call.phase = .opened)
    (hconn : get c.conns call.key = some r) :
    Tallied { c.dropConn r call (c.refs call.key.peerID - 1) with mu := none } := by
  have hkept : call.close.phase ≠ .closing ∧ call.close.phase ≠ .failed := by
    show call.phase ≠ .closing ∧ call.phase ≠ .failed
    rw [hphase]
    decide
  have howned := (h.toOwned.setCall hcall call.close rfl fun _ => hkept).eraseConn call.key
  refine ⟨⟨howned.nodup, howned.owner⟩, fun p => ?_, fun r' st hmu' => ?_⟩
  · have hafter : tally (c.dropConn r call (c.refs call.key.peerID - 1)) p =
        c.tallyWithout call.key p := h.tallyWithout_setCall hcall call.close p
    have hbefore : c.refs p = c.tallyWithout call.key p +
        if call.key.peerID = p then 1 else 0 := by
      rw [h.refs p, h.tally_eq hcall hconn, hphase]
      simp [isCounted]
    refine Eq.trans ?_ hafter.symm
    by_cases hp : p = call.key.peerID
    · subst hp
      rw [if_pos rfl] at hbefore
      rw [← Nat.eq_sub_of_add_eq hbefore.symm]
      unfold Client.refs Client.dropConn
      split
      next hzero =>
        simp only [get_erase_self, getD_none]
        exact hzero.symm
      · simp only [get_set_self, getD_some]
    · rw [if_neg (Ne.symm hp), Nat.add_zero] at hbefore
      rw [← hbefore]
      unfold Client.refs Client.dropConn
      split
      · rw [get_erase_of_ne hp]
      · rw [get_set_of_ne hp]
  · cases hmu'

end Client.Tallied

/-- The connections of the peers are gone. -/
theorem get_conns_closeConnsOf (c : Client) (ps : List PeerID) (k : ConnKey) :
    get (c.closeConnsOf ps).conns k = if k.peerID ∈ ps then none else get c.conns k := by
  unfold closeConnsOf
  rw [get_filter_key (fun k : ConnKey => decide (k.peerID ∉ ps))]
  by_cases hk : k.peerID ∈ ps <;> simp [hk]

variable {ps : List PeerID}

/-- The connections that stay are of other peers. -/
theorem get_of_get_closeConnsOf {k : ConnKey} (hconn : get (c.closeConnsOf ps).conns k = some r) :
    k.peerID ∉ ps ∧ get c.conns k = some r := by
  rw [get_conns_closeConnsOf] at hconn
  split at hconn
  · cases hconn
  next hk =>
    exact ⟨hk, hconn⟩

/-- The calls of the peers find their connections closed. -/
theorem calls_closeConnsOf (c : Client) (ps : List PeerID) (r : ℕ) :
    get (c.closeConnsOf ps).calls r = (get c.calls r).map fun call =>
      if call.key.peerID ∈ ps ∧ get c.conns call.key = some r then call.close else call := by
  unfold closeConnsOf
  rw [get_mapEntries]
  cases get c.calls r <;> rfl

/-- No call changes its phase. -/
theorem get_closeConnsOf (c : Client) (ps : List PeerID) (r : ℕ) :
    ∃ f : Call → Call, (∀ call, (f call).phase = call.phase ∧ (f call).key = call.key) ∧
      get (c.closeConnsOf ps).calls r = (get c.calls r).map f := by
  refine ⟨_, fun call => ?_, calls_closeConnsOf c ps r⟩
  split <;> exact ⟨rfl, rfl⟩

/-- The connections of peers are closed. -/
theorem Client.Tallied.closeConnsOf (h : c.Tallied) (ps : List PeerID) (st : Stage) :
    Tallied { c.closeConnsOf ps with mu := some (.closeConnsByPeerID ps st) } := by
  have hcounted : ∀ r, (c.closeConnsOf ps).counted r = c.counted r := by
    intro r
    obtain ⟨f, hf, hget⟩ := get_closeConnsOf c ps r
    unfold counted
    rw [hget]
    cases get c.calls r with
    | none => rfl
    | some call => simp [(hf call).1]
  refine ⟨⟨nodup_keys_filter h.nodup _, fun k r hk => ?_⟩, fun p => ?_, fun r' st hmu' => ?_⟩
  · obtain ⟨call, hcall, hkey, hphase⟩ := h.owner k r (get_of_get_closeConnsOf hk).2
    obtain ⟨f, hf, hget⟩ := get_closeConnsOf c ps r
    refine ⟨f call, hget.trans (by rw [hcall]; rfl), (hf call).2.trans hkey, ?_⟩
    rw [(hf call).1]
    exact hphase
  · have hrefs : (c.closeConnsOf ps).refs p = if p ∈ ps then 0 else c.refs p := by
      unfold Client.refs Client.closeConnsOf
      rw [get_filter_key (fun p : PeerID => decide (p ∉ ps)) c.peerConnRefs p]
      by_cases hp : p ∈ ps <;> simp [hp]
    have htally : (c.closeConnsOf ps).tally p = if p ∈ ps then 0 else c.tally p := by
      unfold tally
      simp only [hcounted]
      unfold Client.closeConnsOf
      simp only [countP_filter]
      split
      next hp =>
        rw [countP_eq_zero]
        intro e _ he
        simp only [Bool.and_eq_true, decide_eq_true_eq] at he
        exact he.2 (he.1.1 ▸ hp)
      next hp =>
        refine countP_congr fun e _ => ?_
        simp only [Bool.and_eq_true, decide_eq_true_eq, and_iff_left_iff_imp]
        rintro ⟨rfl, -⟩
        exact hp
    refine hrefs.trans (Eq.trans ?_ htally.symm)
    rw [h.refs p]
  · cases hmu'

/-! ### All steps -/

/-- A message is sent. -/
theorem Client.Tallied.send (h : c.Tallied) (written : Bool) (m : StateMsg) :
    (c.send written m).Tallied := by
  unfold Client.send
  split
  · exact h.congr rfl
  · exact h

/-- A call stops waiting. -/
theorem Client.Tallied.stopWaiting (h : c.Tallied) (r : ℕ) (p : PeerID) :
    (c.stopWaiting r p).Tallied := by
  unfold Client.stopWaiting
  split
  · exact h.congr rfl
  · exact h

theorem get_calls_of_eq {d : Client} (h : d.calls = c.calls)
    (hcall : get c.calls r = some call) : get d.calls r = some call := by
  rw [h]
  exact hcall

/-- Sending moves no call. -/
theorem calls_send (c : Client) (written : Bool) (m : StateMsg) :
    (c.send written m).calls = c.calls := by
  unfold send
  split <;> rfl

theorem mu_send (c : Client) (written : Bool) (m : StateMsg) : (c.send written m).mu = c.mu := by
  unfold send
  split <;> rfl

/-- Other calls do not move. -/
theorem calls_stopWaiting (c : Client) (r : ℕ) (p : PeerID) :
    (c.stopWaiting r p).calls = c.calls := by
  unfold stopWaiting
  split <;> rfl

theorem calls_removeConn (c : Client) (r : ℕ) (key : ConnKey) :
    (c.removeConn r key).calls = c.calls := by
  unfold removeConn
  split <;> rfl

/-- The connection is no longer that of the call. -/
theorem get_removeConn (c : Client) (r : ℕ) (key : ConnKey) :
    get (c.removeConn r key).conns key ≠ some r := by
  unfold removeConn
  split
  · simp
  · assumption

theorem Call.writeMsg_key (cc : Call) (m : Msg) : (cc.writeMsg m).key = cc.key := by
  unfold Call.writeMsg
  split
  · rfl
  · split <;> rfl

theorem Call.writeMsg_phase (cc : Call) (m : Msg) : (cc.writeMsg m).phase = cc.phase := by
  unfold Call.writeMsg
  split
  · rfl
  · split <;> rfl

variable {ph : Phase}

/-- A pending call is not counted and goes on. -/
theorem Phase.isPending_iff :
    ph.isPending ↔ ph.isCounted = false ∧ ph ≠ .closing ∧ ph ≠ .failed := by
  unfold isPending
  cases ph.isCounted <;> simp

/-- A pending call moves on and stays pending. -/
theorem Client.Tallied.pending (h : c.Tallied) (call' : Call)
    (hcall : get c.calls r = some call) (hphase : call.phase = ph)
    (hkey : call'.key = call.key) (hph : ph.isPending) (hphase' : call'.phase.isPending) :
    (c.setCall r call').Tallied := by
  subst hphase
  obtain ⟨hcount, -⟩ := isPending_iff.mp hph
  obtain ⟨hcount', hkept⟩ := isPending_iff.mp hphase'
  refine h.setCall hcall hkey (hcount'.trans hcount.symm) (fun _ => hkept) fun ho => ?_
  rw [ho] at hcount
  cases hcount

theorem isPending_afterRegistration (subscribed : Bool) :
    (afterRegistration subscribed).isPending := by
  cases subscribed <;> rfl

/-- The phase in which a new connection is registered. -/
def Client.firstPhase (c : Client) (key : ConnKey) : Phase :=
  match get c.earlyMsgs key with
  | some earlyMsg => .flushing earlyMsg (0 < c.refs key.peerID)
  | none => afterRegistration (0 < c.refs key.peerID)

theorem isPending_firstPhase (c : Client) (key : ConnKey) : (c.firstPhase key).isPending := by
  unfold firstPhase
  split
  · rfl
  · exact isPending_afterRegistration _

/-- **The counts are right after every step.** -/
theorem Client.Tallied.step {a : Label} (h : c.Tallied) (hstep : Step c a c') : c'.Tallied := by
  cases hstep with
  | openExisting hmu hnew hconn => exact h.addCall hnew _
  | @openNew r key hmu hnew hconn =>
    obtain ⟨hcount, hkept⟩ := isPending_iff.mp (isPending_firstPhase c key)
    have hcall : get (c.setCall r ⟨key, c.firstPhase key, [], [], false⟩).calls r =
        some ⟨key, c.firstPhase key, [], [], false⟩ := by
      rw [get_setCall, if_pos rfl]
    exact ((h.addCall hnew _).insertConn hcall hmu hconn hcount hkept).congr rfl
  | @flush r call m subscribed hcall hphase =>
    exact h.pending _ hcall hphase (call.writeMsg_key m) rfl (isPending_afterRegistration _)
  | alreadyWaiting hcall hphase hwait | waitOnline hcall hphase hch
  | waitCancelled hcall hphase hch hclosed | waitTimeout hcall hphase =>
    exact h.pending _ hcall hphase rfl rfl rfl
  | @enterWait r call hcall hphase hwait =>
    exact (h.pending { call with phase := .subscribing } hcall hphase rfl rfl rfl).congr rfl
  | @subscribe r call written hcall hphase =>
    exact (h.send written _).pending _ (get_calls_of_eq (calls_send ..) hcall) hphase rfl rfl
      (by cases written <;> rfl)
  | unsubscribe hcall hphase =>
    exact (h.send _ _).pending _ (get_calls_of_eq (calls_send ..) hcall) hphase rfl rfl rfl
  | stopWaiting hcall hphase =>
    refine (h.stopWaiting _ _).pending _ (get_calls_of_eq (calls_stopWaiting ..) hcall) rfl rfl ?_
      rfl
    obtain hphase | hphase := hphase <;> rw [hphase] <;> rfl
  | @removeConn r call hmu hcall hphase =>
    have hcount : call.phase.isCounted = false := by rw [hphase]; rfl
    refine (h.removeConn hcall hmu hcount).setCall
      (get_calls_of_eq (calls_removeConn ..) hcall) rfl (by rw [hcount]; rfl)
      (fun hconn => ?_) fun ho => ?_
    · exact absurd hconn (get_removeConn c r call.key)
    · rw [hphase] at ho
      cases ho
  | @closeContainer r call hcall hphase =>
    refine h.setCall hcall rfl (by rw [hphase]; rfl) (fun hconn => ?_) fun ho => ?_
    · exact absurd hphase (h.call hconn hcall).2.1
    · rw [hphase] at ho
      cases ho
  | countRef hmu hcall hphase => exact h.count hcall hmu hphase
  | confirm hmu hcall hphase =>
    exact h.setCall hcall rfl (by rw [hphase]; rfl) (fun _ => by simp) fun _ => rfl
  | closeMismatch hmu hcall hphase hconn => exact h
  | closeOne hmu hcall hphase hconn hrefs =>
    exact (h.dropConn hcall hphase hconn).congr (by rw [← hmu]; rfl)
  | @closeLast r call hmu hcall hphase hconn hrefs =>
    refine h.withMu fun r' st hmu' => ?_
    cases hmu'
    exact ⟨call, hcall, hphase, hconn, hrefs⟩
  | @closeWrite r call written hmu hcall =>
    refine ((h.send written (.unsubscribe [call.key.peerID])).withMu ?_)
    rintro r' st ⟨⟩
    exact (h.send written _).last r .write ((mu_send c written _).trans hmu)
  | @closeState r call hmu hcall =>
    have hforget : (c.forget [call.key.peerID]).Tallied := h.congr rfl
    refine hforget.withMu ?_
    rintro r' st ⟨⟩
    exact hforget.last r .state hmu
  | @closeFinish r call hmu hcall =>
    obtain ⟨call', hcall', hphase, hconn, hrefs⟩ := h.last r .finish hmu
    cases hcall'.symm.trans hcall
    have hdrop := h.dropConn hcall hphase hconn
    rwa [Nat.sub_eq_zero_of_le hrefs] at hdrop
  | offlineWrite hmu => exact (h.send _ _).withMu (by rintro r' st ⟨⟩)
  | @offlineState peerIDs hmu =>
    have hforget : (c.forget peerIDs).Tallied := h.congr rfl
    have hfree : Tallied { c.forget peerIDs with mu := none } :=
      hforget.withMu (by rintro r' st ⟨⟩)
    exact hfree.congr rfl
  | arrive hmu hreader | deliverEarly hreader | peersOnline hreader | peersWentOffline hreader
  | expire => exact h.congr rfl
  | @deliverWrite key r m call hreader hcall =>
    have hcount : (call.writeMsg m).phase.isCounted = call.phase.isCounted := by
      rw [Call.writeMsg_phase]
    refine (h.setCall hcall (call.writeMsg_key m) hcount (fun hconn => ?_) fun ho => ?_).congr rfl
    · rw [Call.writeMsg_phase]
      exact (h.call hconn hcall).2
    · rw [Call.writeMsg_phase]
      exact ho
  | offlineClose hmu hreader => exact h.closeConnsOf _ _
  | read hcall hmsgs =>
    exact h.setCall hcall rfl rfl (fun hconn => (h.call hconn hcall).2) fun ho => ho

/-- **Counts.**  Without a call in progress the count of a peer is the number of its registered
connections. -/
theorem Client.Tallied.refs_eq_registered (h : c.Tallied) (hquiet : c.Quiet) (p : PeerID) :
    c.refs p = c.registered p := by
  refine (h.refs p).trans (countP_congr fun e he => ?_)
  obtain ⟨call, hcall, -, -, hfailed⟩ := h.owner e.1 e.2 (get_of_mem h.nodup he)
  have hphase : call.phase = .opened :=
    (hquiet.calls _ (mem_of_get hcall)).resolve_right hfailed
  rw [counted_eq hcall, hphase]
  simp [isCounted]

/-! ## Subscriptions -/

/-- What a message says about the subscription to a peer. -/
def StateMsg.about (p : PeerID) : StateMsg → Option Bool
  | .subscribe peerID => if peerID = p then some true else none
  | .unsubscribe peerIDs => if p ∈ peerIDs then some false else none

open StateMsg

/-- Whether the last message about a peer was a subscription; `none` if there was none. -/
def lastSent (sent : List StateMsg) (p : PeerID) : Option Bool :=
  (sent.filterMap (about p)).getLast?

/-- The call relies on the peer being listened for. -/
def Phase.listens : Phase → Bool
  | .flushing _ alreadySubscribed => alreadySubscribed
  | .subscribing | .waiting | .counting | .confirming | .opened => true
  | _ => false

/-- The call relies on the subscription having been sent. -/
def Phase.subscribed (ph : Phase) : Bool := ph.listens && ph ≠ .subscribing

/-- The call is to end the listening, if it is still the one that waits. -/
def Phase.stops (ph : Phase) : Bool := ph = .subscribeFailed || ph = .unsubscribed

/-- No other connection to the peer of a call is registered. -/
def Client.Alone (c : Client) (r : ℕ) (p : PeerID) : Prop :=
  ∀ k r', get c.conns k = some r' → k.peerID = p → r' = r

/-- **The condition.** A peer is unsubscribed only while no other connection to it is registered. -/
def Undisturbed (c : Client) : Label → Prop
  | .closeConn r => ∀ call, get c.calls r = some call →
      get c.conns call.key = some r → c.refs call.key.peerID ≤ 1 →
        c.Alone r call.key.peerID
  | .unsubscribe r _ => ∀ call, get c.calls r = some call → c.Alone r call.key.peerID
  | .subscribe r false => ∀ call, get c.calls r = some call → c.Alone r call.key.peerID
  | _ => True

/-- A connection is registered and not being closed. -/
def Client.Holds (c : Client) (k : ConnKey) (r : ℕ) : Prop :=
  get c.conns k = some r ∧ ∀ st, c.mu ≠ some (.closeConn r st)

/-- What the registered connections rely on is there. -/
structure Client.Subscribed (c : Client) : Prop where
  /-- Nobody relies on a listening that a call is about to stop. -/
  stops : ∀ r call, get c.calls r = some call → call.phase.stops = true →
    get c.waitingPeers call.key.peerID = some r →
    ∀ k r' call', get c.conns k = some r' → get c.calls r' = some call' →
      k.peerID = call.key.peerID → call'.phase.listens = false
  /-- The peer of a connection is listened for and subscribed. -/
  relies : ∀ k r call, c.Holds k r → get c.calls r = some call →
    (call.phase.listens = true → k.peerID ∈ c.listenForOfflinePeers) ∧
      (call.phase.subscribed = true → lastSent c.sent k.peerID = some true)
  /-- A connection whose close unsubscribes is the only one. -/
  closing : ∀ r st, c.mu = some (.closeConn r st) → ∀ call, get c.calls r = some call →
    c.Alone r call.key.peerID
  /-- The peers that went offline have no connections. -/
  offline : ∀ ps st, c.mu = some (.closeConnsByPeerID ps st) →
    ∀ k r, get c.conns k = some r → k.peerID ∉ ps

/-- The last message about a peer. -/
theorem lastSent_append (sent : List StateMsg) (m : StateMsg) (p : PeerID) :
    lastSent (sent ++ [m]) p = (m.about p).or (lastSent sent p) := by
  unfold lastSent
  cases h : m.about p <;> simp [h]

/-- A call that stops does not listen. -/
theorem Phase.listens_of_stops (h : ph.stops) : ph.listens = false := by
  cases ph <;> simp_all [stops, listens]

/-- A subscribed call listens. -/
theorem Phase.listens_of_subscribed (h : ph.subscribed) : ph.listens := by
  unfold subscribed at h
  simp only [Bool.and_eq_true] at h
  exact h.1

/-- A step takes connections away and leaves what the others rely on. -/
structure Client.Eases (c c' : Client) : Prop where
  conns : ∀ k r, get c'.conns k = some r → get c.conns k = some r
  holds : ∀ k r, c'.Holds k r → c.Holds k r
  calls : ∀ r call', get c'.calls r = some call' → ∃ call,
    get c.calls r = some call ∧ call'.phase = call.phase ∧ call'.key = call.key
  wait : ∀ p r, get c'.waitingPeers p = some r → get c.waitingPeers p = some r
  listen : ∀ k r call, c.Holds k r → get c.calls r = some call → call.phase.listens →
    k.peerID ∈ c.listenForOfflinePeers → k.peerID ∈ c'.listenForOfflinePeers
  sent : ∀ k r call, c.Holds k r → get c.calls r = some call → call.phase.subscribed →
    lastSent c.sent k.peerID = some true → lastSent c'.sent k.peerID = some true

/-- Nothing changed. -/
theorem Client.Eases.refl (c : Client) : c.Eases c :=
  ⟨fun _ _ h => h, fun _ _ h => h, fun _ call h => ⟨call, h, rfl, rfl⟩, fun _ _ h => h,
    fun _ _ _ _ _ _ h => h, fun _ _ _ _ _ _ h => h⟩

/-- Fewer listeners need fewer subscriptions. -/
theorem Client.Subscribed.mono (h : c.Subscribed) (he : c.Eases c')
    (hclosing : ∀ r st, c'.mu = some (.closeConn r st) → ∀ call,
      get c'.calls r = some call → c'.Alone r call.key.peerID)
    (hoffline : ∀ ps st, c'.mu = some (.closeConnsByPeerID ps st) →
      ∀ k r, get c'.conns k = some r → k.peerID ∉ ps) : c'.Subscribed := by
  refine ⟨?_, ?_, hclosing, hoffline⟩
  · intro r call hcall hstops hwaits k r' call' hconn hcall' hpeer
    obtain ⟨call₀, hcall₀, hphase, hkey⟩ := he.calls r call hcall
    obtain ⟨call₁, hcall₁, hphase₁, -⟩ := he.calls r' call' hcall'
    rw [hphase₁]
    rw [hkey] at hwaits hpeer
    exact h.stops r call₀ hcall₀ (hphase ▸ hstops) (he.wait _ _ hwaits) k r' call₁
      (he.conns k r' hconn) hcall₁ hpeer
  · intro k r call hk hcall
    obtain ⟨call₀, hcall₀, hphase, -⟩ := he.calls r call hcall
    have hk := he.holds k r hk
    obtain ⟨hl, hs⟩ := h.relies k r call₀ hk hcall₀
    rw [hphase]
    exact ⟨fun hlis => he.listen k r call₀ hk hcall₀ hlis (hl hlis),
      fun hsub => he.sent k r call₀ hk hcall₀ hsub (hs hsub)⟩

/-- Every call is one of before, in its phase. -/
theorem exists_call_of_setCall (hcall : get c.calls r = some call)
    (hphase : call'.phase = call.phase) (hkey : call'.key = call.key) (r' : ℕ) (call'' : Call)
    (hcall'' : get (c.setCall r call').calls r' = some call'') : ∃ call₀,
      get c.calls r' = some call₀ ∧ call''.phase = call₀.phase ∧ call''.key = call₀.key := by
  obtain ⟨rfl, rfl⟩ | ⟨-, hold⟩ := get_set_eq_some.mp hcall''
  · exact ⟨call, hcall, hphase, hkey⟩
  · exact ⟨call'', hold, rfl, rfl⟩

open Eases

/-- The messages of a container change nothing that a connection relies on. -/
theorem Client.Subscribed.rewriteCall (h : c.Subscribed) (call' : Call)
    (hcall : get c.calls r = some call) (hphase : call'.phase = call.phase)
    (hkey : call'.key = call.key) : (c.setCall r call').Subscribed := by
  have hcalls := exists_call_of_setCall (c := c) hcall hphase hkey
  refine h.mono { refl c with calls := hcalls } ?_ h.offline
  intro r' st hmu call'' hcall''
  obtain ⟨call₀, hcall₀, -, hkey₀⟩ := hcalls r' call'' hcall''
  rw [hkey₀]
  exact h.closing r' st hmu call₀ hcall₀

theorem Client.Subscribed.setCall (h : c.Subscribed) (howned : c.Owned)
    (call' : Call) (hcall : get c.calls r = some call) (hkey : call'.key = call.key)
    (hlistens : call'.phase.listens → call.phase.listens ∨
      call.key.peerID ∈ c.listenForOfflinePeers ∧ get c.waitingPeers call.key.peerID = some r)
    (hsubscribed : call'.phase.subscribed → call.phase.subscribed ∨
      lastSent c.sent call.key.peerID = some true)
    (hstops : call'.phase.stops → c.Alone r call.key.peerID) : (c.setCall r call').Subscribed := by
  refine ⟨?_, ?_, ?_, h.offline⟩
  · intro r₀ call₀ hcall₀ hstops₀ hwaits k r' call'' hconn hcall'' hpeer
    obtain ⟨rfl, rfl⟩ | ⟨hr₀, hold₀⟩ := get_set_eq_some.mp hcall₀
    · -- the call itself is to stop the listening
      obtain rfl : r' = r₀ := hstops hstops₀ k r' hconn (hpeer.trans (congrArg _ hkey))
      cases hcall''.symm.trans get_set_self
      exact listens_of_stops hstops₀
    · obtain ⟨rfl, rfl⟩ | ⟨-, hcall''⟩ := get_set_eq_some.mp hcall''
      · have hk := (howned.call hconn hcall).1
        cases hlis : call'.phase.listens with
        | false => rfl
        | true =>
          obtain hold | ⟨-, hw⟩ := hlistens hlis
          · have hfalse := h.stops r₀ call₀ hold₀ hstops₀ hwaits k r' call hconn hcall hpeer
            rw [hold] at hfalse
            cases hfalse
          · rw [hk, hpeer] at hw
            exact absurd (some.inj (hwaits.symm.trans hw)) hr₀
      · exact h.stops r₀ call₀ hold₀ hstops₀ hwaits k r' call'' hconn hcall'' hpeer
  · intro k r' call'' hk hcall''
    obtain ⟨rfl, rfl⟩ | ⟨-, hcall''⟩ := get_set_eq_some.mp hcall''
    · have hkk := (howned.call hk.1 hcall).1
      obtain ⟨hl, hs⟩ := h.relies k r' call hk hcall
      constructor
      · intro hlis
        obtain hold | ⟨hmem, -⟩ := hlistens hlis
        · exact hl hold
        · exact hkk ▸ hmem
      · intro hsub
        obtain hold | hlast := hsubscribed hsub
        · exact hs hold
        · exact hkk ▸ hlast
    · exact h.relies k r' call'' hk hcall''
  · intro r₀ st hmu call₀ hcall₀
    obtain ⟨rfl, rfl⟩ | ⟨-, hcall₀⟩ := get_set_eq_some.mp hcall₀
    · rw [hkey]
      exact h.closing r₀ st hmu call hcall
    · exact h.closing r₀ st hmu call₀ hcall₀

theorem Client.Subscribed.addCall (h : c.Subscribed) (ht : c.Tallied)
    (hnew : get c.calls r = none) (call : Call) (hstops : call.phase.stops = false) :
    (c.setCall r call).Subscribed := by
  have hne : ∀ {k : ConnKey} {r' : ℕ}, get c.conns k = some r' → r' ≠ r := by
    rintro k r' hconn rfl
    obtain ⟨call', hcall', -⟩ := ht.owner k r' hconn
    rw [hnew] at hcall'
    cases hcall'
  refine ⟨?_, ?_, ?_, h.offline⟩
  · intro r₀ call₀ hcall₀ hstops₀ hwaits k r' call'' hconn hcall'' hpeer
    rw [get_setCall, if_neg (hne hconn)] at hcall''
    obtain ⟨rfl, rfl⟩ | ⟨-, hcall₀⟩ := get_set_eq_some.mp hcall₀
    · rw [hstops] at hstops₀
      cases hstops₀
    · exact h.stops r₀ call₀ hcall₀ hstops₀ hwaits k r' call'' hconn hcall'' hpeer
  · intro k r' call'' hk hcall''
    rw [get_setCall, if_neg (hne hk.1)] at hcall''
    exact h.relies k r' call'' hk hcall''
  · intro r₀ st hmu call₀ hcall₀
    obtain ⟨call', hcall', -⟩ := ht.last r₀ st hmu
    obtain ⟨rfl, rfl⟩ | ⟨-, hcall₀⟩ := get_set_eq_some.mp hcall₀
    · rw [hnew] at hcall'
      cases hcall'
    · exact h.closing r₀ st hmu call₀ hcall₀

/-- A counted peer has a counted connection. -/
theorem Client.Tallied.exists_counted (h : c.Tallied) {p : PeerID} (hpos : 0 < c.refs p) :
    ∃ k r call, get c.conns k = some r ∧
      get c.calls r = some call ∧ k.peerID = p ∧ call.phase.isCounted := by
  rw [h.refs p, tally, countP_pos_iff] at hpos
  obtain ⟨e, he, hcond⟩ := hpos
  simp only [Bool.and_eq_true, decide_eq_true_eq] at hcond
  have hget := get_of_mem h.nodup he
  obtain ⟨call, hcall, -⟩ := h.owner e.1 e.2 hget
  exact ⟨e.1, e.2, call, hget, hcall, hcond.1, counted_eq hcall ▸ hcond.2⟩

/-- A counted call is subscribed. -/
theorem Phase.subscribed_of_isCounted (h : ph.isCounted) : ph.subscribed := by
  cases ph <;> simp_all [isCounted, subscribed, listens]

theorem stops_firstPhase (c : Client) (key : ConnKey) : (c.firstPhase key).stops = false := by
  unfold firstPhase afterRegistration
  split
  · rfl
  · split <;> rfl

/-- A call that listens at once is for a counted peer. -/
theorem listens_firstPhase (c : Client) (key : ConnKey)
    (h : (c.firstPhase key).listens) : 0 < c.refs key.peerID := by
  unfold firstPhase afterRegistration at h
  split at h
  · simpa [listens] using h
  · split at h
    next hpos =>
      simpa using hpos
    · cases h

namespace Client.Subscribed

variable (h : c.Subscribed)

include h

/-- A connection is registered that relies on nothing or on a connection that is there. -/
theorem insertConn (ht : c.Tallied)
    (hmu : c.mu = none) (hcall : get c.calls r = some call)
    (hrelies : call.phase.listens → 0 < c.refs call.key.peerID) :
    Subscribed { c with conns := set c.conns call.key r } := by
  -- what a counted connection to the same peer relies on is there for the new one
  have hthere : call.phase.listens →
      call.key.peerID ∈ c.listenForOfflinePeers ∧ lastSent c.sent call.key.peerID = some true ∧
        ∀ r₀ call₀, get c.calls r₀ = some call₀ → call₀.phase.stops →
          get c.waitingPeers call₀.key.peerID = some r₀ → call.key.peerID ≠ call₀.key.peerID := by
    intro hlis
    obtain ⟨k, r', call', hconn, hcall', hpeer, hcount⟩ := ht.exists_counted (hrelies hlis)
    have hsub := subscribed_of_isCounted hcount
    have hlis' := listens_of_subscribed hsub
    obtain ⟨hl, hs⟩ := h.relies k r' call' ⟨hconn, fun st => by rw [hmu]; simp⟩ hcall'
    refine ⟨hpeer ▸ hl hlis', hpeer ▸ hs hsub, fun r₀ call₀ hcall₀ hstops₀ hwaits hsame => ?_⟩
    have hfalse := h.stops r₀ call₀ hcall₀ hstops₀ hwaits k r' call' hconn hcall'
      (hpeer.trans hsame)
    rw [hlis'] at hfalse
    cases hfalse
  refine ⟨?_, ?_, ?_, ?_⟩
  · intro r₀ call₀ hcall₀ hstops₀ hwaits k r' call'' hconn hcall'' hpeer
    obtain ⟨rfl, rfl⟩ | ⟨-, hconn⟩ := get_set_eq_some.mp hconn
    · obtain rfl := some.inj (hcall''.symm.trans hcall)
      cases hlis : call''.phase.listens with
      | false => rfl
      | true => exact absurd hpeer ((hthere hlis).2.2 r₀ call₀ hcall₀ hstops₀ hwaits)
    · exact h.stops r₀ call₀ hcall₀ hstops₀ hwaits k r' call'' hconn hcall'' hpeer
  · intro k r' call'' hk hcall''
    obtain ⟨rfl, rfl⟩ | ⟨-, hconn⟩ := get_set_eq_some.mp hk.1
    · obtain rfl := some.inj (hcall''.symm.trans hcall)
      exact ⟨fun hlis => (hthere hlis).1,
        fun hsub => (hthere (listens_of_subscribed hsub)).2.1⟩
    · exact h.relies k r' call'' ⟨hconn, hk.2⟩ hcall''
  · intro r' st hmu'
    rw [hmu] at hmu'
    cases hmu'
  · intro ps st hmu'
    rw [hmu] at hmu'
    cases hmu'

/-! ### Messages and sections of the subscription -/

/-- A message is sent that takes nothing from a connection that relies on it. -/
theorem send (written : Bool) {m : StateMsg}
    (hm : ∀ k r call, c.Holds k r → get c.calls r = some call →
      call.phase.subscribed → m.about k.peerID ≠ some false) : (c.send written m).Subscribed := by
  unfold Client.send
  split
  · refine h.mono { refl c with sent := fun k r call hk hcall hsub hlast => ?_ }
      h.closing h.offline
    rw [lastSent_append, hlast]
    cases habout : m.about k.peerID with
    | none => rfl
    | some b =>
      cases b with
      | true => rfl
      | false => exact absurd habout (hm k r call hk hcall hsub)
  · exact h

/-- An unsubscription is sent of peers that no connection relies on. -/
theorem sendUnsubscribe (written : Bool)
    (hps : ∀ k r call, c.Holds k r → get c.calls r = some call → call.phase.subscribed →
      k.peerID ∉ ps) : (c.send written (.unsubscribe ps)).Subscribed := by
  refine h.send written fun k r call hk hcall hsub habout => ?_
  simp [about, hps k r call hk hcall hsub] at habout

/-- The listening for peers ends that no connection relies on. -/
theorem unlisten (waiting : List (PeerID × ℕ))
    (cancelled : List ℕ) (gone : PeerID → Bool)
    (hwait : ∀ p r, get waiting p = some r → get c.waitingPeers p = some r)
    (hgone : ∀ k r call, c.Holds k r → get c.calls r = some call →
      call.phase.listens → gone k.peerID = false) : Subscribed { c with
      waitingPeers := waiting
      cancelled := cancelled
      listenForOfflinePeers := c.listenForOfflinePeers.filter fun p => !gone p } := by
  refine h.mono { refl c with
    wait := hwait, listen := fun k r call hk hcall hlis hmem => ?_ } h.closing h.offline
  exact List.mem_filter.mpr ⟨hmem, by rw [hgone k r call hk hcall hlis]; rfl⟩

theorem stopWaiting
    (hcall : get c.calls r = some call) (hstops : call.phase.stops) :
    (c.stopWaiting r call.key.peerID).Subscribed := by
  unfold Client.stopWaiting
  split
  next hwaits =>
    have hun := h.unlisten (erase c.waitingPeers call.key.peerID) (c.cancelled ++ [r])
      (fun p => decide (p = call.key.peerID)) ?_ ?_
    · simpa using hun
    · intro p r' hget
      exact (get_of_get_erase hget).2
    · intro k r' call' hk hcall' hlis
      by_contra hsame
      have hpeer : k.peerID = call.key.peerID := by simpa using hsame
      have hfalse := h.stops r call hcall hstops hwaits k r' call' hk.1 hcall' hpeer
      rw [hlis] at hfalse
      cases hfalse
  · exact h

/-- Peers without connections are forgotten. -/
theorem forget (ps : List PeerID)
    (hgone : ∀ k r, c.Holds k r → k.peerID ∉ ps) : (c.forget ps).Subscribed := by
  have hun := h.unlisten (c.waitingPeers.filter fun e => e.1 ∉ ps)
    (c.cancelled ++ ps.filterMap (get c.waitingPeers)) (fun p => decide (p ∈ ps)) ?_ ?_
  · simpa [Client.forget] using hun
  · intro p r hget
    rw [get_filter_key (fun p : PeerID => decide (p ∉ ps))] at hget
    split at hget
    · exact hget
    · cases hget
  · intro k r _ hk _ _
    simpa using hgone k r hk

/-! ### Connections that are closed -/

/-- Connections are taken away, and the lock is released or kept. -/
theorem fewer
    (hconns : ∀ k r, get c'.conns k = some r → get c.conns k = some r)
    (hsame : (c'.mu, c'.calls, c'.waitingPeers, c'.listenForOfflinePeers, c'.sent) =
      (c.mu, c.calls, c.waitingPeers, c.listenForOfflinePeers, c.sent)) : c'.Subscribed := by
  obtain ⟨⟩ := c
  obtain ⟨⟩ := c'
  obtain ⟨rfl, rfl, rfl, rfl, rfl⟩ := hsame
  refine h.mono ⟨hconns, fun k r hk => ⟨hconns k r hk.1, hk.2⟩,
    fun _ call h => ⟨call, h, rfl, rfl⟩, fun _ _ h => h, fun _ _ _ _ _ _ h => h,
    fun _ _ _ _ _ _ h => h⟩ ?_ ?_
  · intro r st hmu call hcall k r' hconn hpeer
    exact h.closing r st hmu call hcall k r' (hconns k r' hconn) hpeer
  · intro ps st hmu k r hconn
    exact h.offline ps st hmu k r (hconns k r hconn)

/-- The call that unsubscribes its peer goes on to the next stage. -/
theorem closeStage {st : Stage}
    (hmu : c.mu = some (.closeConn r st)) (st' : Stage) :
    Subscribed { c with mu := some (.closeConn r st') } := by
  refine h.mono { refl c with
    holds := fun k r' hk => ⟨hk.1, fun st₀ hst₀ => ?_⟩ } ?_ ?_
  · obtain ⟨rfl, -⟩ := Holder.closeConn.inj (some.inj (hmu.symm.trans hst₀))
    exact hk.2 st' rfl
  · rintro r' st₀ ⟨⟩
    exact h.closing r st hmu
  · rintro ps st₀ ⟨⟩

section

variable (hcall : get c.calls r = some call)

include hcall

/-- The call ends its wait or gives up its connection. -/
theorem quit (howned : c.Owned) (call' : Call) (hkey : call'.key = call.key)
    (hlistens : call'.phase.listens = false) (hstops : call'.phase.stops = false) :
    (c.setCall r call').Subscribed := by
  refine h.setCall howned call' hcall hkey (fun hlis => ?_) (fun hsub => ?_) fun hst => ?_
  · exact absurd (hlistens.symm.trans hlis) (by simp)
  · exact absurd (hlistens.symm.trans (listens_of_subscribed hsub)) (by simp)
  · exact absurd (hstops.symm.trans hst) (by simp)

/-- A subscribed call moves on. -/
theorem goOn (howned : c.Owned) (call' : Call) (hkey : call'.key = call.key)
    (hsub : call.phase.subscribed) (hstops : call'.phase.stops = false) :
    (c.setCall r call').Subscribed := by
  refine h.setCall howned call' hcall hkey (fun _ => .inl (listens_of_subscribed hsub))
    (fun _ => .inl hsub) fun hst => ?_
  exact absurd (hstops.symm.trans hst) (by simp)

/-- A call waits for its peer. -/
theorem enterWait (hphase : call.phase = .entering) :
    Subscribed { c with
      waitingPeers := set c.waitingPeers call.key.peerID r
      listenForOfflinePeers := call.key.peerID :: c.listenForOfflinePeers } := by
  refine ⟨?_, ?_, h.closing, h.offline⟩
  · intro r₀ call₀ hcall₀ hstops₀ hwaits
    obtain ⟨-, rfl⟩ | ⟨-, hwaits⟩ := get_set_eq_some.mp hwaits
    · -- the new wait is that of this call, which is not about to stop
      cases hcall₀.symm.trans hcall
      rw [hphase] at hstops₀
      cases hstops₀
    · exact h.stops r₀ call₀ hcall₀ hstops₀ hwaits
  · intro k r' call' hk hcall'
    obtain ⟨hl, hs⟩ := h.relies k r' call' hk hcall'
    exact ⟨fun hlis => mem_cons_of_mem _ (hl hlis), hs⟩

theorem dropConn (n : ℕ) : (c.dropConn r call n).Subscribed := by
  have hclose := h.rewriteCall call.close hcall rfl rfl
  exact hclose.fewer (fun k r' hconn => (get_of_get_erase hconn).2) rfl

/-- The last connection to a peer is gone once the peer has been unsubscribed. -/
theorem closeFinish (howned : c.Owned) {st : Stage} (hmu : c.mu = some (.closeConn r st)) :
    Subscribed { c.dropConn r call 0 with mu := none } := by
  refine h.mono { refl c with
                  conns := fun k r' hconn => (get_of_get_erase hconn).2
                  holds := fun k r' hk => ?_
                  calls := @exists_call_of_setCall c r call.close call hcall rfl rfl } ?_ ?_
  · obtain ⟨hne, hconn⟩ := get_of_get_erase hk.1
    refine ⟨hconn, fun st₀ hst₀ => hne ?_⟩
    obtain ⟨rfl, -⟩ := Holder.closeConn.inj (some.inj (hmu.symm.trans hst₀))
    exact (howned.call hconn hcall).1.symm
  · rintro r' st₀ ⟨⟩
  · rintro ps st₀ ⟨⟩

end

/-- The unsubscription of the peers that went offline goes on to its next stage or ends. -/
theorem offlineStage {st : Stage}
    (hmu : c.mu = some (.closeConnsByPeerID ps st)) (reader : Reader) (mu : Option Holder)
    (hmu' : ∀ holder, mu = some holder → ∃ st', holder = .closeConnsByPeerID ps st') :
    Subscribed { c with reader := reader, mu := mu } := by
  refine h.mono { refl c with
    holds := fun k r hk => ⟨hk.1, fun st₀ => by rw [hmu]; simp⟩ } ?_ ?_
  · intro r st₀ hst₀
    obtain ⟨st', hst'⟩ := hmu' _ hst₀
    cases hst'
  · intro ps' st₀ hst₀
    obtain ⟨st', hst'⟩ := hmu' _ hst₀
    cases hst'
    exact h.offline ps st hmu

/-- The connections to the peers that went offline are gone. -/
theorem closeConnsOf (hmu : c.mu = none) (ps : List PeerID) (st : Stage) :
    Subscribed { c.closeConnsOf ps with mu := some (.closeConnsByPeerID ps st) } := by
  refine h.mono { refl c with
                  conns := fun k r hconn => (get_of_get_closeConnsOf hconn).2
                  holds := fun k r hk => ⟨(get_of_get_closeConnsOf hk.1).2, fun st₀ => by
                    rw [hmu]; simp⟩
                  calls := fun r call' hcall' => ?_ } ?_ ?_
  · obtain ⟨f, hf, hget⟩ := get_closeConnsOf c ps r
    obtain ⟨call, hcall, rfl⟩ := map_eq_some_iff.mp (hget.symm.trans hcall')
    exact ⟨call, hcall, hf call⟩
  · rintro r st₀ ⟨⟩
  · rintro ps' st₀ ⟨⟩ k r hconn
    exact (get_of_get_closeConnsOf hconn).1

/-- **The step lemma**: under the condition every step keeps what the connections rely on. -/
theorem step {a : Label} (ht : c.Tallied)
    (hok : Undisturbed c a) (hstep : Step c a c') : c'.Subscribed := by
  have howned := ht.toOwned
  cases hstep with
  | openExisting hmu hnew hconn => exact h.addCall ht hnew _ rfl
  | @openNew r key hmu hnew hconn =>
    have hcall : get (c.setCall r ⟨key, c.firstPhase key, [], [], false⟩).calls r =
        some ⟨key, c.firstPhase key, [], [], false⟩ := by
      rw [get_setCall, if_pos rfl]
    have hadd := h.addCall ht hnew ⟨key, c.firstPhase key, [], [], false⟩ (stops_firstPhase c key)
    exact (hadd.insertConn (ht.addCall hnew _) hmu hcall
      (listens_firstPhase c key)).fewer (fun _ _ h => h) rfl
  | @flush r call m subscribed hcall hphase =>
    cases subscribed with
    | true => exact h.goOn hcall howned _ (call.writeMsg_key m) (by rw [hphase]; rfl) rfl
    | false => exact h.quit hcall howned _ (call.writeMsg_key m) rfl rfl
  | alreadyWaiting hcall hphase hwait | waitCancelled hcall hphase hch hclosed
  | waitTimeout hcall hphase | closeContainer hcall hphase =>
    exact h.quit hcall howned _ rfl rfl rfl
  | @enterWait r call hcall hphase hwait =>
    exact (h.enterWait hcall hphase).setCall ⟨howned.nodup, howned.owner⟩
      { call with phase := .subscribing } hcall rfl
      (fun _ => .inr ⟨mem_cons_self, get_set_self⟩) (fun hsub => by cases hsub)
      fun hstops => by cases hstops
  | @subscribe r call written hcall hphase =>
    cases written with
    | true =>
      have hsend : (c.send true (.subscribe call.key.peerID)).Subscribed := by
        refine h.send true fun k r' call' _ _ _ habout => ?_
        simp only [about] at habout
        split at habout <;> cases habout
      refine hsend.setCall (ht.send _ _).toOwned _ hcall rfl (fun _ => .inl ?_)
        (fun _ => .inr ?_) fun hstops => by cases hstops
      · rw [hphase]
        rfl
      · show lastSent (c.sent ++ [.subscribe call.key.peerID]) call.key.peerID = some true
        rw [lastSent_append]
        simp [about]
    | false =>
      exact h.setCall howned _ hcall rfl (fun hlis => by cases hlis) (fun hsub => by cases hsub)
        fun _ => hok call hcall
  | waitOnline hcall hphase hch | confirm hmu hcall hphase =>
    exact h.goOn hcall howned _ rfl (by rw [hphase]; rfl) rfl
  | @unsubscribe r call written hcall hphase =>
    have halone := hok call hcall
    have hsend : (c.send written (.unsubscribe [call.key.peerID])).Subscribed := by
      refine h.sendUnsubscribe written fun k r' call' hk hcall' hsub hpeer => ?_
      -- the only connection to the peer is that of the call, which has timed out
      obtain rfl := halone k r' hk.1 (mem_singleton.mp hpeer)
      obtain rfl := some.inj (hcall'.symm.trans hcall)
      rw [hphase] at hsub
      cases hsub
    refine hsend.setCall (ht.send _ _).toOwned _
      (get_calls_of_eq (calls_send ..) hcall) rfl (fun hlis => by cases hlis)
      (fun hsub => by cases hsub) fun _ => ?_
    unfold Client.Alone Client.send
    split <;> exact halone
  | @stopWaiting r call hcall hphase =>
    have hstops : call.phase.stops := by
      obtain hphase | hphase := hphase <;> rw [hphase] <;> rfl
    exact (h.stopWaiting hcall hstops).quit (get_calls_of_eq (calls_stopWaiting ..) hcall)
      (ht.stopWaiting _ _).toOwned _ rfl rfl rfl
  | @removeConn r call hmu hcall hphase =>
    have hcount : call.phase.isCounted = false := by rw [hphase]; rfl
    have hfewer : (c.removeConn r call.key).Subscribed := by
      unfold removeConn
      split
      · exact h.fewer (fun k r' hconn => (get_of_get_erase hconn).2) rfl
      · exact h
    exact hfewer.quit (get_calls_of_eq (calls_removeConn ..) hcall)
      (ht.removeConn hcall hmu hcount).toOwned _ rfl rfl rfl
  | @countRef r call hmu hcall hphase =>
    have hgo := h.goOn hcall howned { call with phase := .confirming } rfl (by rw [hphase]; rfl) rfl
    unfold count
    split
    · exact hgo.fewer (fun _ _ h => h) rfl
    · exact hgo
  | closeMismatch hmu hcall hphase hconn => exact h
  | closeOne hmu hcall hphase hconn hrefs => exact h.dropConn hcall _
  | @closeLast r call hmu hcall hphase hconn hrefs =>
    refine h.mono { Eases.refl c with
      holds := fun k r' hk => ⟨hk.1, fun st => by rw [hmu]; simp⟩ } ?_ ?_
    · rintro r' st ⟨⟩ call' hcall'
      obtain rfl := some.inj (hcall'.symm.trans hcall)
      exact hok call' hcall hconn hrefs
    · rintro ps st ⟨⟩
  | @closeWrite r call written hmu hcall =>
    have hsend : (c.send written (.unsubscribe [call.key.peerID])).Subscribed := by
      refine h.sendUnsubscribe written fun k r' call' hk _ _ hpeer => ?_
      obtain rfl := h.closing r _ hmu call hcall k r' hk.1 (mem_singleton.mp hpeer)
      exact hk.2 _ hmu
    exact hsend.closeStage ((mu_send ..).trans hmu) .state
  | @closeState r call hmu hcall =>
    have hforget : (c.forget [call.key.peerID]).Subscribed := by
      refine h.forget _ fun k r' hk hmem => ?_
      obtain rfl := h.closing r _ hmu call hcall k r' hk.1 (mem_singleton.mp hmem)
      exact hk.2 _ hmu
    exact hforget.closeStage hmu .finish
  | closeFinish hmu hcall => exact h.closeFinish hcall howned hmu
  | @offlineWrite ps written hmu =>
    have hsend := h.sendUnsubscribe written fun k r' _ hk _ _ => h.offline ps _ hmu k r' hk.1
    exact hsend.offlineStage ((mu_send ..).trans hmu) _ _ fun holder hholder =>
      ⟨.state, (some.inj hholder).symm⟩
  | @offlineState ps hmu =>
    have hforget := h.forget ps fun k r' hk => h.offline ps _ hmu k r' hk.1
    exact hforget.offlineStage hmu .idle none fun holder hholder => by cases hholder
  | arrive hmu hreader =>
    exact h.fewer (fun _ _ h => h) rfl
  | @deliverWrite key r m call hreader hcall =>
    have hset := h.rewriteCall (call.writeMsg m) hcall (call.writeMsg_phase m) (call.writeMsg_key m)
    exact hset.fewer (fun _ _ h => h) rfl
  | deliverEarly hreader | peersWentOffline hreader | expire =>
    exact h.fewer (fun _ _ h => h) rfl
  | @peersOnline ps hreader =>
    refine h.mono { Eases.refl c with wait := fun p r hw => ?_ } h.closing h.offline
    unfold onPeersOnline at hw
    rw [get_filter_key (fun p : PeerID => decide (p ∉ ps))] at hw
    split at hw
    · exact hw
    · cases hw
  | offlineClose hmu hreader => exact h.closeConnsOf hmu _ _
  | @read r call m rest hcall hmsgs =>
    exact h.rewriteCall { call with messages := rest } hcall rfl rfl

end Client.Subscribed

/-! ## Runs -/

/-- The counts are right along every run. -/
theorem Client.Tallied.of_run {ok : Client → Label → Prop} {as : List Label}
    (hrun : Run Step ok connected as c) : c.Tallied := by
  refine hrun.invariant (P := fun _ c => c.Tallied) ?_ fun _ _ _ _ h _ hstep => h.step hstep
  exact ⟨⟨nodup_nil, fun k r hconn => by cases hconn⟩, fun _ => rfl, by rintro r st ⟨⟩⟩

/-- Listeners are subscribed along every undisturbed run. -/
theorem Client.Subscribed.of_run {as : List Label}
    (hrun : Run Step Undisturbed connected as c) : c.Subscribed := by
  refine (hrun.invariant (P := fun _ c => c.Tallied ∧ c.Subscribed) ?_ ?_).2
  · refine ⟨Tallied.of_run (.nil : Run Step Undisturbed connected [] connected),
      ⟨?_, ?_, ?_, ?_⟩⟩
    · rintro r call ⟨⟩
    · rintro k r call ⟨⟨⟩, -⟩
    · rintro r st ⟨⟩
    · rintro ps st ⟨⟩
  · rintro _ c a c' ⟨ht, h⟩ hok hstep
    exact ⟨ht.step hstep, h.step ht hok hstep⟩

/-- **Subscriptions.**  Without a call in progress the peer of a counted connection is listened
for and subscribed. -/
theorem Client.Subscribed.of_quiet (h : c.Subscribed) (ht : c.Tallied) (hquiet : c.Quiet)
    {p : PeerID} (hp : 0 < c.refs p) :
    p ∈ c.listenForOfflinePeers ∧ lastSent c.sent p = some true := by
  obtain ⟨k, r, call, hconn, hcall, rfl, hcounted⟩ := ht.exists_counted hp
  have hsub := subscribed_of_isCounted hcounted
  have hholds : c.Holds k r := ⟨hconn, fun st => by rw [hquiet.mu]; simp⟩
  obtain ⟨hl, hs⟩ := h.relies k r call hholds hcall
  exact ⟨hl (listens_of_subscribed hsub), hs hsub⟩

/-- The run from the close of the last counted connection to a peer to the return of the call
whose connection to the peer is still to be counted. -/
def closedBeforeCounted (r r' : ℕ) : List Label :=
  [.closeConn r, .holderWrite true, .holderState, .holderFinish, .countRef r', .confirm r']

/-- **Without the condition.** If the last counted connection is closed between the two sections of
an opening, the new connection is returned without a subscription. -/
theorem unsubscribed_of_closedBeforeCounted {r' : ℕ} (hmu : c.mu = none)
    (hreader : c.reader = .idle)
    (hothers : ∀ e ∈ c.calls, e.1 ≠ r' → e.2.phase = .opened ∨ e.2.phase = .failed)
    (hcall : get c.calls r = some call) (hphase : call.phase = .opened)
    (hconn : get c.conns call.key = some r) (hrefs : c.refs call.key.peerID ≤ 1)
    (hcall' : get c.calls r' = some call') (hphase' : call'.phase = .counting)
    (hconn' : get c.conns call'.key = some r') (hpeer : call'.key.peerID = call.key.peerID) :
    ∃ t, Run Step (fun _ _ => True) c (closedBeforeCounted r r') t ∧ t.Quiet ∧
      t.refs call.key.peerID = 1 ∧ call.key.peerID ∉ t.listenForOfflinePeers ∧
      lastSent t.sent call.key.peerID = some false := by
  have hr : r' ≠ r := by
    rintro rfl
    cases hcall.symm.trans hcall'
    rw [hphase] at hphase'
    cases hphase'
  have hkey : call'.key ≠ call.key := by
    intro hkey
    exact hr (some.inj ((hkey ▸ hconn').symm.trans hconn))
  -- the state after the close
  let d : Client := { (forget
      { c with sent := c.sent ++ [.unsubscribe [call.key.peerID]] } [call.key.peerID]).dropConn
        r call 0 with mu := none }
  have hdcall : get d.calls r' = some call' :=
    (get_set_of_ne hr).trans hcall'
  have hdconn : get d.conns call'.key = some r' :=
    (get_erase_of_ne hkey).trans hconn'
  have hdrefs : d.refs call'.key.peerID = 0 := by
    simp [d, refs, dropConn, hpeer]
  -- and the state in which the new connection is counted
  let call₁ : Call := { call' with phase := .confirming }
  let d₁ : Client := { d with
    peerConnRefs := set d.peerConnRefs call'.key.peerID 1
    calls := set d.calls r' call₁ }
  have hcountRef : Step d (.countRef r') d₁ := by
    have hcount : d.count r' call'.key =
        { d with peerConnRefs := set d.peerConnRefs call'.key.peerID 1 } := by
      rw [Client.count, if_pos hdconn, hdrefs]
    have hstep := Step.countRef (c := d) rfl hdcall hphase'
    rwa [hcount] at hstep
  have hcall₁ : get d₁.calls r' = some call₁ := get_set_self
  refine ⟨_, .go (.closeLast hmu hcall hphase hconn hrefs)
    (.go (.closeWrite rfl hcall) (.go (.closeState rfl hcall)
    (.go (.closeFinish rfl hcall) (.go hcountRef
    (.go (.confirm rfl hcall₁ rfl) .nil))))), ⟨?_, hreader, rfl⟩, ?_, ?_, ?_⟩
  · intro e he
    obtain rfl | ⟨he, hne⟩ := mem_set.mp he
    · exact .inl rfl
    obtain rfl | ⟨he, -⟩ := mem_set.mp he
    · exact absurd rfl hne
    obtain rfl | ⟨he, -⟩ := mem_set.mp he
    · exact .inl hphase
    · exact hothers e he hne
  · simp [refs, setCall, d₁, hpeer]
  · simp [setCall, d₁, d, dropConn, forget]
  · show lastSent (c.sent ++ [.unsubscribe [call.key.peerID]]) call.key.peerID = some false
    rw [lastSent_append]
    simp [about]

/-- **A client with open connections stays subscribed.** Without a call in progress the counts are
right, and under the condition a counted peer is listened for and subscribed. A close that violates
the condition leaves a connection without a subscription. -/
theorem subscribed_while_connected (p : PeerID) :
    (∀ (as : List Label) (c : Client), Run Step (fun _ _ => True) connected as c →
      c.Quiet → c.refs p = c.registered p) ∧
    (∀ (as : List Label) (c : Client), Run Step Undisturbed connected as c →
      c.Quiet → 0 < c.refs p → p ∈ c.listenForOfflinePeers ∧ lastSent c.sent p = some true) ∧
    ∀ (as : List Label) (c : Client) (r r' : ℕ) (call call' : Call),
      Run Step (fun _ _ => True) connected as c → c.mu = none → c.reader = .idle →
      (∀ e ∈ c.calls, e.1 ≠ r' → e.2.phase = .opened ∨ e.2.phase = .failed) →
      get c.calls r = some call → call.key.peerID = p → call.phase = .opened →
      get c.conns call.key = some r → c.refs p ≤ 1 →
      get c.calls r' = some call' → call'.key.peerID = p → call'.phase = .counting →
      get c.conns call'.key = some r' →
      ∃ t, Run Step (fun _ _ => True) c (closedBeforeCounted r r') t ∧ t.Quiet ∧
        t.refs p = 1 ∧ p ∉ t.listenForOfflinePeers ∧ lastSent t.sent p = some false := by
  refine ⟨?_, ?_, ?_⟩
  · intro as c hrun hquiet
    exact (Tallied.of_run hrun).refs_eq_registered hquiet p
  · intro as c hrun hquiet hp
    exact (Subscribed.of_run hrun).of_quiet (.of_run hrun) hquiet hp
  · rintro as c r r' call call' _ hmu hreader hothers hcall rfl hphase hconn hrefs hcall' hpeer
      hphase' hconn'
    exact unsubscribed_of_closedBeforeCounted hmu hreader hothers hcall hphase hconn hrefs hcall'
      hphase' hconn' hpeer

/-- A channel to one peer. -/
def onChannel (channelID : UInt32) : ConnKey := ⟨.ofBytes [1], channelID⟩

/-- Two connections to one peer are opened one after the other, and the first one is closed: the
client stays subscribed. -/
theorem subscribed_after_close : ∃ c, Run Step Undisturbed connected
        [.openConn 0 (onChannel 0), .enterWait 0, .subscribe 0 true, .peersOnline [.ofBytes [1]],
          .waitOnline 0, .countRef 0, .confirm 0, .openConn 1 (onChannel 1), .countRef 1,
          .confirm 1, .closeConn 0] c ∧
      c.refs (.ofBytes [1]) = 1 ∧ .ofBytes [1] ∈ c.listenForOfflinePeers ∧
      lastSent c.sent (.ofBytes [1]) = some true := by
  refine Run.exists_imp (P := fun c => c.Quiet ∧ c.refs (.ofBytes [1]) = 1) ?_ ?_
  · rintro c hrun ⟨hquiet, hrefs⟩
    exact ⟨hrefs, (subscribed_while_connected (.ofBytes [1])).2.1 _ c hrun hquiet
      (by rw [hrefs]; decide)⟩
  · refine ⟨_, .go (.openNew rfl rfl rfl) (.go (.enterWait rfl rfl rfl)
      (.go (.subscribe rfl rfl) (.go (.peersOnline rfl)
      (.go (.waitOnline rfl rfl (by decide)) (.go (.countRef rfl rfl rfl)
      (.go (.confirm rfl rfl rfl) (.go (.openNew rfl rfl rfl)
      (.go (.countRef rfl rfl rfl) (.go (.confirm rfl rfl rfl)
      (.cons ?_ (.closeOne rfl rfl rfl rfl (by decide)) .nil)))))))))), ⟨by decide, rfl, rfl⟩, rfl⟩
    rintro call ⟨⟩ _ hrefs
    exact absurd hrefs (by decide)

/-- An opening on channel 1 finds the peer subscribed, and before it is counted the connection on
channel 0 is closed. -/
theorem returned_without_subscription : ∃ c, Run Step (fun _ _ => True) connected
        [.openConn 0 (onChannel 0), .enterWait 0, .subscribe 0 true, .peersOnline [.ofBytes [1]],
          .waitOnline 0, .countRef 0, .confirm 0, .openConn 1 (onChannel 1), .closeConn 0,
          .holderWrite true, .holderState, .holderFinish, .countRef 1, .confirm 1] c ∧
      c.Quiet ∧ c.refs (.ofBytes [1]) = 1 ∧ .ofBytes [1] ∉ c.listenForOfflinePeers ∧
      lastSent c.sent (.ofBytes [1]) = some false := by
  refine ⟨_, .go (.openNew rfl rfl rfl) (.go (.enterWait rfl rfl rfl)
    (.go (.subscribe rfl rfl) (.go (.peersOnline rfl)
    (.go (.waitOnline rfl rfl (by decide)) (.go (.countRef rfl rfl rfl)
    (.go (.confirm rfl rfl rfl) (.go (.openNew rfl rfl rfl)
    (.go (.closeLast rfl rfl rfl rfl (by decide)) (.go (.closeWrite rfl rfl)
    (.go (.closeState rfl rfl) (.go (.closeFinish rfl rfl)
    (.go (.countRef rfl rfl rfl) (.go (.confirm rfl rfl rfl)
    .nil))))))))))))), ⟨by decide, rfl, rfl⟩, rfl, by decide, rfl⟩

end RelayClient
