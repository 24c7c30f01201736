/-
# Early messages of the relay client

A message of a peer may arrive before its connection is opened.  The read loop looks for the
connection in one section and puts the message into the early buffer in another one;
`OpenConnChannel` registers its connection and takes the message out in one section and writes it to
the connection later.

A message is left in the buffer if the connection is registered between the two sections of the read
loop, and messages change their order if one is written between those of `OpenConnChannel`.
-/
import AnonBird.RelaySubscription

open RelayMessages Transition List
open Relay (ConnKey)
open GoMap hiding get set

namespace RelayClient

open Client.Tallied Call

/-! ## Delivery -/

/-- Messages in the order in which they were received. -/
def InOrder (ms : List Msg) : Prop := ms.Pairwise fun m m' => m.seq < m'.seq

variable (c : Client)

/-- If there is a connection of the key, no message for it is in the early buffer, and those written
to it are in order. -/
def Client.Delivered (key : ConnKey) : Prop :=
  ∀ r, get c.conns key = some r → get c.earlyMsgs key = none ∧
    ∃ call, get c.calls r = some call ∧ InOrder call.written

/-- The early message a call is still to write. -/
def Phase.early : Phase → Option Msg
  | .flushing m _ => some m
  | _ => none

/-- No opening of the key is in progress, and the read loop has no message for it. -/
structure Client.Done (c : Client) (key : ConnKey) : Prop where
  calls : ∀ r call, get c.calls r = some call → call.key = key →
    call.phase = .opened ∨ call.phase = .failed
  reader : ∀ r m, c.reader ≠ .transport key r m

/-- **The condition.** A message that found no connection is put into the buffer while there is
still none, and one that found a connection is written after its early message. -/
def Separate (key : ConnKey) (c : Client) : Label → Prop
  | .deliver =>
    (∀ m, c.reader = .transport key none m → get c.conns key = none) ∧
      ∀ r m call, c.reader = .transport key (some r) m → get c.calls r = some call →
        call.phase.early = none
  | _ => True

/-- No message of the key is lost and no connection of the key ends: there is room, nothing expires,
and the connection is neither closed nor given up. -/
def Lossless (key : ConnKey) (c : Client) : Label → Prop
  | .flush r => ∀ call, get c.calls r = some call → call.messages.length < connChannelSize
  | .deliver =>
    (∀ m, c.reader = .transport key none m →
      (erase c.earlyMsgs key).length < earlyMsgCapacity) ∧
    ∀ r m call, c.reader = .transport key (some r) m → get c.calls r = some call →
      call.messages.length < connChannelSize
  | .expire n => get (c.earlyMsgs.drop n) key = get c.earlyMsgs key
  | .removeConn r => get c.conns key ≠ some r
  | .closeConn r => get c.conns key ≠ some r
  | .holderFinish => ∀ r st call, c.mu = some (.closeConn r st) →
      get c.calls r = some call → call.key ≠ key
  | .offlineClose => ∀ ps, c.reader = .offline ps → key.peerID ∉ ps
  | _ => True

/-! ## What a step does

The steps are looked at once for each part of the state that the delivery depends on: the
calls, the connections, the early buffer and the read loop. -/

theorem send_eq (written : Bool) (m : StateMsg) :
    c.send written m = { c with sent := (c.send written m).sent } := by
  unfold Client.send
  split <;> rfl

theorem stopWaiting_eq (r : ℕ) (p : PeerID) : c.stopWaiting r p = { c with
      waitingPeers := (c.stopWaiting r p).waitingPeers
      listenForOfflinePeers := (c.stopWaiting r p).listenForOfflinePeers
      cancelled := (c.stopWaiting r p).cancelled } := by
  unfold Client.stopWaiting
  split <;> rfl

theorem removeConn_eq (r : ℕ) (key : ConnKey) :
    c.removeConn r key = { c with conns := (c.removeConn r key).conns } := by
  unfold Client.removeConn
  split <;> rfl

theorem count_eq (r : ℕ) (key : ConnKey) :
    c.count r key = { c with peerConnRefs := (c.count r key).peerConnRefs } := by
  unfold Client.count
  split <;> rfl

/-- What a step does to a call. -/
inductive Traced (c c' : Client) (r : ℕ) : Label → Option Call → Option Call → Prop
  | same {a o} : Traced c c' r a o o
  | new (call : Call) (hwritten : call.written = []) (hclosed : call.closed = false)
      (hearly : ∀ m, call.phase.early = some m → get c.earlyMsgs call.key = some m) :
      Traced c c' r (.openConn r call.key) none (some call)
  | stay {a call call'} (hkey : call'.key = call.key) (hwritten : call'.written = call.written)
      (hearly : call'.phase.early = call.phase.early)
      (hclosed : call'.closed = call.closed ∨ get c'.conns call.key ≠ some r) :
      Traced c c' r a (some call) (some call')
  | flush {call m ph} (hearly : call.phase.early = some m) (hearly' : ph.early = none) :
      Traced c c' r (.flush r) (some call) (some { call.writeMsg m with phase := ph })
  | write {key call m} (hreader : c.reader = .transport key (some r) m) :
      Traced c c' r .deliver (some call) (some (call.writeMsg m))

variable {c c' : Client} {a : Label} {r₀ : ℕ}

/-- Only one call moves. -/
theorem Traced.of_set {o : Option Call} (call' : Call)
    (hcalls : c'.calls = set c.calls r₀ call') (hcall : get c.calls r₀ = o)
    (h : Traced c c' r₀ a o (some call')) (r : ℕ) :
    Traced c c' r a (get c.calls r) (get c'.calls r) := by
  rw [hcalls, get_set]
  split
  next hr =>
    rw [hr, hcall]
    exact h
  · exact .same

/-- A call without an early message moves on. -/
theorem Traced.of_phase {call : Call} {ph ph₀ : Phase}
    (hcall : get c.calls r₀ = some call) (hphase : call.phase = ph₀) (r : ℕ)
    (hcalls : c'.calls = set c.calls r₀ { call with phase := ph } := by rfl)
    (hph : ph.early = none := by rfl) (hearly : ph₀.early = none := by rfl) :
    Traced c c' r a (get c.calls r) (get c'.calls r) :=
  .of_set _ hcalls hcall (.stay rfl rfl (by rw [hph, hphase, hearly]) (.inl rfl)) r

open Client

/-- A call begins with the early message of its key. -/
theorem early_firstPhase (c : Client) (key : ConnKey) :
    (c.firstPhase key).early = get c.earlyMsgs key := by
  unfold firstPhase
  split
  next m hm =>
    rw [hm]
    rfl
  next hm =>
    rw [hm]
    unfold afterRegistration
    split <;> rfl

/-- **What a step does to the calls.** -/
theorem Step.traced (hstep : Step c a c') (howned : c.Owned) (r : ℕ) :
    Traced c c' r a (get c.calls r) (get c'.calls r) := by
  cases hstep with
  | @openExisting r₀ r' key hmu hnew hconn =>
    exact .of_set ⟨key, .failed, [], [], false⟩ rfl hnew (.new _ rfl rfl fun m hm => by cases hm) r
  | @openNew r₀ key hmu hnew hconn =>
    exact .of_set ⟨key, c.firstPhase key, [], [], false⟩ rfl hnew (.new _ rfl rfl fun m hm =>
      (early_firstPhase c key).symm.trans hm) r
  | @flush r₀ call m subscribed hcall hphase =>
    refine .of_set _ rfl hcall (.flush (by rw [hphase]; rfl) ?_) r
    cases subscribed <;> rfl
  | alreadyWaiting hcall hphase hwait | enterWait hcall hphase hwait
  | waitOnline hcall hphase hch | waitCancelled hcall hphase hch hclosed
  | waitTimeout hcall hphase | confirm hmu hcall hphase => exact .of_phase hcall hphase r
  | @subscribe r₀ call written hcall hphase =>
    rw [send_eq]
    exact .of_phase hcall hphase r rfl (by split <;> rfl)
  | unsubscribe hcall hphase =>
    rw [send_eq]
    exact .of_phase hcall hphase r
  | stopWaiting hcall hphase =>
    rw [stopWaiting_eq]
    exact hphase.elim (.of_phase hcall · r) (.of_phase hcall · r)
  | removeConn hmu hcall hphase =>
    rw [removeConn_eq]
    exact .of_phase hcall hphase r
  | @closeContainer r₀ call hcall hphase =>
    refine .of_set { call.close with phase := .failed } rfl hcall
      (.stay rfl rfl (by rw [hphase]; rfl) (.inr fun hconn => ?_)) r
    exact (howned.call hconn hcall).2.1 hphase
  | countRef hmu hcall hphase =>
    rw [count_eq]
    exact .of_phase hcall hphase r
  | @closeOne r₀ call hmu hcall hphase hconn hrefs | @closeFinish r₀ call hmu hcall =>
    exact .of_set call.close rfl hcall (.stay rfl rfl rfl (.inr (by simp [Client.dropConn]))) r
  | @closeWrite r₀ call written hmu hcall | offlineWrite hmu =>
    rw [send_eq]
    exact .same
  | deliverWrite hreader hcall => exact .of_set _ rfl hcall (.write hreader) r
  | @offlineClose ps hmu hreader =>
    rw [calls_closeConnsOf]
    cases get c.calls r with
    | none => exact .same
    | some call =>
      rw [Option.map_some]
      split
      next hgone =>
        refine .stay rfl rfl rfl (.inr ?_)
        rw [get_conns_closeConnsOf, if_pos hgone.1]
        simp
      · exact .same
  | @read r₀ call m rest hcall hmsgs =>
    exact .of_set { call with messages := rest } rfl hcall (.stay rfl rfl rfl (.inl rfl)) r
  | _ => exact .same

variable {k : ConnKey} {r : ℕ}

/-- A connection was there, or is opened now. -/
theorem Step.conn (hstep : Step c a c') (hconn' : get c'.conns k = some r) :
    get c.conns k = some r ∨ a = .openConn r k ∧ get c.calls r = none ∧
      get c'.earlyMsgs k = none := by
  cases hstep with
  | @openNew r₀ key hmu hnew hconn =>
    by_cases hk : k = key
    · subst hk
      cases get_set_self.symm.trans hconn'
      exact .inr ⟨rfl, hnew, get_erase_self⟩
    · exact .inl ((get_set_of_ne hk).symm.trans hconn')
  | @removeConn r₀ call hmu hcall hphase =>
    unfold Client.removeConn at hconn'
    split at hconn'
    · exact .inl (get_of_get_erase hconn').2
    · exact .inl hconn'
  | closeOne hmu hcall hphase hconn hrefs | closeFinish hmu hcall =>
    exact .inl (get_of_get_erase hconn').2
  | @offlineClose ps hmu hreader =>
    exact .inl (get_of_get_closeConnsOf hconn').2
  | subscribe | unsubscribe | closeWrite | offlineWrite | stopWaiting | countRef =>
    first | rw [send_eq] at hconn' | rw [stopWaiting_eq] at hconn' | rw [count_eq] at hconn'
    exact .inl hconn'
  | _ => exact .inl hconn'

variable {key : ConnKey}

/-- Without a loss connections stay. -/
theorem Step.keeps_conn (hstep : Step c a c') (hl : Lossless key c a)
    (hconn : get c.conns key = some r) : get c'.conns key = some r := by
  cases hstep with
  | @openNew r₀ k hmu hnew hnone =>
    have hk : key ≠ k := by
      rintro rfl
      rw [hnone] at hconn
      cases hconn
    exact (get_set_of_ne hk).trans hconn
  | @removeConn r₀ call hmu hcall hphase =>
    unfold Client.removeConn
    split
    next hown =>
      have hk : key ≠ call.key := fun hk => hl (hk ▸ hown)
      exact (get_erase_of_ne hk).trans hconn
    · exact hconn
  | @closeOne r₀ call hmu hcall hphase hown hrefs =>
    have hk : key ≠ call.key := fun hk => hl (hk ▸ hown)
    exact (get_erase_of_ne hk).trans hconn
  | closeFinish hmu hcall =>
    exact (get_erase_of_ne (hl _ _ _ hmu hcall).symm).trans hconn
  | @offlineClose ps hmu hreader =>
    rw [get_conns_closeConnsOf, if_neg (hl ps hreader), hconn]
  | subscribe | unsubscribe | closeWrite | offlineWrite | stopWaiting | countRef =>
    first | rw [send_eq] | rw [stopWaiting_eq] | rw [count_eq]
    exact hconn
  | _ => exact hconn

/-- What a step does to the early message of a key. -/
inductive Buffered (c : Client) (key : ConnKey) : Label → Option Msg → Prop
  | same {a : Label} : Buffered c key a (get c.earlyMsgs key)
  | pop {r : ℕ} (hconn : get c.conns key = none) : Buffered c key (.openConn r key) none
  | put {m} (hreader : c.reader = .transport key none m) :
      Buffered c key .deliver (get (putKey c.earlyMsgs key m) key)
  | expire {n} : Buffered c key (.expire n) (get (c.earlyMsgs.drop n) key)

theorem get_putKey_of_ne (earlyMsgs : List (ConnKey × Msg)) (m : Msg) (hk : k ≠ key) :
    get (putKey earlyMsgs key m) k = get earlyMsgs k := by
  rw [← get_erase_of_ne (m := earlyMsgs) hk]
  unfold putKey
  dsimp only
  split
  · rfl
  · simp [get, hk.symm]

variable {earlyMsgs : List (ConnKey × Msg)}

theorem get_putKey_self (m : Msg) (hroom : (erase earlyMsgs key).length < earlyMsgCapacity) :
    get (putKey earlyMsgs key m) key = some m := by
  have hnone : (erase earlyMsgs key).find? (fun e => e.1 = key) = none := by
    simp [erase]
  unfold putKey
  rw [if_neg (Nat.not_le.mpr hroom)]
  simp [get, hnone]

/-- What a step does to the early message of a key. -/
theorem Step.buffered (hstep : Step c a c') (key : ConnKey) :
    Buffered c key a (get c'.earlyMsgs key) := by
  cases hstep with
  | @openNew r₀ k hmu hnew hconn =>
    show Buffered c key _ (get (erase c.earlyMsgs k) key)
    by_cases hk : key = k
    · subst hk
      rw [get_erase_self]
      exact .pop hconn
    · rw [get_erase_of_ne hk]
      exact .same
  | @deliverEarly k m hreader =>
    by_cases hk : key = k
    · subst hk
      exact .put hreader
    · rw [get_putKey_of_ne _ _ hk]
      exact .same
  | expire => exact .expire
  | subscribe | unsubscribe | closeWrite | offlineWrite | stopWaiting | removeConn | countRef =>
    first | rw [send_eq] | rw [stopWaiting_eq] | rw [removeConn_eq] | rw [count_eq]
    exact .same
  | _ => exact .same

variable {m : Msg} {e : ConnKey × Msg}

theorem mem_of_mem_putKey (he : e ∈ putKey earlyMsgs key m) : e ∈ earlyMsgs ∨ e = (key, m) := by
  unfold putKey at he
  dsimp only at he
  split at he
  · exact .inl (mem_of_mem_filter he)
  · obtain he | he := mem_append.mp he
    · exact .inl (mem_of_mem_filter he)
    · exact .inr (mem_singleton.mp he)

/-- The messages in the early buffer were there, or the read loop has put them there. -/
theorem Step.mem_early (hstep : Step c a c') (he : e ∈ c'.earlyMsgs) :
    e ∈ c.earlyMsgs ∨ a = .deliver ∧ c.reader = .transport e.1 none e.2 := by
  cases hstep with
  | openNew hmu hnew hconn => exact .inl (mem_of_mem_filter he)
  | deliverEarly hreader =>
    obtain he | rfl := mem_of_mem_putKey he
    · exact .inl he
    · exact .inr ⟨rfl, hreader⟩
  | expire => exact .inl (mem_of_mem_drop he)
  | subscribe | unsubscribe | closeWrite | offlineWrite | stopWaiting | removeConn | countRef =>
    first
    | rw [send_eq] at he | rw [stopWaiting_eq] at he
    | rw [removeConn_eq] at he | rw [count_eq] at he
    exact .inl he
  | _ => exact .inl he

/-- What a step does to the read loop. -/
inductive Reads (c : Client) : Label → Reader → ℕ → Prop
  | same {a : Label} (ha : a ≠ .deliver) : Reads c a c.reader c.received
  | arrive {key : ConnKey} {payload} :
      Reads c (.arrive key payload)
        (.transport key (get c.conns key) ⟨c.received, payload⟩) (c.received + 1)
  | free {a : Label} {reader} (hfree : ∀ k r m, reader ≠ .transport k r m) :
      Reads c a reader c.received

/-- What a step does to the reader. -/
theorem Step.reads (hstep : Step c a c') : Reads c a c'.reader c'.received := by
  cases hstep with
  | arrive hmu hreader => exact .arrive
  | deliverWrite hreader hcall | deliverEarly hreader | offlineState hmu => exact .free (by simp)
  | peersWentOffline hreader =>
    refine .free fun k r m => ?_
    split <;> simp
  | subscribe | unsubscribe | closeWrite | offlineWrite | stopWaiting | removeConn | countRef =>
    first | rw [send_eq] | rw [stopWaiting_eq] | rw [removeConn_eq] | rw [count_eq]
    exact .same (by simp)
  | _ => exact .same (by simp)

/-! ## Sequence numbers

A message was received before those that come later; the message the read loop is about to
deliver is the last one so far. -/

/-- The message was received before the one of the read loop. -/
def Client.Before (c : Client) (m : Msg) : Prop :=
  m.seq < c.received ∧ ∀ k r m', c.reader = .transport k r m' → m.seq < m'.seq

/-- Later messages stay later. -/
theorem Client.Before.step (h : c.Before m) (hstep : Step c a c') : c'.Before m := by
  have hreads := hstep.reads
  unfold Before
  generalize c'.reader = reader, c'.received = received at hreads
  cases hreads with
  | same ha => exact h
  | arrive =>
    refine ⟨Nat.lt_succ_of_lt h.1, ?_⟩
    rintro k r m' ⟨⟩
    exact h.1
  | free hfree => exact ⟨h.1, fun k r m' hreader => absurd hreader (hfree k r m')⟩

/-- The state of the messages in every run. -/
structure Client.Sequenced (c : Client) : Prop where
  /-- The read loop has the last message. -/
  arrived : ∀ k r m, c.reader = .transport k r m → m.seq < c.received
  /-- The container that was found has the key of the message. -/
  found : ∀ k r m, c.reader = .transport k (some r) m →
    ∃ call, get c.calls r = some call ∧ call.key = k
  written : ∀ r call, get c.calls r = some call → ∀ m ∈ call.written, c.Before m
  pending : ∀ r call, get c.calls r = some call →
    ∀ m, call.phase.early = some m → c.Before m
  early : ∀ e ∈ c.earlyMsgs, c.Before e.2
  /-- The container of a registered connection is not closed. -/
  isOpen : ∀ k r call, get c.conns k = some r → get c.calls r = some call →
    call.closed = false

theorem Client.Sequenced.before_of_deliver (h : c.Sequenced) (hstep : Step c .deliver c')
    {r : Option ℕ} (hreader : c.reader = .transport k r m) : c'.Before m := by
  have hreads := hstep.reads
  unfold Before
  generalize c'.reader = reader, c'.received = received at hreads
  cases hreads with
  | same ha => exact absurd rfl ha
  | free hfree => exact ⟨h.arrived k r m hreader, fun k' r' m' hr => absurd hr (hfree k' r' m')⟩

theorem Call.writeMsg_closed (cc : Call) (m : Msg) : (cc.writeMsg m).closed = cc.closed := by
  unfold writeMsg
  split
  · rfl
  · split <;> rfl

/-- A message is written or dropped. -/
theorem Call.writeMsg_written (cc : Call) (m : Msg) :
    (cc.writeMsg m).written = cc.written ∨ (cc.writeMsg m).written = cc.written ++ [m] := by
  unfold writeMsg
  split
  · exact .inl rfl
  · split
    · exact .inr rfl
    · exact .inl rfl

variable {cc : Call} {m' : Msg}

theorem Call.mem_written_writeMsg (hm : m' ∈ (cc.writeMsg m).written) :
    m' ∈ cc.written ∨ m' = m := by
  obtain hw | hw := cc.writeMsg_written m
  · exact .inl (hw ▸ hm)
  · rw [hw] at hm
    simpa using hm

/-- Calls stay, with their keys. -/
theorem Step.keeps_call (hstep : Step c a c') (howned : c.Owned) {call : Call}
    (hcall : get c.calls r = some call) :
    ∃ call', get c'.calls r = some call' ∧ call'.key = call.key := by
  have htraced := hstep.traced howned r
  rw [hcall] at htraced
  generalize get c'.calls r = o at htraced
  cases htraced with
  | same => exact ⟨call, rfl, rfl⟩
  | stay hkey => exact ⟨_, rfl, hkey⟩
  | flush | write => exact ⟨_, rfl, call.writeMsg_key _⟩

/-- **The step lemma** for the sequence numbers. -/
theorem Client.Sequenced.step (h : c.Sequenced) (howned : c.Owned) (hstep : Step c a c') :
    c'.Sequenced := by
  refine ⟨?_, ?_, ?_, ?_, ?_, ?_⟩
  · intro k r m hreader
    have hreads := hstep.reads
    generalize c'.reader = reader, c'.received = received at hreads hreader
    cases hreads with
    | same => exact h.arrived k r m hreader
    | arrive =>
      cases hreader
      exact Nat.lt_succ_self _
    | free hfree => exact absurd hreader (hfree k r m)
  · intro k r m hreader
    have hreads := hstep.reads
    generalize c'.reader = reader, c'.received = received at hreads hreader
    obtain ⟨call, hcall, hkey⟩ : ∃ call, get c.calls r = some call ∧ call.key = k := by
      cases hreads with
      | same => exact h.found k r m hreader
      | arrive =>
        obtain ⟨rfl, hconn, -⟩ := Reader.transport.inj hreader
        obtain ⟨call, hcall, hkey, -⟩ := howned.owner _ r hconn
        exact ⟨call, hcall, hkey⟩
      | free hfree => exact absurd hreader (hfree k (some r) m)
    obtain ⟨call', hcall', hkey'⟩ := hstep.keeps_call howned hcall
    exact ⟨call', hcall', hkey'.trans hkey⟩
  · intro r call' hcall' m hm
    have htraced := hstep.traced howned r
    rw [hcall'] at htraced
    generalize hcall : get c.calls r = o at htraced
    cases htraced with
    | same => exact (h.written r call' hcall m hm).step hstep
    | new _ hwritten =>
      rw [hwritten] at hm
      cases hm
    | stay hkey hwritten =>
      exact (h.written r _ hcall m (hwritten ▸ hm)).step hstep
    | flush hearly hearly' =>
      obtain hm | rfl := mem_written_writeMsg hm
      · exact (h.written r _ hcall m hm).step hstep
      · exact (h.pending r _ hcall m hearly).step hstep
    | write hreader =>
      obtain hm | rfl := mem_written_writeMsg hm
      · exact (h.written r _ hcall m hm).step hstep
      · exact h.before_of_deliver hstep hreader
  · intro r call' hcall' m hm
    have htraced := hstep.traced howned r
    rw [hcall'] at htraced
    generalize hcall : get c.calls r = o at htraced
    cases htraced with
    | same => exact (h.pending r call' hcall m hm).step hstep
    | new _ _ _ hearly => exact (h.early _ (mem_of_get (hearly m hm))).step hstep
    | stay hkey hwritten hearly => exact (h.pending r _ hcall m (hearly ▸ hm)).step hstep
    | flush hearly hearly' =>
      rw [show _ = none from hearly'] at hm
      cases hm
    | @write key call m' hreader =>
      rw [call.writeMsg_phase m'] at hm
      exact (h.pending r _ hcall m hm).step hstep
  · intro e he
    obtain he | ⟨rfl, hreader⟩ := hstep.mem_early he
    · exact (h.early e he).step hstep
    · exact h.before_of_deliver hstep hreader
  · intro k r call' hconn' hcall'
    have htraced := hstep.traced howned r
    rw [hcall'] at htraced
    obtain hconn | ⟨rfl, hnew, -⟩ := hstep.conn hconn'
    · obtain ⟨call, hcall, rfl, -⟩ := howned.owner k r hconn
      have hclosed := h.isOpen call.key r call hconn hcall
      rw [hcall] at htraced
      cases htraced with
      | same => exact hclosed
      | stay _ _ _ hkept => exact (hkept.resolve_right fun hgone => hgone hconn').trans hclosed
      | flush | write => exact (call.writeMsg_closed _).trans hclosed
    · rw [hnew] at htraced
      cases htraced with
      | new _ _ hclosed => exact hclosed

/-! ## Under the condition -/

/-- The connection of a key has all its messages in order. -/
def Client.Ordered (c : Client) (key : ConnKey) : Prop :=
  ∀ r call, get c.conns key = some r → get c.calls r = some call →
    get c.earlyMsgs key = none ∧ InOrder call.written ∧
      ∀ m, call.phase.early = some m → call.written = []

/-- A later message keeps the order. -/
theorem InOrder.writeMsg (h : InOrder cc.written) (hm : ∀ m' ∈ cc.written, m'.seq < m.seq) :
    InOrder (cc.writeMsg m).written := by
  obtain hw | hw := cc.writeMsg_written m
  · rw [hw]
    exact h
  · rw [hw]
    exact pairwise_append.mpr ⟨h, pairwise_singleton _ _, by simpa using hm⟩

/-- **The step lemma**: under the condition the messages stay in order. -/
theorem Client.Ordered.step (h : c.Ordered key) (hseq : c.Sequenced) (howned : c.Owned)
    (hok : Separate key c a) (hstep : Step c a c') : c'.Ordered key := by
  intro r call' hconn' hcall'
  have htraced := hstep.traced howned r
  rw [hcall'] at htraced
  obtain hconn | ⟨rfl, hnew, hpopped⟩ := hstep.conn hconn'
  · obtain ⟨call, hcall, hkey, -⟩ := howned.owner key r hconn
    obtain ⟨hnone, horder, hpending⟩ := h r call hconn hcall
    refine ⟨?_, ?_⟩
    · have hbuffered := hstep.buffered key
      generalize get c'.earlyMsgs key = o at hbuffered
      cases hbuffered with
      | same => exact hnone
      | pop => rfl
      | put hreader =>
        rw [hok.1 _ hreader] at hconn
        cases hconn
      | expire => exact get_drop_of_none hnone _
    · rw [hcall] at htraced
      cases htraced with
      | same => exact ⟨horder, hpending⟩
      | stay _ hwritten hearly =>
        rw [hwritten, hearly]
        exact ⟨horder, hpending⟩
      | @flush _ m ph hearly hearly' =>
        refine ⟨horder.writeMsg fun m' hm' => ?_, fun m' hm' => ?_⟩
        · rw [hpending m hearly] at hm'
          cases hm'
        · cases hearly'.symm.trans hm'
      | @write k _ m hreader =>
        obtain ⟨call₀, hcall₀, rfl⟩ := hseq.found k r m hreader
        obtain rfl := Option.some.inj (hcall₀.symm.trans hcall)
        have hflushed := hok.2 r m call₀ (hkey ▸ hreader) hcall
        refine ⟨horder.writeMsg fun m' hm' => ?_, fun m' hm' => ?_⟩
        · exact (hseq.written r call₀ hcall m' hm').2 _ _ m hreader
        · rw [call₀.writeMsg_phase m, hflushed] at hm'
          cases hm'
  · rw [hnew] at htraced
    cases htraced with
    | new _ hwritten =>
      rw [hwritten]
      exact ⟨hpopped, List.Pairwise.nil, fun _ _ => rfl⟩

/-! ## Without the condition -/

/-- A message of the key stays in the buffer, or the messages of its connection are out of order
or will be. -/
def Client.Spoiled (c : Client) (key : ConnKey) : Prop :=
  ∃ r call, get c.conns key = some r ∧ get c.calls r = some call ∧
    ((∃ m, get c.earlyMsgs key = some m) ∨ ¬ InOrder call.written ∨
      ∃ m, call.phase.early = some m ∧ ∃ m' ∈ call.written, m.seq ≤ m'.seq)

/-- The order is not repaired. -/
theorem not_inOrder_writeMsg (h : ¬ InOrder cc.written) (m : Msg) :
    ¬ InOrder (cc.writeMsg m).written := by
  intro horder
  obtain hw | hw := cc.writeMsg_written m
  · exact h (hw ▸ horder)
  · rw [hw] at horder
    exact h (pairwise_append.mp horder).1

/-- With room a message is written. -/
theorem Call.writeMsg_of_room (hclosed : cc.closed = false)
    (hroom : cc.messages.length < connChannelSize) (m : Msg) :
    (cc.writeMsg m).written = cc.written ++ [m] := by
  unfold writeMsg
  rw [hclosed, if_pos hroom]
  rfl

theorem Call.mem_writeMsg_of_mem (hm : m' ∈ cc.written) :
    m' ∈ (cc.writeMsg m).written := by
  obtain hw | hw := cc.writeMsg_written m
  · exact hw ▸ hm
  · rw [hw]
    exact mem_append_left _ hm

/-- Without losses what is spoiled stays so. -/
theorem Client.Spoiled.step (h : c.Spoiled key) (hseq : c.Sequenced) (howned : c.Owned)
    (hl : Lossless key c a) (hstep : Step c a c') : c'.Spoiled key := by
  obtain ⟨r, call, hconn, hcall, hbad⟩ := h
  have hconn' := hstep.keeps_conn hl hconn
  obtain ⟨m, hm⟩ | hbad := hbad
  · -- the early message is left, or another one takes its place
    obtain ⟨call', hcall', -⟩ := hstep.keeps_call howned hcall
    refine ⟨r, call', hconn', hcall', .inl ?_⟩
    have hbuffered := hstep.buffered key
    generalize get c'.earlyMsgs key = o at hbuffered
    cases hbuffered with
    | same => exact ⟨m, hm⟩
    | pop hnone =>
      rw [hnone] at hconn
      cases hconn
    | @put m' hreader => exact ⟨m', get_putKey_self m' (hl.1 m' hreader)⟩
    | expire => exact ⟨m, hl.trans hm⟩
  · have htraced := hstep.traced howned r
    rw [hcall] at htraced
    generalize hcall' : get c'.calls r = o at htraced
    cases htraced with
    | same => exact ⟨r, call, hconn', hcall', .inr hbad⟩
    | @stay _ _ call' _ hwritten hearly =>
      refine ⟨r, call', hconn', hcall', .inr ?_⟩
      rw [hwritten, hearly]
      exact hbad
    | @flush _ m ph hearly =>
      refine ⟨r, _, hconn', hcall', .inr (.inl ?_)⟩
      obtain hbad | ⟨m₀, hm₀, m', hm', hle⟩ := hbad
      · exact not_inOrder_writeMsg hbad m
      · cases hearly.symm.trans hm₀
        -- the early message comes after a later one
        intro horder
        rw [writeMsg_of_room (hseq.isOpen key r call hconn hcall) (hl call hcall)] at horder
        have hlt := (pairwise_append.mp horder).2.2 m' hm' m (mem_singleton_self m)
        omega
    | @write k _ m hreader =>
      refine ⟨r, _, hconn', hcall', .inr ?_⟩
      obtain hbad | ⟨m₀, hm₀, m', hm', hle⟩ := hbad
      · exact .inl (not_inOrder_writeMsg hbad m)
      · exact .inr ⟨m₀, by rw [call.writeMsg_phase m, hm₀], m', mem_writeMsg_of_mem hm', hle⟩

/-- The connection that was found for a message is the one that is registered. -/
def Client.Attached (c : Client) (key : ConnKey) : Prop :=
  ∀ r m, c.reader = .transport key (some r) m → get c.conns key = some r

/-- Without a loss a connection stays attached. -/
theorem Client.Attached.step (h : c.Attached key) (hl : Lossless key c a) (hstep : Step c a c') :
    c'.Attached key := by
  intro r m hreader
  refine hstep.keeps_conn hl ?_
  have hreads := hstep.reads
  generalize c'.reader = reader, c'.received = received at hreads hreader
  cases hreads with
  | same => exact h r m hreader
  | arrive =>
    obtain ⟨rfl, hconn, -⟩ := Reader.transport.inj hreader
    exact hconn
  | free hfree => exact absurd hreader (hfree key (some r) m)

/-- A step without losses that violates the condition spoils the connection. -/
theorem spoiled_of_not_separate (hseq : c.Sequenced) (howned : c.Owned)
    (hattached : c.Attached key) (hl : Lossless key c a) (hnot : ¬ Separate key c a)
    (hstep : Step c a c') : c'.Spoiled key := by
  cases hstep with
  | @deliverEarly k m hreader =>
    have hviolated : k = key ∧ get c.conns key ≠ none := by
      by_contra hok
      refine hnot ⟨fun m' hm' => ?_, fun r m' call hm' _ => ?_⟩
      · obtain ⟨rfl, -⟩ := Reader.transport.inj (hreader.symm.trans hm')
        by_contra hconn
        exact hok ⟨rfl, hconn⟩
      · cases hreader.symm.trans hm'
    obtain ⟨rfl, hconn⟩ := hviolated
    obtain ⟨r, hr⟩ := Option.ne_none_iff_exists'.mp hconn
    obtain ⟨call, hcall, -⟩ := howned.owner k r hr
    exact ⟨r, call, hr, hcall, .inl ⟨m, get_putKey_self m (hl.1 m hreader)⟩⟩
  | @deliverWrite k r m call hreader hcall =>
    have hviolated : k = key ∧ ∃ m₀, call.phase.early = some m₀ := by
      by_contra hok
      refine hnot ⟨fun m' hm' => ?_, fun r' m' call' hm' hcall' => ?_⟩
      · cases hreader.symm.trans hm'
      · obtain ⟨rfl, hr, -⟩ := Reader.transport.inj (hreader.symm.trans hm')
        cases hr
        cases hcall.symm.trans hcall'
        by_contra hearly
        exact hok ⟨rfl, Option.ne_none_iff_exists'.mp hearly⟩
    obtain ⟨rfl, m₀, hm₀⟩ := hviolated
    have hconn := hattached r m hreader
    have hwritten := writeMsg_of_room (hseq.isOpen k r call hconn hcall)
      (hl.2 r m call hreader hcall) m
    refine ⟨r, call.writeMsg m, hconn, get_set_self, .inr (.inr ⟨m₀, ?_, m, ?_, ?_⟩)⟩
    · rw [call.writeMsg_phase m, hm₀]
    · rw [hwritten]
      exact mem_append_right _ (mem_singleton_self m)
    · exact ((hseq.pending r call hcall m₀ hm₀).2 _ _ m hreader).le
  | _ => exact absurd trivial hnot

/-! ## Runs -/

variable {as : List Label}

/-- Messages are numbered along every run. -/
theorem Client.Sequenced.of_run {ok : Client → Label → Prop}
    (hrun : Run Step ok connected as c) : c.Sequenced := by
  refine (hrun.invariant (P := fun _ c => c.Tallied ∧ c.Sequenced) ?_ ?_).2
  · refine ⟨.of_run (.nil : Run Step ok connected [] connected), ?_⟩
    exact ⟨by rintro k r m ⟨⟩, by rintro k r m ⟨⟩, by rintro r call ⟨⟩, by rintro r call ⟨⟩,
      by rintro e ⟨⟩, by rintro k r call ⟨⟩⟩
  · rintro _ c a c' ⟨ht, h⟩ _ hstep
    exact ⟨ht.step hstep, h.step ht.toOwned hstep⟩

/-- Along a run that keeps the condition everything is delivered. -/
theorem Client.Delivered.of_run (hrun : Run Step (Separate key) connected as c) :
    c.Delivered key := by
  have hordered : c.Ordered key := by
    refine (hrun.invariant (P := fun as c => Run Step (Separate key) connected as c ∧
      c.Ordered key) ⟨.nil, by rintro r call ⟨⟩⟩ ?_).2
    rintro _ c a c' ⟨hrun, h⟩ hok hstep
    exact ⟨.snoc hrun hok hstep,
      h.step (.of_run hrun) (Tallied.of_run hrun).toOwned hok hstep⟩
  intro r hconn
  obtain ⟨call, hcall, -⟩ := (Tallied.of_run hrun).owner key r hconn
  obtain ⟨hnone, horder, -⟩ := hordered r call hconn hcall
  exact ⟨hnone, call, hcall, horder⟩

/-- A run without losses meets the condition or is spoiled. -/
theorem separate_or_spoiled (hrun : Run Step (Lossless key) connected as c) :
    Run Step (fun c a => Lossless key c a ∧ Separate key c a) connected as c ∨ c.Spoiled key := by
  refine (hrun.invariant (P := fun as c => Run Step (Lossless key) connected as c ∧ c.Attached key ∧
    (Run Step (fun c a => Lossless key c a ∧ Separate key c a) connected as c ∨
      c.Spoiled key)) ⟨.nil, by rintro r m ⟨⟩, .inl .nil⟩ ?_).2.2
  rintro _ c a c' ⟨hrun, hattached, h⟩ hl hstep
  have hseq : c.Sequenced := .of_run hrun
  have howned := (of_run hrun).toOwned
  refine ⟨.snoc hrun hl hstep, hattached.step hl hstep, ?_⟩
  obtain h | h := h
  · by_cases hok : Separate key c a
    · exact .inl (.snoc h ⟨hl, hok⟩ hstep)
    · exact .inr (spoiled_of_not_separate hseq howned hattached hl hok hstep)
  · exact .inr (h.step hseq howned hl hstep)

/-- What is spoiled is not delivered. -/
theorem Client.Spoiled.not_delivered (h : c.Spoiled key) (howned : c.Owned) (hdone : c.Done key) :
    ¬ c.Delivered key := by
  intro hdelivered
  obtain ⟨r, call, hconn, hcall, hbad⟩ := h
  obtain ⟨hnone, call', hcall', horder⟩ := hdelivered r hconn
  cases hcall.symm.trans hcall'
  obtain ⟨m, hm⟩ | hbad | ⟨m, hm, -⟩ := hbad
  · rw [hnone] at hm
    cases hm
  · exact hbad horder
  · obtain hphase | hphase := hdone.calls r call hcall (howned.call hconn hcall).1
    all_goals
      rw [hphase] at hm
      cases hm

/-- **Early messages are delivered** in every run under the condition. In a run without losses, once
no opening of the key is in progress and the read loop has no message for it, this is so only under
the condition. -/
theorem early_messages_delivered (key : ConnKey) :
    (∀ (as : List Label) (c : Client), Run Step (Separate key) connected as c → c.Delivered key) ∧
    ∀ (as : List Label) (c : Client), Run Step (Lossless key) connected as c →
      c.Done key → (c.Delivered key ↔
        Run Step (fun c a => Lossless key c a ∧ Separate key c a) connected as c) := by
  refine ⟨fun as c hrun => .of_run hrun, fun as c hrun hdone => ⟨fun hdelivered => ?_, ?_⟩⟩
  · refine (separate_or_spoiled hrun).resolve_right fun hspoiled => ?_
    exact hspoiled.not_delivered (of_run hrun).toOwned hdone hdelivered
  · intro hboth
    exact .of_run (hboth.mono fun c a h => h.2)

/-- A message arrives before the connection is opened and another one after the first has been
written: both are delivered. -/
theorem early_message_delivered_first : ∃ c, Run Step (Separate (onChannel 0)) connected
        [.arrive (onChannel 0) [7], .deliver, .openConn 0 (onChannel 0), .flush 0,
          .arrive (onChannel 0) [8], .deliver] c ∧
      (get c.calls 0).map written = some [⟨0, [7]⟩, ⟨1, [8]⟩] ∧ c.Delivered (onChannel 0) := by
  refine Run.exists_imp
    (P := fun c => (get c.calls 0).map written = some [⟨0, [7]⟩, ⟨1, [8]⟩]) ?_ ?_
  · intro c hrun hwritten
    exact ⟨hwritten, (early_messages_delivered (onChannel 0)).1 _ c hrun⟩
  · refine ⟨_, .go (.arrive rfl rfl)
      (.cons ⟨fun m _ => rfl, fun r m call hreader => by cases hreader⟩ (.deliverEarly rfl)
      (.go (.openNew rfl rfl rfl) (.go (.flush rfl rfl)
      (.go (.arrive rfl rfl)
      (.cons ⟨fun m hreader => (by cases hreader), ?_⟩ (.deliverWrite rfl rfl) .nil))))), rfl⟩
    rintro r m call ⟨⟩ ⟨⟩
    rfl

/-- The connection is registered between the two sections of the read loop: the message stays in the
buffer. One is written between those of the opening: the early message comes after it. -/
theorem early_messages_stranded_and_reordered : (∃ c, Run Step (Lossless (onChannel 0)) connected
        [.arrive (onChannel 0) [7], .openConn 0 (onChannel 0), .deliver, .enterWait 0,
          .subscribe 0 true, .peersOnline [.ofBytes [1]], .waitOnline 0, .countRef 0,
          .confirm 0] c ∧ c.Quiet ∧ get c.conns (onChannel 0) = some 0 ∧
      get c.earlyMsgs (onChannel 0) = some ⟨0, [7]⟩) ∧
    ∃ c, Run Step (Lossless (onChannel 0)) connected
        [.arrive (onChannel 0) [7], .deliver, .openConn 0 (onChannel 0), .arrive (onChannel 0) [8],
          .deliver, .flush 0, .enterWait 0, .subscribe 0 true, .peersOnline [.ofBytes [1]],
          .waitOnline 0, .countRef 0, .confirm 0] c ∧ c.Quiet ∧ get c.conns (onChannel 0) = some 0 ∧
      (get c.calls 0).map written = some [⟨1, [8]⟩, ⟨0, [7]⟩] := by
  constructor
  · refine ⟨_, .go (.arrive rfl rfl) (.go (.openNew rfl rfl rfl)
      (.cons ⟨fun m _ => by decide, fun r m call hreader => by cases hreader⟩ (.deliverEarly rfl)
      (.go (.enterWait rfl rfl rfl) (.go (.subscribe rfl rfl)
      (.go (.peersOnline rfl) (.go (.waitOnline rfl rfl (by decide))
      (.go (.countRef rfl rfl rfl) (.go (.confirm rfl rfl rfl) .nil)))))))),
      ⟨by decide, rfl, rfl⟩, rfl, rfl⟩
  · refine ⟨_, .go (.arrive rfl rfl)
      (.cons ⟨fun m _ => by decide, fun r m call hreader => by cases hreader⟩ (.deliverEarly rfl)
      (.go (.openNew rfl rfl rfl) (.go (.arrive rfl rfl)
      (.cons ⟨fun m hreader => (by cases hreader), ?_⟩ (.deliverWrite rfl rfl)
      (.cons ?_ (.flush rfl rfl) (.go (.enterWait rfl rfl rfl)
      (.go (.subscribe rfl rfl) (.go (.peersOnline rfl)
      (.go (.waitOnline rfl rfl (by decide)) (.go (.countRef rfl rfl rfl)
      (.go (.confirm rfl rfl rfl) .nil))))))))))), ⟨by decide, rfl, rfl⟩, rfl, rfl⟩
    · rintro r m call ⟨⟩ ⟨⟩
      decide
    · rintro call ⟨⟩
      decide

end RelayClient
