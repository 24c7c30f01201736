/-
# Failover of the multipath relay connection

Every run of a connection over channels with distinct ids, made of whole `Write` calls with
arbitrary results, channel read errors, deliveries, observed packets and `Close`, in any order.

While the connection is open, the health list says of every channel whether the log holds an error
of it, and some channel is healthy.  Once it is closed, the log tells why (`ClosedBy`).
-/
import AnonBird.Transition
import AnonBird.RelayMultipath

open GoStrings NetIP Multipath List
open Function (update_of_ne)
open Function

namespace RelayMultipath

open State

variable {Conn Err : Type}

/-! ## Events and logs -/

/-- One event in the life of a connection. -/
inductive Event (Err : Type) where
  | observe (data : Bytes) (outbound : Bool)
  | write (p : Bytes) (result : Option Err)
  | readError (channelID : UInt32) (err : Err)
  | deliver (payload : Bytes)
  | close

/-- An event with the result of the `Write` call it may be. -/
abbrev Entry (Conn Err : Type) := Event Err × Option (WriteResult Conn Err)

/-- The effect of one event. -/
def step (s : State Conn Err) : Event Err → State Conn Err × Option (WriteResult Conn Err)
  | .observe data outbound => (s.observePacket data outbound, none)
  | .write p result => ((s.write p result).1, some (s.write p result).2)
  | .readError channelID err => (s.readError channelID err, none)
  | .deliver payload => (s.deliver payload, none)
  | .close => (s.close, none)

/-- The step relation on log entries. -/
def Step (s : State Conn Err) (l : Entry Conn Err) (t : State Conn Err) : Prop :=
  step s l.1 = (t, l.2)

variable (chs : List (RelayChannel Conn))

/-- Read errors come from the channels of the connection. -/
def FromChannels (_ : State Conn Err) (l : Entry Conn Err) : Prop :=
  ∀ id err, l.1 = .readError id err → ∃ ch ∈ chs, ch.id = id

/-- The entry reports the error `err` of the channel `id`. -/
inductive Reports : Entry Conn Err → UInt32 → Err → Prop
  | read {id err o} : Reports (.readError id err, o) id err
  | write {p r id conn err} : Reports (.write p r, some (.handed id conn (some err))) id err

/-- The channel `id` has reported a read or write error. -/
def FailedIn (log : List (Entry Conn Err)) (id : UInt32) : Prop :=
  ∃ l ∈ log, ∃ err, Reports l id err

/-- `Close` was called. -/
def CloseCalled (log : List (Entry Conn Err)) : Prop := ∃ l ∈ log, l.1 = .close

/-- Why the connection is closed, with the recorded error: a first `Close` while some channel had
not failed, or the error of the last channel left. -/
def ClosedBy (log : List (Entry Conn Err)) (readErr : Option Err) : Prop :=
  ∃ before l after, log = before ++ l :: after ∧ ¬ CloseCalled before ∧
    ((l.1 = .close ∧ (∃ ch ∈ chs, ¬ FailedIn before ch.id) ∧ readErr = none) ∨
      ∃ ch ∈ chs, ∃ err, Reports l ch.id err ∧ ¬ FailedIn before ch.id ∧
        (∀ ch' ∈ chs, ch'.id ≠ ch.id → FailedIn before ch'.id) ∧ readErr = some err)

theorem failedIn_append (log log' : List (Entry Conn Err)) (id : UInt32) :
    FailedIn (log ++ log') id ↔ FailedIn log id ∨ FailedIn log' id := by
  constructor
  · rintro ⟨l, hl, err, hrep⟩
    rcases mem_append.mp hl with h | h
    · exact .inl ⟨l, h, err, hrep⟩
    · exact .inr ⟨l, h, err, hrep⟩
  · rintro (⟨l, hl, err, hrep⟩ | ⟨l, hl, err, hrep⟩)
    · exact ⟨l, mem_append_left _ hl, err, hrep⟩
    · exact ⟨l, mem_append_right _ hl, err, hrep⟩

theorem failedIn_singleton (l : Entry Conn Err) (id : UInt32) :
    FailedIn [l] id ↔ ∃ err, Reports l id err := by
  simp [FailedIn]

theorem closeCalled_append (log log' : List (Entry Conn Err)) :
    CloseCalled (log ++ log') ↔ CloseCalled log ∨ CloseCalled log' := by
  simp only [CloseCalled, mem_append, or_and_right, exists_or]

variable {log : List (Entry Conn Err)}

/-! ## What the constructor fixes -/

/-- The fields that no operation changes. -/
structure Static (chs : List (RelayChannel Conn)) (s : State Conn Err) : Prop where
  channels : s.channels = GoMap.build RelayChannel.id RelayChannel.conn chs
  selectorIDToChannel :
    s.selectorIDToChannel = GoMap.build (fun ch => selectorID ch.id) RelayChannel.id chs
  primary : s.primaryChannelID = (chs.head?.map RelayChannel.id).getD 0

/-- The health list, in the order of the channels, with the flags `h`. -/
def Shape (h : UInt32 → Bool) (s : State Conn Err) : Prop :=
  s.selectorChannels = chs.map fun ch => ⟨selectorID ch.id, h ch.id⟩

/-- The ids of the channels are distinct. -/
def DistinctIDs : Prop := (chs.map RelayChannel.id).Nodup

variable {chs : List (RelayChannel Conn)} {s : State Conn Err} {h : UInt32 → Bool}

variable {ch : RelayChannel Conn}

theorem get_channels (hst : Static chs s) (hd : DistinctIDs chs) (hch : ch ∈ chs) :
    get s.channels ch.id = some ch.conn := by
  rw [hst.channels]
  refine GoMap.get_build _ _ chs ch.id ch.conn ⟨ch, hch, rfl⟩ ?_
  intro x hx hid
  rw [inj_on_of_nodup_map hd hx hch hid]

theorem get_selectorID (hst : Static chs s) (hch : ch ∈ chs) :
    get s.selectorIDToChannel (selectorID ch.id) = some ch.id := by
  rw [hst.selectorIDToChannel]
  refine GoMap.get_build (fun ch => selectorID ch.id) _ chs _ ch.id ⟨ch, hch, rfl⟩ ?_
  intro x _ hid
  exact selectorID_injective hid

/-! ## The channel a write is handed to -/

theorem find_selectorID (chs : List (RelayChannel Conn)) (h : UInt32 → Bool) (id : UInt32) :
    (chs.map fun ch => (⟨selectorID ch.id, h ch.id⟩ : Channel)).find? (·.id = selectorID id)
      = if ∃ ch ∈ chs, ch.id = id then some ⟨selectorID id, h id⟩ else none := by
  induction chs with
  | nil => simp
  | cons ch chs ih =>
    rw [map_cons]
    by_cases hid : ch.id = id
    · rw [List.find?_cons_of_pos (by simp [hid]), if_pos ⟨ch, by simp, hid⟩, hid]
    · have hne : ¬ selectorID ch.id = selectorID id := fun hc => hid (selectorID_injective hc)
      rw [List.find?_cons_of_neg (by simpa using hne), ih]
      simp [hid]

theorem channelHealthyLocked_iff (hsh : Shape chs h s) (id : UInt32) :
    s.channelHealthyLocked id ↔ (∃ ch ∈ chs, ch.id = id) ∧ h id := by
  rw [channelHealthyLocked, hsh, find_selectorID]
  by_cases hex : ∃ ch ∈ chs, ch.id = id <;> simp [hex]

theorem usable_eq_some (hst : Static chs s) (hd : DistinctIDs chs) (hsh : Shape chs h s)
    {id : UInt32} {r : Conn × UInt32} (hu : s.usable id = some r) :
    ∃ ch ∈ chs, r = (ch.conn, ch.id) ∧ h ch.id := by
  rw [usable] at hu
  by_cases hh : s.channelHealthyLocked id
  · rw [if_pos hh] at hu
    obtain ⟨⟨ch, hch, rfl⟩, hflag⟩ := (channelHealthyLocked_iff hsh id).mp hh
    rw [get_channels hst hd hch] at hu
    cases hu
    exact ⟨ch, hch, rfl, hflag⟩
  · rw [if_neg hh] at hu
    simp at hu

/-- The last loop of `connForWrite` finds a healthy channel exactly when there is one. -/
theorem firstUsable_spec (hst : Static chs s) (hd : DistinctIDs chs) (h : UInt32 → Bool) :
    ∀ cs : List (RelayChannel Conn), (∀ ch ∈ cs, ch ∈ chs) →
      (match s.firstUsable (cs.map fun ch => ⟨selectorID ch.id, h ch.id⟩) with
        | some r => ∃ ch ∈ chs, r = (ch.conn, ch.id) ∧ h ch.id
        | none => ∀ ch ∈ cs, h ch.id = false) := by
  intro cs
  induction cs with
  | nil => intro _; simp [firstUsable]
  | cons ch cs ih =>
    intro hsub
    have hch : ch ∈ chs := hsub ch (by simp)
    have ih' := ih fun x hx => hsub x (mem_cons_of_mem _ hx)
    rw [map_cons, firstUsable]
    cases hflag : h ch.id with
    | true =>
      rw [get_selectorID hst hch]
      dsimp only
      rw [get_channels hst hd hch]
      exact ⟨ch, hch, rfl, hflag⟩
    | false =>
      simp only [Bool.not_false, if_true]
      split at ih'
      · exact ih'
      · intro x hx
        rcases mem_cons.mp hx with rfl | hx
        · exact hflag
        · exact ih' x hx

/-- **The choice of a channel.** As long as some channel is healthy, a write finds a healthy one,
whatever was asked for. -/
theorem connForWrite_of_healthy (hst : Static chs s) (hd : DistinctIDs chs) (hsh : Shape chs h s)
    (hsome : ∃ ch ∈ chs, h ch.id) (preferred : UInt32) :
    ∃ ch ∈ chs, s.connForWrite preferred = some (ch.conn, ch.id) ∧ h ch.id := by
  have hlast := firstUsable_spec hst hd h chs fun ch hch => hch
  rw [← hsh] at hlast
  rw [connForWrite]
  -- the three places where a channel is looked for, in the order of the source
  cases hpref : s.usable preferred with
  | some r =>
    obtain ⟨ch, hch, rfl, hflag⟩ := usable_eq_some hst hd hsh hpref
    exact ⟨ch, hch, rfl, hflag⟩
  | none =>
    cases hprim : s.usable s.primaryChannelID with
    | some r =>
      obtain ⟨ch, hch, rfl, hflag⟩ := usable_eq_some hst hd hsh hprim
      exact ⟨ch, hch, rfl, hflag⟩
    | none =>
      cases hfirst : s.firstUsable s.selectorChannels with
      | some r =>
        rw [hfirst] at hlast
        obtain ⟨ch, hch, rfl, hflag⟩ := hlast
        exact ⟨ch, hch, rfl, hflag⟩
      | none =>
        rw [hfirst] at hlast
        obtain ⟨ch, hch, hflag⟩ := hsome
        rw [hlast ch hch] at hflag
        simp at hflag

/-! ## Marking a channel -/

theorem markUnhealthy_map (hd : DistinctIDs chs) (h : UInt32 → Bool) (id : UInt32) :
    markUnhealthy (selectorID id) (chs.map fun ch => ⟨selectorID ch.id, h ch.id⟩)
      = chs.map fun ch => ⟨selectorID ch.id, update h id false ch.id⟩ := by
  induction chs with
  | nil => rfl
  | cons ch chs ih =>
    rw [DistinctIDs, map_cons, nodup_cons] at hd
    rw [map_cons, map_cons, markUnhealthy]
    by_cases hid : ch.id = id
    · -- the loop stops here, and the ids behind are different ones
      rw [if_pos (by rw [hid]), hid, update_self]
      congr 1
      apply map_congr_left
      intro x hx
      have hx' : x.id ≠ id := by
        rintro rfl
        exact hd.1 (hid ▸ mem_map_of_mem hx)
      rw [update_of_ne hx']
    · rw [if_neg fun hc => hid (selectorID_injective hc), update_of_ne hid, ih hd.2]

/-- No flag is left up. -/
def AllDown (chs : List (RelayChannel Conn)) (h : UInt32 → Bool) : Prop :=
  ∀ ch ∈ chs, h ch.id = false

instance (chs : List (RelayChannel Conn)) (h : UInt32 → Bool) : Decidable (AllDown chs h) :=
  inferInstanceAs (Decidable (∀ ch ∈ chs, h ch.id = false))

theorem countP_healthy_eq_zero_iff (chs : List (RelayChannel Conn)) (h : UInt32 → Bool) :
    (chs.map fun ch => (⟨selectorID ch.id, h ch.id⟩ : Channel)).countP (·.healthy) = 0
      ↔ AllDown chs h := by
  simp [AllDown]

/-- What marking a channel does to an open connection without a recorded error. -/
theorem markChannelUnhealthy_spec (hst : Static chs s) (hd : DistinctIDs chs)
    (hsh : Shape chs h s) (hopen : s.closed = false) (hnone : s.readErr = none)
    (id : UInt32) (err : Err) : let marked := s.markChannelUnhealthy id err
    (AllDown chs (update h id false) → marked.closed ∧ marked.readErr = some err) ∧
    (¬ AllDown chs (update h id false) → Static chs marked ∧
      Shape chs (update h id false) marked ∧ marked.closed = false ∧ marked.readErr = none) := by
  have hmark := markUnhealthy_map hd h id
  rw [markChannelUnhealthy, hsh, hmark]
  constructor
  · intro hdown
    rw [if_pos ((countP_healthy_eq_zero_iff chs _).mpr hdown)]
    simp [fail, close, hopen, hnone]
  · intro hup
    rw [if_neg fun hc => hup ((countP_healthy_eq_zero_iff chs _).mp hc)]
    exact ⟨⟨hst.channels, hst.selectorIDToChannel, hst.primary⟩, rfl, hopen, hnone⟩

/-! ## The invariant -/

/-- The invariant of a run: the connection is open and the health list agrees with
the log, or it is closed for the reason that the log shows. -/
inductive Inv (chs : List (RelayChannel Conn)) (log : List (Entry Conn Err))
    (s : State Conn Err) : Prop
  | opened (h : UInt32 → Bool) (hst : Static chs s) (hsh : Shape chs h s)
      (hopen : s.closed = false) (hnone : s.readErr = none) (hcall : ¬ CloseCalled log)
      (hflag : ∀ ch ∈ chs, h ch.id = true ↔ ¬ FailedIn log ch.id)
      (hsome : ∃ ch ∈ chs, h ch.id = true) : Inv chs log s
  | closed (hclosed : s.closed = true) (hwhy : ClosedBy chs log s.readErr) : Inv chs log s

theorem inv_new (hne : chs ≠ []) (allowedIPs : List Prefix) :
    Inv chs [] (newRelayMultipathConn chs allowedIPs : State Conn Err) := by
  obtain ⟨ch, rest, rfl⟩ := exists_cons_of_ne_nil hne
  refine .opened (fun _ => true) ⟨rfl, rfl, rfl⟩ rfl rfl rfl ?_ ?_ ⟨ch, by simp, rfl⟩
  · simp [CloseCalled]
  · simp [FailedIn]

variable {l : Entry Conn Err} {t : State Conn Err}

section Opened

variable (hst : Static chs s) (hsh : Shape chs h s) (hopen : s.closed = false)
  (hnone : s.readErr = none) (hcall : ¬ CloseCalled log)
  (hflag : ∀ ch ∈ chs, h ch.id ↔ ¬ FailedIn log ch.id) (hsome : ∃ ch ∈ chs, h ch.id)

include hst hsh hopen hnone hcall hflag hsome

/-- An event that touches neither health nor closing keeps the open form. -/
theorem inv_quiet (hl : l.1 ≠ .close) (hrep : ∀ id err, ¬ Reports l id err)
    (ht : t.channels = s.channels ∧ t.selectorIDToChannel = s.selectorIDToChannel ∧
      t.primaryChannelID = s.primaryChannelID ∧ t.selectorChannels = s.selectorChannels ∧
      t.closed = s.closed ∧ t.readErr = s.readErr) : Inv chs (log ++ [l]) t := by
  obtain ⟨h1, h2, h3, h4, h5, h6⟩ := ht
  refine .opened h ⟨h1.trans hst.channels, h2.trans hst.selectorIDToChannel, h3.trans hst.primary⟩
    (h4.trans hsh) (h5.trans hopen) (h6.trans hnone) ?_ ?_ hsome
  · rw [closeCalled_append]
    rintro (hc | hc)
    · exact hcall hc
    · exact hl (by simpa [CloseCalled] using hc)
  · intro ch hch
    rw [hflag ch hch, failedIn_append, failedIn_singleton]
    have hno : ¬ ∃ err, Reports l ch.id err := fun ⟨err, he⟩ => hrep ch.id err he
    simp [hno]

theorem inv_marked (hd : DistinctIDs chs) (hch : ch ∈ chs) {err : Err} (hl : l.1 ≠ .close)
    (hrep : ∀ id e, Reports l id e ↔ id = ch.id ∧ e = err) :
    Inv chs (log ++ [l]) (s.markChannelUnhealthy ch.id err) := by
  have hspec := markChannelUnhealthy_spec hst hd hsh hopen hnone ch.id err
  have hfail : ∀ x : UInt32, FailedIn (log ++ [l]) x ↔ FailedIn log x ∨ x = ch.id := by
    intro x
    rw [failedIn_append, failedIn_singleton]
    simp [hrep]
  by_cases hdown : AllDown chs (update h ch.id false)
  · obtain ⟨hclosed, herr⟩ := hspec.1 hdown
    refine .closed hclosed ⟨log, l, [], rfl, hcall, .inr ⟨ch, hch, err, ?_, ?_, ?_, herr⟩⟩
    · exact (hrep ch.id err).mpr ⟨rfl, rfl⟩
    · -- some flag was up, all are down now, so the marked channel had not failed
      obtain ⟨up, hup, hupflag⟩ := hsome
      have hid : up.id = ch.id := by
        by_contra hid
        have := hdown up hup
        rw [update_of_ne hid, hupflag] at this
        simp at this
      rw [← hid]
      exact (hflag up hup).mp hupflag
    · intro other hother hid
      have := hdown other hother
      rw [update_of_ne hid] at this
      by_contra hnf
      rw [(hflag other hother).mpr hnf] at this
      simp at this
  · -- some other flag is still up
    obtain ⟨hst', hsh', hopen', hnone'⟩ := hspec.2 hdown
    refine .opened _ hst' hsh' hopen' hnone' ?_ ?_ ?_
    · rw [closeCalled_append]
      rintro (hc | hc)
      · exact hcall hc
      · exact hl (by simpa [CloseCalled] using hc)
    · intro x hx
      rw [hfail]
      by_cases hid : x.id = ch.id
      · simp [hid]
      · rw [update_of_ne hid, hflag x hx]
        simp [hid]
    · rw [AllDown] at hdown
      push Not at hdown
      obtain ⟨x, hx, hup⟩ := hdown
      exact ⟨x, hx, by simpa using hup⟩

end Opened

/-! ## Steps and runs -/

/-- A `Write` on an open connection with a healthy channel is handed to a healthy
channel, and the answer of that channel is its own. -/
theorem write_of_healthy (hst : Static chs s) (hd : DistinctIDs chs) (hsh : Shape chs h s)
    (hopen : s.closed = false) (hsome : ∃ ch ∈ chs, h ch.id) (p : Bytes) (result : Option Err) :
    ∃ ch ∈ chs, h ch.id ∧ (s.write p result).2 = .handed ch.id ch.conn result ∧
      (s.write p result).1 = (match result with
          | none => { s with hintCh := (s.takeHint p).2 }
          | some err =>
            markChannelUnhealthy { s with hintCh := (s.takeHint p).2 } ch.id err) := by
  have hst' : Static chs { s with hintCh := (s.takeHint p).2 } :=
    ⟨hst.channels, hst.selectorIDToChannel, hst.primary⟩
  obtain ⟨ch, hch, hconn, hflag⟩ :=
    connForWrite_of_healthy hst' hd (h := h) hsh hsome (s.takeHint p).1
  rw [write, if_neg (by simp [hopen])]
  dsimp only
  rw [hconn]
  refine ⟨ch, hch, hflag, ?_⟩
  cases result with
  | none | some err => exact ⟨rfl, rfl⟩

theorem observePacket_eq (s : State Conn Err) (data : Bytes) (outbound : Bool) :
    ∃ hints, s.observePacket data outbound = { s with hintCh := hints } := by
  rw [observePacket]
  split
  · exact ⟨s.hintCh, rfl⟩
  · split
    · exact ⟨s.hintCh, rfl⟩
    · rw [enqueueHint]
      split <;> exact ⟨_, rfl⟩

/-- A closed connection stays closed, with the error it recorded. -/
theorem step_of_closed (hc : s.closed) (e : Event Err) :
    (step s e).1.closed ∧ (step s e).1.readErr = s.readErr := by
  cases e with
  | observe data outbound =>
    obtain ⟨hints, heq⟩ := observePacket_eq s data outbound
    rw [step, heq]
    exact ⟨hc, rfl⟩
  | write p result => simp [step, write, hc]
  | readError id err => simp [step, readError, hc]
  | deliver payload => simp [step, deliver, hc]
  | close => simp [step, close, hc]

theorem inv_step (hd : DistinctIDs chs) (hinv : Inv chs log s)
    (hfrom : FromChannels chs s l) (hstep : Step s l t) : Inv chs (log ++ [l]) t := by
  obtain ⟨e, o⟩ := l
  -- the log entry and the new state are what the event produced
  have ht : (step s e).1 = t := by rw [hstep]
  have ho : (step s e).2 = o := by rw [hstep]
  subst ht ho
  cases hinv with
  | closed hclosed hwhy =>
    obtain ⟨hc, herr⟩ := step_of_closed hclosed e
    refine .closed hc ?_
    rw [herr]
    obtain ⟨before, l, after, rfl, hcause⟩ := hwhy
    exact ⟨before, l, after ++ [(e, (step s e).2)], by simp, hcause⟩
  | opened h hst hsh hopen hnone hcall hflag hsome =>
    cases e with
    | observe data outbound =>
      obtain ⟨hints, heq⟩ := observePacket_eq s data outbound
      refine inv_quiet hst hsh hopen hnone hcall hflag hsome (by simp) ?_ ?_
      · rintro id err ⟨⟩
      · rw [step, heq]
        exact ⟨rfl, rfl, rfl, rfl, rfl, rfl⟩
    | write p result =>
      obtain ⟨ch, hch, hup, hres, hstate⟩ :=
        write_of_healthy hst hd hsh hopen hsome p result
      rw [step, hres, hstate]
      cases result with
      | none =>
        refine inv_quiet hst hsh hopen hnone hcall hflag hsome (by simp) ?_
          ⟨rfl, rfl, rfl, rfl, rfl, rfl⟩
        rintro id err ⟨⟩
      | some err =>
        -- the channel is marked in the state that has lost the hint
        have hst' : Static chs { s with hintCh := (s.takeHint p).2 } :=
          ⟨hst.channels, hst.selectorIDToChannel, hst.primary⟩
        refine inv_marked (s := { s with hintCh := (s.takeHint p).2 }) hst' hsh hopen
          hnone hcall hflag hsome hd hch ?_ ?_
        · simp
        · intro id e
          constructor
          · rintro ⟨⟩
            exact ⟨rfl, rfl⟩
          · rintro ⟨rfl, rfl⟩
            exact .write
    | readError id err =>
      obtain ⟨ch, hch, rfl⟩ := hfrom id err rfl
      have heq : s.readError ch.id err = s.markChannelUnhealthy ch.id err := by
        rw [readError, hopen, if_neg (by simp)]
      rw [step, heq]
      refine inv_marked hst hsh hopen hnone hcall hflag hsome hd hch (by simp) ?_
      intro id e
      constructor
      · rintro ⟨⟩
        exact ⟨rfl, rfl⟩
      · rintro ⟨rfl, rfl⟩
        exact .read
    | deliver payload =>
      refine inv_quiet hst hsh hopen hnone hcall hflag hsome (by simp) ?_ ?_
      · rintro id err ⟨⟩
      · rw [step, deliver]
        split <;> exact ⟨rfl, rfl, rfl, rfl, rfl, rfl⟩
    | close =>
      obtain ⟨ch, hch, hup⟩ := hsome
      refine .closed ?_ ⟨log, _, [], rfl, hcall, .inl ⟨rfl, ⟨ch, hch, ?_⟩, ?_⟩⟩
      · simp [step, close, hopen]
      · exact (hflag ch hch).mp hup
      · simp [step, close, hopen, hnone]

/-- A reason for being closed is a call of `Close` or the failure of every channel. -/
theorem ClosedBy.closeCalled_or {readErr : Option Err} (hwhy : ClosedBy chs log readErr) :
    CloseCalled log ∨ ∀ ch ∈ chs, FailedIn log ch.id := by
  obtain ⟨before, l, after, rfl, _, ⟨hl, _, _⟩ | ⟨ch, hch, err, hrep, _, hothers, _⟩⟩ := hwhy
  · exact .inl ⟨l, by simp, hl⟩
  · right
    intro x hx
    by_cases hid : x.id = ch.id
    · exact ⟨l, by simp, err, hid ▸ hrep⟩
    · rw [failedIn_append]
      exact .inl (hothers x hx hid)

/-- **Failover.** In every run over channels with distinct ids: no `Write` goes to a channel that
has reported an error; while some channel has not failed and `Close` was not called, every `Write`
is answered by such a channel; the connection is closed exactly when `Close` was called or every
channel failed, and the recorded error is that of the last one. -/
theorem failover (chs : List (RelayChannel Conn)) (hne : chs ≠ []) (hd : DistinctIDs chs)
    (allowedIPs : List Prefix) (log : List (Entry Conn Err)) (s : State Conn Err)
    (hrun : Transition.Run Step (FromChannels chs) (newRelayMultipathConn chs allowedIPs) log s) :
    (∀ p result id conn answer, (s.write p result).2 = .handed id conn answer → ¬ FailedIn log id) ∧
    (¬ CloseCalled log → (∃ ch ∈ chs, ¬ FailedIn log ch.id) → ∀ p result,
      ∃ ch ∈ chs, ¬ FailedIn log ch.id ∧ (s.write p result).2 = .handed ch.id ch.conn result) ∧
    (s.closed = true ↔ CloseCalled log ∨ ∀ ch ∈ chs, FailedIn log ch.id) ∧
    (s.closed = true → ClosedBy chs log s.readErr) := by
  cases hrun.invariant (inv_new hne allowedIPs)
    fun _ _ _ _ hinv hok hstep => inv_step hd hinv hok hstep with
  | opened h hst hsh hopen hnone hcall hflag hsome =>
    have hwrite := write_of_healthy (s := s) hst hd hsh hopen hsome
    refine ⟨?_, ?_, ?_, ?_⟩
    · intro p result id conn answer hres
      obtain ⟨ch, hch, hup, hhand, _⟩ := hwrite p result
      rw [hhand] at hres
      obtain ⟨rfl, rfl, rfl⟩ := WriteResult.handed.inj hres
      exact (hflag ch hch).mp hup
    · intro _ _ p result
      obtain ⟨ch, hch, hup, hhand, _⟩ := hwrite p result
      exact ⟨ch, hch, (hflag ch hch).mp hup, hhand⟩
    · obtain ⟨ch, hch, hup⟩ := hsome
      constructor
      · intro hc
        rw [hopen] at hc
        simp at hc
      · rintro (hc | hall)
        · exact absurd hc hcall
        · exact absurd (hall ch hch) ((hflag ch hch).mp hup)
    · intro hc
      rw [hopen] at hc
      simp at hc
  | closed hclosed hwhy =>
    have hwrite : ∀ p result, (s.write p result).2 = .errClosed := by
      intro p result
      rw [write, if_pos hclosed]
    refine ⟨?_, ?_, ⟨fun _ => hwhy.closeCalled_or, fun _ => hclosed⟩, fun _ => hwhy⟩
    · intro p result id conn answer hres
      rw [hwrite] at hres
      simp at hres
    · rintro hcall ⟨ch, hch, hnf⟩
      rcases hwhy.closeCalled_or with hc | hall
      · exact absurd hc hcall
      · exact absurd (hall ch hch) hnf

/-- Two channels, the first of them the primary one. -/
def twoChannels : List (RelayChannel ℕ) := [⟨0, 10⟩, ⟨1, 11⟩]

/-- The log of one `Write` that failed on the primary channel with the error 7. -/
def firstFailure : List (Entry ℕ ℕ) := [(.write [] (some 7), some (.handed 0 10 (some 7)))]

/-- The connection after it. -/
def afterFirstFailure : State ℕ ℕ := ((newRelayMultipathConn twoChannels []).write [] (some 7)).1

/-- After the failure of the primary channel every `Write` goes to the second one. -/
theorem failover_to_second : FailedIn firstFailure 0 ∧
    ∀ p result, ∃ ch ∈ twoChannels, ¬ FailedIn firstFailure ch.id ∧
      (afterFirstFailure.write p result).2 = .handed ch.id ch.conn result := by
  refine ⟨⟨_, mem_singleton_self _, 7, .write⟩, ?_⟩
  refine (failover twoChannels (by simp [twoChannels]) (by simp [DistinctIDs, twoChannels]) []
    firstFailure afterFirstFailure (.cons nofun rfl .nil)).2.1 ?_
    ⟨⟨1, 11⟩, by simp [twoChannels], ?_⟩
  · rintro ⟨l, hl, hc⟩
    rw [mem_singleton.mp hl] at hc
    simp at hc
  · rintro ⟨l, hl, err, hrep⟩
    rw [mem_singleton.mp hl] at hrep
    cases hrep

end RelayMultipath
