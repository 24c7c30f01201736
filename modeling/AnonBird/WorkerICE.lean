/-
# Attempts of the ICE worker

Model of `client/internal/peer/worker_ice.go`.  An offer of the remote peer makes the worker create
an agent and start a goroutine that dials with it.  A later offer may replace the agent while the
goroutine and the callbacks of the earlier one are still to run, and all share one `WorkerICE`.

The sections under `muxAgent`, and the accesses to shared fields outside of it, are the atomic
steps.  `agentDialerCancel` and `lastKnownState` are read by the wrong attempt, and
`agentConnecting` is not reset by `Close`.
-/
import AnonBird.Transition
import AnonBird.GoStrings

open GoStrings List Option

namespace WorkerICE

/-! ## State -/

/-- The id of a session. -/
abbrev ICESessionID := Bytes

/-- The two values that `lastKnownState` takes. -/
inductive ConnectionState where
  | disconnected
  | connected
  deriving DecidableEq, Repr

/-- The fields of `WorkerICE` that the attempts share.  A cancel function is the number of
the agent whose dial it cancels. -/
structure Worker where
  agent : Option ℕ
  agentDialerCancel : Option ℕ
  agentConnecting : Bool
  remoteSessionID : ICESessionID
  sessionID : ICESessionID
  remoteSessionChanged : Bool
  lastKnownState : ConnectionState

/-- Where a goroutine of `connect` is: dialing, in `closeAgent` after a failure, before the section
that notes a success, or before the call of `onICEConnectionIsReady`. -/
inductive ConnectAt where
  | dialing
  | closing
  | succeeded
  | ready
  deriving DecidableEq, Repr

/-- Where a state callback that reports the end of an agent is: before the section of
`closeAgent`, or behind it, with the answer of `closeAgent`. -/
inductive CallbackAt where
  | closing
  | reporting (sessionChanged : Bool)
  deriving DecidableEq, Repr

/-- The worker with everything that runs on it. -/
structure State where
  worker : Worker
  /-- the number of agents created so far -/
  created : ℕ
  connects : List (ℕ × ConnectAt)
  callbacks : List (ℕ × CallbackAt)
  /-- the agents whose dial was cancelled -/
  cancelled : List ℕ
  /-- the agent whose connection the peer connection uses -/
  iceConn : Option ℕ
  /-- the agent that set `lastKnownState` to connected last -/
  connectedBy : Option ℕ
  /-- the agents that have reported to be connected -/
  reported : List ℕ
  /-- the agents whose connection was handed over -/
  handedOver : List ℕ

/-- A worker without an agent. -/
def newWorkerICE (sessionID : ICESessionID) : State where
  worker := ⟨none, none, false, [], sessionID, false, .disconnected⟩
  created := 0
  connects := []
  callbacks := []
  cancelled := []
  iceConn := none
  connectedBy := none
  reported := []
  handedOver := []

/-! ## The sections -/

variable (s : State)

/-- A call of a cancel function. -/
def State.cancel (dial : Option ℕ) : State :=
  { s with cancelled := dial.toList ++ s.cancelled }

/-- The offer finds an agent or an attempt that it does not replace. -/
def Worker.skipsOffer (w : Worker) (remoteSession : Option ICESessionID) : Bool :=
  (w.agent.isSome || w.agentConnecting) &&
    match remoteSession with
    | none => true
    | some id => w.remoteSessionID = id

/-- The part of `OnNewOffer` that gives up the agent there is. -/
def State.giveUpAgent (newSession : ICESessionID) : State :=
  if s.worker.agent.isSome || s.worker.agentConnecting then
    let s := s.cancel s.worker.agentDialerCancel
    { s with
      worker :=
        { s.worker with remoteSessionChanged := true, sessionID := newSession, agent := none } }
  else s

/-- The rest of `OnNewOffer`; `agentCreated` is whether `reCreateAgent` succeeds. -/
def State.startAttempt (remoteSession : Option ICESessionID) (agentCreated : Bool) : State :=
  if !agentCreated then s
  else
    { s with
      worker :=
        { s.worker with
          agent := some s.created
          agentDialerCancel := some s.created
          agentConnecting := true
          remoteSessionID := remoteSession.getD [] }
      created := s.created + 1
      connects := (s.created, .dialing) :: s.connects }

/-- `OnNewOffer`.  A session id that cannot be generated is the empty one. -/
def State.onNewOffer (remoteSession : Option ICESessionID)
    (newSession : ICESessionID) (agentCreated : Bool) : State :=
  if s.worker.skipsOffer remoteSession then s
  else (s.giveUpAgent newSession).startAttempt remoteSession agentCreated

/-- The agent is closed. -/
def State.close : State :=
  if s.worker.agent = none then s
  else
    let s := s.cancel s.worker.agentDialerCancel
    { s with worker := { s.worker with agent := none } }

/-- The section of `closeAgent` under the mutex, with what it returns. -/
def Worker.closeAgent (w : Worker) (agent : ℕ) (newSession : ICESessionID) : Bool × Worker :=
  let sessionChanged := w.remoteSessionChanged
  let w := { w with remoteSessionChanged := false }
  (sessionChanged,
    if w.agent = some agent then
      { w with
        sessionID := newSession, agent := none, agentConnecting := false, remoteSessionID := [] }
    else w)

/-! ## Steps -/

/-- The steps.  The first two are calls on the worker; the others belong to the attempt
or to a callback of the agent they name. -/
inductive Label where
  | onNewOffer (remoteSession : Option ICESessionID) (newSession : ICESessionID)
      (agentCreated : Bool)
  | close
  /-- the dial fails: `closeAgent` is entered with the cancel function of the worker -/
  | connectFails (agent : ℕ)
  | connectCloses (agent : ℕ) (newSession : ICESessionID)
  /-- the dial succeeds -/
  | connectSucceeds (agent : ℕ)
  | connectDone (agent : ℕ)
  /-- `onICEConnectionIsReady`; `taken` is whether the peer connection, which compares
  priorities, uses the new connection -/
  | connectReady (agent : ℕ) (taken : Bool)
  /-- the agent reports to be connected -/
  | stateConnected (agent : ℕ)
  /-- the agent reports to be failed, disconnected or closed -/
  | stateDown (agent : ℕ)
  | stateCloses (agent : ℕ) (newSession : ICESessionID)
  | stateReports (agent : ℕ) (sessionChanged : Bool)

/-- The agent whose attempt or callback takes the step. -/
def Label.agent : Label → Option ℕ
  | .onNewOffer .. => none
  | .close => none
  | .connectFails a => some a
  | .connectCloses a _ => some a
  | .connectSucceeds a => some a
  | .connectDone a => some a
  | .connectReady a _ => some a
  | .stateConnected a => some a
  | .stateDown a => some a
  | .stateCloses a _ => some a
  | .stateReports a _ => some a

/-- The goroutine of `a` moves on. -/
def State.connectMoves (a : ℕ) (before after : ConnectAt) : State :=
  { s with connects := (a, after) :: s.connects.erase (a, before) }

/-- The last section of a callback: `lastKnownState` decides whether the peer connection
hears of the end. -/
def State.report : State :=
  if s.worker.lastKnownState = .connected then
    { s with worker := { s.worker with lastKnownState := .disconnected }, iceConn := none }
  else s

/-- One step. -/
inductive Step : State → Label → State → Prop
  | onNewOffer {s : State} {rs ns c} : Step s (.onNewOffer rs ns c) (s.onNewOffer rs ns c)
  | close {s : State} : Step s .close s.close
  | connectFails {s : State} {a} :
      (a, .dialing) ∈ s.connects →
      -- not the cancel function of the attempt, but the one stored last
      Step s (.connectFails a)
        ((s.connectMoves a .dialing .closing).cancel s.worker.agentDialerCancel)
  | connectCloses {s : State} {a ns} :
      (a, .closing) ∈ s.connects →
      Step s (.connectCloses a ns)
        { s with
          worker := (s.worker.closeAgent a ns).2, connects := s.connects.erase (a, .closing) }
  | connectSucceeds {s : State} {a} :
      (a, .dialing) ∈ s.connects →
      Step s (.connectSucceeds a) (s.connectMoves a .dialing .succeeded)
  | connectDone {s : State} {a} :
      (a, .succeeded) ∈ s.connects →
      Step s (.connectDone a)
        { s.connectMoves a .succeeded .ready with
          worker := { s.worker with agentConnecting := false } }
  | connectReady {s : State} {a taken} :
      (a, .ready) ∈ s.connects →
      Step s (.connectReady a taken)
        { s with
          connects := s.connects.erase (a, .ready)
          iceConn := if taken then some a else s.iceConn
          handedOver := a :: s.handedOver }
  | stateConnected {s : State} {a} :
      a < s.created →
      Step s (.stateConnected a)
        { s with
          worker := { s.worker with lastKnownState := .connected }
          connectedBy := some a
          reported := a :: s.reported }
  | stateDown {s : State} {a} :
      a < s.created →
      Step s (.stateDown a)
        ({ s with callbacks := (a, .closing) :: s.callbacks }.cancel (some a))
  | stateCloses {s : State} {a ns} :
      (a, .closing) ∈ s.callbacks →
      Step s (.stateCloses a ns)
        { s with
          worker := (s.worker.closeAgent a ns).2
          callbacks :=
            (a, .reporting (s.worker.closeAgent a ns).1) :: s.callbacks.erase (a, .closing) }
  | stateReports {s : State} {a sc} :
      (a, .reporting sc) ∈ s.callbacks →
      Step s (.stateReports a sc)
        { s.report with callbacks := s.callbacks.erase (a, .reporting sc) }

/-! ## What is expected -/

/-- The worker is connecting only while the goroutine of its agent is running. -/
def State.ConnectingRuns : Prop :=
  s.worker.agentConnecting = true →
    ∃ a pos, s.worker.agent = some a ∧ (a, pos) ∈ s.connects

/-- The agent is dialing, and nobody has cancelled that. -/
def State.Dials (b : ℕ) : Prop := (b, .dialing) ∈ s.connects ∧ b ∉ s.cancelled

/-- What a step from `s` to `t` leaves of the agent `b`: its dial, its state in the worker,
and its connection. -/
structure Undisturbed (s t : State) (b : ℕ) : Prop where
  dial : s.Dials b → b ∉ t.cancelled
  agent : s.worker.agent = some b → t.worker.agent = some b
  connecting : s.worker.agent = some b → s.worker.agentConnecting = true →
    t.worker.agentConnecting = true
  session : s.worker.agent = some b → t.worker.remoteSessionID = s.worker.remoteSessionID
  known : s.connectedBy = some b → s.worker.lastKnownState = .connected →
    t.worker.lastKnownState = .connected
  conn : s.iceConn = some b → t.iceConn = some b

/-- The steps on which the shared fields belong to the attempt that uses them: `Close` and failed
offers come while no attempt is running, a dial fails while the cancel function is its own, a
success is noted while no other agent is connecting, and a connection is handed over, and the end of
a connected agent reported, before a newer agent has come up. -/
def InOrder : Label → Prop
  | .onNewOffer rs _ agentCreated =>
    agentCreated = false → s.worker.skipsOffer rs = true ∨ s.worker.agentConnecting = false
  | .close => s.worker.agent = none ∨ s.worker.agentConnecting = false
  | .connectFails a => s.worker.agentDialerCancel = some a
  | .connectDone a => s.worker.agent = some a ∨ s.worker.agentConnecting = false
  | .connectReady a taken => taken = true → ∀ b ∈ s.handedOver, b ≤ a
  | .stateReports a _ =>
    s.worker.lastKnownState = .connected →
      (∀ b ∈ s.reported, b ≤ a) ∧ ∀ b ∈ s.handedOver, b ≤ a
  | _ => True

/-! ## The invariant -/

/-- A connecting worker has an agent whose goroutine is not yet through with it, and the
connection and the last known state have an origin. -/
structure State.Good (s : State) : Prop where
  connecting : s.worker.agentConnecting = true →
    ∃ a pos, s.worker.agent = some a ∧ (a, pos) ∈ s.connects ∧ pos ≠ .ready
  conn : ∀ b, s.iceConn = some b → b ∈ s.handedOver
  known : ∀ b, s.connectedBy = some b → b ∈ s.reported

variable {s : State}

theorem State.Good.connectingRuns (h : s.Good) : s.ConnectingRuns := by
  intro hc
  obtain ⟨a, pos, hagent, hmem, -⟩ := h.connecting hc
  exact ⟨a, pos, hagent, hmem⟩

theorem good_newWorkerICE (sessionID : ICESessionID) : (newWorkerICE sessionID).Good := by
  refine ⟨fun hc => ?_, fun b hb => ?_, fun b hb => ?_⟩
  · exact absurd hc (by simp [newWorkerICE])
  · exact absurd hb (by simp [newWorkerICE])
  · exact absurd hb (by simp [newWorkerICE])

/-- The section of `closeAgent` is about its own agent: it either leaves the three fields of
an attempt, or ends the attempt of that agent. -/
theorem closeAgent_cases (w : Worker) (a : ℕ) (ns : ICESessionID) :
    (w.agent ≠ some a ∧ (w.closeAgent a ns).2.agent = w.agent ∧
        (w.closeAgent a ns).2.agentConnecting = w.agentConnecting ∧
        (w.closeAgent a ns).2.remoteSessionID = w.remoteSessionID) ∨
      (w.agent = some a ∧ (w.closeAgent a ns).2.agentConnecting = false) := by
  unfold Worker.closeAgent
  by_cases ha : w.agent = some a
  · right
    simp [ha]
  · left
    simp [ha]

/-- The goroutine of the connecting agent is found again after another entry was taken out
of the list, or its own was replaced. -/
theorem connecting_moves (h : s.Good) {a : ℕ} {before after : ConnectAt}
    (hafter : after ≠ .ready) (hc : s.worker.agentConnecting) : ∃ b pos, s.worker.agent = some b ∧
      (b, pos) ∈ (s.connectMoves a before after).connects ∧ pos ≠ .ready := by
  obtain ⟨b, pos, hagent, hmem, hpos⟩ := h.connecting hc
  by_cases heq : (b, pos) = (a, before)
  · obtain ⟨rfl, rfl⟩ := Prod.mk.inj heq
    exact ⟨b, after, hagent, mem_cons_self, hafter⟩
  · exact ⟨b, pos, hagent, mem_cons_of_mem _ ((mem_erase_of_ne heq).mpr hmem), hpos⟩

/-! ## One step keeps the invariant -/

variable {ns : ICESessionID}

open State

theorem State.Good.onNewOffer (h : s.Good) {rs : Option ICESessionID} {c : Bool}
    (hok : InOrder s (.onNewOffer rs ns c)) :
    (s.onNewOffer rs ns c).Good := by
  unfold State.onNewOffer
  split
  · exact h
  next hskip =>
    have hgive : (s.giveUpAgent ns).worker.agentConnecting = s.worker.agentConnecting ∧
        (s.giveUpAgent ns).iceConn = s.iceConn ∧
        (s.giveUpAgent ns).handedOver = s.handedOver ∧
        (s.giveUpAgent ns).connectedBy = s.connectedBy ∧
        (s.giveUpAgent ns).reported = s.reported := by
      unfold giveUpAgent
      split <;> exact ⟨rfl, rfl, rfl, rfl, rfl⟩
    obtain ⟨hconnecting, hice, hhanded, hby, hrep⟩ := hgive
    have hconn : ∀ b, (s.giveUpAgent ns).iceConn = some b → b ∈ (s.giveUpAgent ns).handedOver := by
      rw [hice, hhanded]
      exact h.conn
    have hknown : ∀ b, (s.giveUpAgent ns).connectedBy = some b →
        b ∈ (s.giveUpAgent ns).reported := by
      rw [hby, hrep]
      exact h.known
    cases c with
    | true =>
      -- the new agent is connecting, and its goroutine has just been started
      exact ⟨fun _ => ⟨_, .dialing, rfl, mem_cons_self, by decide⟩, hconn, hknown⟩
    | false =>
      have hidle : s.worker.agentConnecting = false := (hok rfl).resolve_left hskip
      refine ⟨fun hc => ?_, hconn, hknown⟩
      rw [show ((s.giveUpAgent ns).startAttempt rs false).worker.agentConnecting =
        (s.giveUpAgent ns).worker.agentConnecting from rfl, hconnecting, hidle] at hc
      exact absurd hc (by decide)

theorem State.Good.close (h : s.Good) (hok : InOrder s .close) : s.close.Good := by
  unfold State.close
  split
  · exact h
  next hagent =>
    have hidle : s.worker.agentConnecting = false := hok.resolve_left hagent
    refine ⟨fun hc => ?_, h.conn, h.known⟩
    exact absurd (hidle.symm.trans hc) (by decide)

/-- What is left by the section of `closeAgent` is another agent's attempt, whose goroutine is not
the one that may have ended. -/
theorem State.Good.closeAgent (h : s.Good) (a : ℕ) (ns : ICESessionID)
    (hc : (s.worker.closeAgent a ns).2.agentConnecting) :
    ∃ b pos, b ≠ a ∧ (s.worker.closeAgent a ns).2.agent = some b ∧ (b, pos) ∈ s.connects ∧
      pos ≠ .ready := by
  rcases closeAgent_cases s.worker a ns with ⟨hne, hagent, hconn, -⟩ | ⟨-, hconn⟩
  · rw [hconn] at hc
    obtain ⟨b, pos, hb, hmem, hpos⟩ := h.connecting hc
    refine ⟨b, pos, ?_, hagent.trans hb, hmem, hpos⟩
    rintro rfl
    exact hne hb
  · rw [hconn] at hc
    exact absurd hc (by decide)

variable {s t : State} {l : Label}

theorem State.Good.step (h : s.Good) (hok : InOrder s l) (hstep : Step s l t) : t.Good := by
  cases hstep with
  | onNewOffer => exact h.onNewOffer hok
  | close => exact h.close hok
  | connectFails _ | connectSucceeds _ =>
    exact ⟨fun hc => connecting_moves h (by decide) hc, h.conn, h.known⟩
  | @connectCloses a ns _ =>
    refine ⟨fun hc => ?_, h.conn, h.known⟩
    obtain ⟨b, pos, hne, hagent, hmem, hpos⟩ := h.closeAgent a ns hc
    refine ⟨b, pos, hagent, (mem_erase_of_ne ?_).mpr hmem, hpos⟩
    exact fun heq => hne (Prod.mk.inj heq).1
  | connectDone _ => exact ⟨fun hc => absurd hc (by simp), h.conn, h.known⟩
  | @connectReady a taken _ =>
    refine ⟨fun hc => ?_, fun b hb => ?_, h.known⟩
    · obtain ⟨b, pos, hagent, hmem, hpos⟩ := h.connecting hc
      refine ⟨b, pos, hagent, (mem_erase_of_ne ?_).mpr hmem, hpos⟩
      exact fun heq => hpos (Prod.mk.inj heq).2
    · cases taken with
      | true => exact mem_cons.mpr (.inl (some.inj hb).symm)
      | false => exact mem_cons_of_mem _ (h.conn b hb)
  | stateConnected _ =>
    refine ⟨h.connecting, h.conn, fun b hb => ?_⟩
    exact mem_cons.mpr (.inl (some.inj hb).symm)
  | stateDown _ => exact ⟨h.connecting, h.conn, h.known⟩
  | @stateCloses a ns _ =>
    refine ⟨fun hc => ?_, h.conn, h.known⟩
    obtain ⟨b, pos, -, hagent, hmem, hpos⟩ := h.closeAgent a ns hc
    exact ⟨b, pos, hagent, hmem, hpos⟩
  | @stateReports a sc _ =>
    by_cases hknown : s.worker.lastKnownState = .connected
    · rw [report, if_pos hknown]
      exact ⟨h.connecting, fun b hb => absurd hb (by simp), h.known⟩
    · rw [report, if_neg hknown]
      exact ⟨h.connecting, h.conn, h.known⟩

/-! ## What a step leaves of a newer agent -/

variable {a b : ℕ}

/-- A step that keeps the worker and the connection, and cancels no dial but that of `a`. -/
theorem undisturbed_of_frame (hab : a < b)
    (hcancel : ∀ c ∈ t.cancelled, c ∈ s.cancelled ∨ c = a) (hworker : t.worker = s.worker)
    (hconn : t.iceConn = s.iceConn) : Undisturbed s t b where
  dial := by
    rintro ⟨-, hnot⟩ hmem
    rcases hcancel b hmem with hold | rfl
    · exact hnot hold
    · exact lt_irrefl _ hab
  agent := by rw [hworker]; exact id
  connecting := by rw [hworker]; exact fun _ => id
  session := by rw [hworker]; exact fun _ => rfl
  known := by rw [hworker]; exact fun _ => id
  conn := by rw [hconn]; exact id

theorem undisturbed_of_closeAgent (hab : a < b)
    (hcancel : t.cancelled = s.cancelled) (hworker : t.worker = (s.worker.closeAgent a ns).2)
    (hconn : t.iceConn = s.iceConn) : Undisturbed s t b := by
  have hkeep : s.worker.agent = some b → t.worker.agent = s.worker.agent ∧
      t.worker.agentConnecting = s.worker.agentConnecting ∧
      t.worker.remoteSessionID = s.worker.remoteSessionID := by
    intro hb
    rcases closeAgent_cases s.worker a ns with ⟨-, hsame⟩ | ⟨ha, -⟩
    · rw [hworker]
      exact hsame
    · rw [hb] at ha
      exact absurd (some.inj ha) (ne_of_gt hab)
  refine ⟨?_, ?_, ?_, ?_, ?_, ?_⟩
  · rintro ⟨-, hnot⟩
    rw [hcancel]
    exact hnot
  · intro hb
    rw [(hkeep hb).1, hb]
  · intro hb hc
    rw [(hkeep hb).2.1, hc]
  · intro hb
    exact (hkeep hb).2.2
  · intro _ hk
    rw [hworker]
    unfold Worker.closeAgent
    dsimp only
    split <;> exact hk
  · rw [hconn]
    exact id

/-- **One step of an older agent.**  In order, it leaves every newer agent alone. -/
theorem State.Good.undisturbed (h : s.Good) (hok : InOrder s l)
    (hstep : Step s l t) (hl : l.agent = some a) (hab : a < b) : Undisturbed s t b := by
  cases hstep with
  | onNewOffer | close => exact absurd hl (by simp [Label.agent])
  | @connectFails a' _ =>
    obtain rfl := some.inj hl
    refine undisturbed_of_frame hab (fun c hc => ?_) rfl rfl
    rw [cancel, show s.worker.agentDialerCancel = some a' from hok] at hc
    exact (mem_cons.mp hc).symm
  | @connectCloses a' ns _ | @stateCloses a' ns _ =>
    obtain rfl := some.inj hl
    exact undisturbed_of_closeAgent hab rfl rfl rfl
  | connectSucceeds _ => exact undisturbed_of_frame hab (fun c hc => .inl hc) rfl rfl
  | @connectDone a' _ =>
    obtain rfl := some.inj hl
    refine ⟨fun hd => hd.2, id, fun hb hc => ?_, fun _ => rfl, fun _ => id, id⟩
    -- the flag is set for `b`, which is not the agent of this attempt
    rcases hok with ha | hidle
    · rw [hb] at ha
      exact absurd (some.inj ha) (ne_of_gt hab)
    · rw [hidle] at hc
      exact absurd hc (by decide)
  | @connectReady a' taken _ =>
    cases hl
    refine ⟨fun hd => hd.2, id, fun _ => id, fun _ => rfl, fun _ => id, fun hb => ?_⟩
    cases taken with
    | false => exact hb
    | true => exact absurd (hok rfl b (h.conn b hb)) (not_le_of_gt hab)
  | stateConnected _ =>
    exact ⟨fun hd => hd.2, id, fun _ => id, fun _ => rfl, fun _ _ => rfl, id⟩
  | @stateDown a' _ =>
    cases hl
    exact undisturbed_of_frame hab (fun c hc => (mem_cons.mp hc).symm) rfl rfl
  | @stateReports a' sc _ =>
    cases hl
    by_cases hknown : s.worker.lastKnownState = .connected
    · rw [report, if_pos hknown]
      refine ⟨fun hd => hd.2, id, fun _ => id, fun _ => rfl, fun hby _ => ?_, fun hb => ?_⟩
      · exact absurd ((hok hknown).1 b (h.known b hby)) (not_le_of_gt hab)
      · exact absurd ((hok hknown).2 b (h.conn b hb)) (not_le_of_gt hab)
    · rw [report, if_neg hknown]
      exact undisturbed_of_frame hab (fun c hc => .inl hc) rfl rfl

/-! ## Runs -/

/-- Without a call in progress the worker is connecting only while the goroutine of its agent is
running, and every step of an attempt or a callback leaves the newer agents alone. -/
def State.AttemptsApart (ok : State → Label → Prop) (s : State) : Prop :=
  (s.callbacks = [] → s.ConnectingRuns) ∧
  ∀ l t a b, ok s l → Step s l t → l.agent = some a → a < b → Undisturbed s t b

open Transition

/-- **Attempts do not disturb each other** in every run all of whose steps are in order. -/
theorem attempts_do_not_disturb (sessionID : ICESessionID) (labels : List Label) (s : State)
    (hrun : Run Step InOrder (newWorkerICE sessionID) labels s) :
    s.AttemptsApart InOrder := by
  have hgood : s.Good := by
    refine hrun.invariant (P := fun _ s => s.Good) (good_newWorkerICE sessionID) ?_
    intro _ s l t h hok hstep
    exact h.step hok hstep
  refine ⟨fun _ => hgood.connectingRuns, fun l t a b hok hstep hl hab => ?_⟩
  exact hgood.undisturbed hok hstep hl hab

/-- An agent comes up, is replaced by an offer of another session, and reports its end
before the new agent comes up. -/
theorem replaced_agent_ends_in_order : ∃ s : State, Run Step InOrder (newWorkerICE [])
      [.onNewOffer (some [1]) [] true, .stateConnected 0, .connectSucceeds 0, .connectDone 0,
        .connectReady 0 true, .onNewOffer (some [2]) [] true, .stateDown 0, .stateCloses 0 [],
        .stateReports 0 true, .stateConnected 1] s ∧
      s.worker.agent = some 1 ∧ s.AttemptsApart InOrder := by
  exact Run.exists_imp (P := fun s => s.worker.agent = some 1)
    (fun s hrun hagent => ⟨hagent, attempts_do_not_disturb _ _ _ hrun⟩)
    ⟨_, .cons (fun h => absurd h (by decide)) .onNewOffer <|
      .go (.stateConnected (by decide)) <|
      .go (.connectSucceeds (by decide)) <|
      .cons (.inl rfl) (.connectDone (by decide)) <|
      .cons (fun _ b hb => absurd hb not_mem_nil) (.connectReady (by decide)) <|
      .cons (fun h => absurd h (by decide)) .onNewOffer <|
      .go (.stateDown (by decide)) <|
      .go (.stateCloses (by decide)) <|
      .cons (fun _ => ⟨by decide, by decide⟩) (.stateReports (by decide)) <|
      .go (.stateConnected (by decide)) .nil, by decide⟩

/-- `Close` while an attempt is running: the attempt does not find its agent any more and leaves the
worker connecting. -/
theorem closed_worker_connects_forever : ¬ ∀ (labels : List Label) (s : State),
      Run Step (fun _ _ => True) (newWorkerICE []) labels s →
        s.AttemptsApart fun _ _ => True := by
  intro h
  obtain ⟨s, hrun, hquiet, hconnecting, hnone⟩ : ∃ s : State,
      Run Step (fun _ _ => True) (newWorkerICE [])
        [.onNewOffer none [] true, .close, .connectFails 0, .connectCloses 0 []] s ∧
      s.callbacks = [] ∧ s.worker.agentConnecting = true ∧ s.worker.agent = none :=
    ⟨_, .go .onNewOffer <| .go .close <|
      .go (.connectFails (by decide)) <|
      .go (.connectCloses (by decide)) .nil, by decide, by decide, by decide⟩
  obtain ⟨a, pos, hagent, -⟩ := (h _ s hrun).1 hquiet hconnecting
  rw [hnone] at hagent
  exact absurd hagent (by simp)

end WorkerICE
