/-
# Retries of the direct I2P transport

Model of how `client/internal/peer/conn.go` keeps trying to reach a peer over the direct I2P
datagram transport: the attempt that `Open` starts, the goroutine of `scheduleI2PDatagramRetry`, and
the flag that allows one of them at a time.

A retry goroutine outlives `Close`, and only one of its two exits clears the flag.  Nor is anything
scheduled where the attempt of `Open` fails after the connection was made (`retry_pending`).
-/
import AnonBird.Transition
import AnonBird.ActiveTransport

open List

open ActiveTransport (ConnPriority Status ProxyBind)

namespace I2PRetry

open ActiveTransport.Conn

/-! ## State -/

/-- A retry goroutine: in its `select`, watching the context with this number, or inside
`openI2PDatagram`. -/
inductive Retry where
  | waiting (ctx : ℕ)
  | opening
  deriving DecidableEq, Repr

/-- How the set-up of a new connection ends: it succeeds, `newProxy` fails, or the
configuration of the WireGuard endpoint does. -/
inductive SetUp where
  | done
  | proxyFails
  | endpointFails
  deriving DecidableEq, Repr

/-- The transports of a connection with what keeps them alive. `ctx` is the number of the current
context, which is alive while the connection is open. -/
structure Conn (R : Type) extends ActiveTransport.Conn R where
  /-- the answer of `canUseI2PDatagramDirect`, which reads the configuration alone -/
  canUseI2PDatagramDirect : Bool
  opened : Bool
  ctx : ℕ
  i2pDatagramRetryScheduled : Bool
  /-- the goroutine that `Open` starts for `openI2PDatagram` is running -/
  opener : Bool
  /-- the retry goroutines that have not ended -/
  retries : List Retry

variable {R : Type} (conn : Conn R)

/-- `conn.ctx.Err() != nil`. -/
def Conn.ctxErr : Bool := !conn.opened

/-- A new connection object, before its first `Open`. -/
def newConn (transports : ActiveTransport.Conn R) (canUseI2PDatagramDirect : Bool) : Conn R :=
  { toConn := transports
    canUseI2PDatagramDirect := canUseI2PDatagramDirect
    opened := false
    ctx := 0
    i2pDatagramRetryScheduled := false
    opener := false
    retries := [] }

/-! ## The source functions -/

/-- `scheduleI2PDatagramRetry`, up to the `select` of the goroutine it starts. -/
def Conn.scheduleI2PDatagramRetry : Conn R :=
  if conn.ctxErr || !conn.canUseI2PDatagramDirect || conn.statusI2PDatagram = .connected then conn
  else if conn.i2pDatagramRetryScheduled then conn
  else
    { conn with
      i2pDatagramRetryScheduled := true
      retries := .waiting conn.ctx :: conn.retries }

/-- `Open`. -/
def Conn.openConn : Conn R :=
  if conn.opened then conn
  else
    { conn with opened := true, ctx := conn.ctx + 1, opener := conn.canUseI2PDatagramDirect }

/-- `Close`, up to its wait for the goroutines of `Open`. -/
def Conn.closeConn : Conn R :=
  if !conn.opened then conn
  else
    let transports := conn.toConn.closeProxy conn.wgProxyI2PDatagram
    let transports := transports.closeProxy conn.wgProxyRelay
    { conn with
      toConn :=
        { transports with
          wgProxyI2PDatagram := none
          wgProxyRelay := none
          statusRelay := .disconnected
          statusICE := .disconnected
          statusI2PDatagram := .disconnected
          currentConnPriority := .none }
      opened := false }

/-- `openI2PDatagram` when `OpenPeerConn` returns an error. -/
def Conn.openFailed : Conn R :=
  if conn.ctxErr then conn else conn.scheduleI2PDatagramRetry

/-- The datagrams are there; a failed set-up is tried again. -/
def Conn.onI2PDatagramConnectionIsReady (conn : Conn R) (remoteConn : R) (setUp : SetUp) :
    Conn R :=
  if conn.ctxErr then conn
  else
    match setUp with
    | .done => { conn with toConn := conn.toConn.onI2PDatagramConnectionIsReady remoteConn }
    | .proxyFails => conn
    | .endpointFails =>
      -- with a better transport active the endpoint is not configured, so nothing fails
      if conn.currentConnPriority.rank > ConnPriority.i2pDatagram.rank then
        { conn with toConn := conn.toConn.onI2PDatagramConnectionIsReady remoteConn }
      else
        let transports :=
          { conn.toConn with wgProxyRelay := conn.wgProxyRelay.map ProxyBind.pause }
        { conn with toConn := transports.closeConn (transports.newProxy remoteConn) }

/-- The relay is there. -/
def Conn.onRelayConnectionIsReady (conn : Conn R) (remoteConn : R) (setUp : SetUp) : Conn R :=
  if conn.ctxErr then conn
  else
    let ready := { conn with toConn := conn.toConn.onRelayConnectionIsReady remoteConn }
    match setUp with
    | .proxyFails => conn
    | .done =>
      if conn.isICEActive || conn.isI2PDatagramActive then ready
      else ready.scheduleI2PDatagramRetry
    | .endpointFails =>
      if conn.isICEActive || conn.isI2PDatagramActive then ready
      else { conn with toConn := conn.toConn.closeConn (conn.toConn.newProxy remoteConn) }

/-- The datagrams are gone, and a retry is scheduled. -/
def Conn.onI2PDatagramDisconnected : Conn R :=
  if conn.ctxErr then conn
  else
    Conn.scheduleI2PDatagramRetry
      { conn with toConn := conn.toConn.handleI2PDatagramDisconnectedLocked }

/-- The scheduled retry has begun. -/
def Conn.clearI2PDatagramRetryScheduled : Conn R :=
  { conn with i2pDatagramRetryScheduled := false }

/-- The goroutine `r` ends. -/
def Conn.ends (r : Retry) : Conn R :=
  { conn with retries := conn.retries.erase r }

/-- The retry goroutine that watches `ctx` takes the branch of its timer. -/
def Conn.retryFires (ctx : ℕ) : Conn R :=
  if conn.ctxErr || !conn.canUseI2PDatagramDirect || conn.statusI2PDatagram = .connected then
    (conn.ends (.waiting ctx)).clearI2PDatagramRetryScheduled
  else { conn with retries := .opening :: conn.retries.erase (.waiting ctx) }

/-- The retry goroutine after its attempt: it clears the flag and schedules the next
retry if it is still needed. -/
def Conn.afterRetry : Conn R :=
  let conn := (conn.ends .opening).clearI2PDatagramRetryScheduled
  if !conn.ctxErr && conn.statusI2PDatagram ≠ .connected then conn.scheduleI2PDatagramRetry
  else conn

/-! ## Runs -/

/-- Who runs `openI2PDatagram`: the goroutine of `Open`, or a retry goroutine. -/
inductive Attempt where
  | opener
  | retry
  deriving DecidableEq, Repr

/-- The attempt is running. -/
def Conn.Running : Attempt → Prop
  | .opener => conn.opener = true
  | .retry => .opening ∈ conn.retries

/-- What follows on `openI2PDatagram` in the goroutine of the attempt. -/
def Conn.attemptEnds : Attempt → Conn R
  | .opener => { conn with opener := false }
  | .retry => conn.afterRetry

/-- The events of a connection. -/
inductive Event (R : Type) where
  | openConn
  | closeConn
  /-- `OpenPeerConn` returns an error to the attempt -/
  | openError (attempt : Attempt)
  /-- `OpenPeerConn` returns a connection to the attempt -/
  | openReady (attempt : Attempt) (remoteConn : R) (setUp : SetUp)
  | i2pDisconnected
  | relayReady (remoteConn : R) (setUp : SetUp)
  /-- the timer of a retry goroutine -/
  | retryFires (ctx : ℕ)
  /-- a retry goroutine sees its context end -/
  | retryCancelled (ctx : ℕ)

/-- `Close` keeps the connection mutex until the goroutine of `Open` has ended. -/
def Conn.MutexFree : Prop := conn.opened = true ∨ conn.opener = false

/-- One event. -/
inductive Step : Conn R → Event R → Conn R → Prop
  | openConn {conn : Conn R} : conn.MutexFree → Step conn .openConn conn.openConn
  | closeConn {conn : Conn R} : conn.MutexFree → Step conn .closeConn conn.closeConn
  | openError {conn : Conn R} {a} :
      conn.Running a → Step conn (.openError a) (conn.openFailed.attemptEnds a)
  | openReady {conn : Conn R} {a remoteConn setUp} :
      conn.Running a → conn.MutexFree → Step conn (.openReady a remoteConn setUp)
        ((conn.onI2PDatagramConnectionIsReady remoteConn setUp).attemptEnds a)
  | i2pDisconnected {conn : Conn R} :
      conn.MutexFree → Step conn .i2pDisconnected conn.onI2PDatagramDisconnected
  | relayReady {conn : Conn R} {remoteConn setUp} :
      conn.MutexFree → Step conn (.relayReady remoteConn setUp)
        (conn.onRelayConnectionIsReady remoteConn setUp)
  | retryFires {conn : Conn R} {ctx} :
      .waiting ctx ∈ conn.retries → Step conn (.retryFires ctx) (conn.retryFires ctx)
  | retryCancelled {conn : Conn R} {ctx} :
      .waiting ctx ∈ conn.retries → ctx ≠ conn.ctx ∨ conn.ctxErr = true →
        -- this exit leaves the flag as it is
        Step conn (.retryCancelled ctx) (conn.ends (.waiting ctx))

/-! ## What is expected -/

/-- A retry is pending: a goroutine waits for its timer under a context that is alive. -/
def Conn.RetryPending : Prop :=
  conn.opened = true ∧ .waiting conn.ctx ∈ conn.retries

/-- The goroutines that wait for their timer, under any context. -/
def Conn.pendingRetries : List Retry :=
  conn.retries.filter fun r => r ≠ .opening

/-- An open connection without the direct transport and without a running attempt has a
retry pending, and no connection has two. -/
def Conn.RetriesAlive : Prop :=
  (conn.opened = true → conn.statusI2PDatagram ≠ .connected → (∀ a, ¬ conn.Running a) →
    conn.RetryPending) ∧
  conn.pendingRetries.length ≤ 1

/-- `Open` finds no retry left behind: the flag is clear, or its goroutine is in its attempt. The
attempt of `Open` fails in the set-up only while a retry is scheduled or the transport is connected.
-/
def KeepsRetries : Event R → Prop
  | .openConn =>
    conn.opened = true ∨ conn.i2pDatagramRetryScheduled = false ∨ .opening ∈ conn.retries
  | .openReady .opener _ setUp =>
    setUp ≠ .done →
      conn.i2pDatagramRetryScheduled = true ∨ conn.statusI2PDatagram = .connected
  | _ => True

/-! ## What keeps the retries alive -/

/-- The retry goroutine holds the flag: there is at most one, and while the connection is open it is
one of the current context or in its attempt. -/
structure Conn.Held (conn : Conn R) : Prop where
  canUse : conn.canUseI2PDatagramDirect = true
  one : conn.retries = [] ∨ ∃ r, conn.retries = [r] ∧ conn.i2pDatagramRetryScheduled = true
  held : conn.opened = true → conn.i2pDatagramRetryScheduled = true →
    conn.retries = [.waiting conn.ctx] ∨ conn.retries = [.opening]

/-- Besides, an open connection that is not connected and has not its first attempt running
has a retry scheduled. -/
structure Conn.Good (conn : Conn R) : Prop extends conn.Held where
  scheduled : conn.opened = true → conn.statusI2PDatagram ≠ .connected → conn.opener = false →
    conn.i2pDatagramRetryScheduled = true

variable {conn : Conn R}

/-- The flag is not about the transports. -/
theorem Conn.Held.withTransports (h : conn.Held) (transports : ActiveTransport.Conn R) :
    Conn.Held { conn with toConn := transports } :=
  ⟨h.canUse, h.one, h.held⟩

/-- A goroutine of the list is the whole list, and holds the flag. -/
theorem Conn.Held.of_mem (h : conn.Held) {r : Retry} (hr : r ∈ conn.retries) :
    conn.retries = [r] ∧ conn.i2pDatagramRetryScheduled := by
  rcases h.one with hnil | ⟨r', hone, hflag⟩
  · rw [hnil] at hr
    exact absurd hr not_mem_nil
  · rw [hone, mem_singleton] at hr
    exact ⟨hr ▸ hone, hflag⟩

/-- A connection without retry goroutine and with a clear flag. -/
theorem held_idle (hcan : conn.canUseI2PDatagramDirect) (hnil : conn.retries = [])
    (hflag : conn.i2pDatagramRetryScheduled = false) : conn.Held := by
  refine ⟨hcan, .inl hnil, fun _ hset => ?_⟩
  rw [hflag] at hset
  exact absurd hset (by decide)

theorem schedule_frame (conn : Conn R) : conn.scheduleI2PDatagramRetry.toConn = conn.toConn ∧
      conn.scheduleI2PDatagramRetry.opened = conn.opened := by
  unfold Conn.scheduleI2PDatagramRetry
  split
  · exact ⟨rfl, rfl⟩
  · split <;> exact ⟨rfl, rfl⟩

/-- Whoever calls `scheduleI2PDatagramRetry` leaves a retry where one is needed. -/
theorem Conn.Held.schedule (h : conn.Held) : conn.scheduleI2PDatagramRetry.Held ∧ (conn.opened →
      conn.statusI2PDatagram ≠ .connected →
        conn.scheduleI2PDatagramRetry.i2pDatagramRetryScheduled) := by
  unfold Conn.scheduleI2PDatagramRetry
  split
  next hskip =>
    refine ⟨h, fun hopen hconn => ?_⟩
    simp [Conn.ctxErr, hopen, h.canUse, hconn] at hskip
  · split
    next hflag =>
      exact ⟨h, fun _ _ => hflag⟩
    next hflag =>
      -- nobody holds the flag, so there is no other goroutine
      have hnil : conn.retries = [] := by
        rcases h.one with hnil | ⟨_, _, hset⟩
        · exact hnil
        · exact absurd hset hflag
      refine ⟨⟨h.canUse, .inr ⟨.waiting conn.ctx, ?_, rfl⟩, fun _ _ => .inl ?_⟩, fun _ _ => rfl⟩ <;>
        rw [hnil]

theorem Conn.Held.good_schedule (h : conn.Held) : conn.scheduleI2PDatagramRetry.Good := by
  refine ⟨h.schedule.1, fun hopen hconn _ => ?_⟩
  rw [(schedule_frame conn).2] at hopen
  rw [(schedule_frame conn).1] at hconn
  exact h.schedule.2 hopen hconn

/-- A closed connection owes no retry. -/
theorem Conn.Held.good_closed (h : conn.Held) (hclosed : conn.opened = false) : conn.Good := by
  refine ⟨h, fun hopen => ?_⟩
  rw [hclosed] at hopen
  exact absurd hopen (by decide)

theorem Conn.Held.good_connected (h : conn.Held) (hconn : conn.statusI2PDatagram = .connected) :
    conn.Good :=
  ⟨h, fun _ hne => absurd hconn hne⟩

theorem ctxErr_eq_true : conn.ctxErr ↔ conn.opened = false := by
  simp [Conn.ctxErr]

/-! ## The transports -/

variable (t : ActiveTransport.Conn R)

/-- Closing a proxy changes the endpoint table only. -/
theorem status_closeConn (p : ProxyBind R) :
    (t.closeConn p).statusI2PDatagram = t.statusI2PDatagram := by
  unfold closeConn
  split <;> rfl

theorem status_closeProxy (p : Option (ProxyBind R)) :
    (t.closeProxy p).statusI2PDatagram = t.statusI2PDatagram := by
  cases p with
  | none => rfl
  | some q => exact status_closeConn t q

variable (remoteConn : R)

/-- A new direct connection connects the transport, whichever transport is active. -/
theorem status_onI2PDatagramConnectionIsReady :
    (t.onI2PDatagramConnectionIsReady remoteConn).statusI2PDatagram = .connected := by
  unfold onI2PDatagramConnectionIsReady
  split
  · rfl
  · exact status_closeProxy _ _

/-- A new relay connection leaves the direct transport alone. -/
theorem status_onRelayConnectionIsReady :
    (t.onRelayConnectionIsReady remoteConn).statusI2PDatagram = t.statusI2PDatagram := by
  unfold onRelayConnectionIsReady
  split
  · exact status_closeProxy t t.wgProxyRelay
  · exact status_closeProxy _ _

/-! ## One step -/

theorem Conn.Good.openConn (h : conn.Good) (hok : KeepsRetries conn .openConn) :
    conn.openConn.Good := by
  unfold Conn.openConn
  split
  · exact h
  next hclosed =>
    refine ⟨⟨h.canUse, h.one, fun _ hset => .inr ?_⟩, fun _ _ hopener => ?_⟩
    · rcases hok with hopen | hclear | hopening
      · exact absurd hopen hclosed
      · exact absurd hset (by simp [hclear])
      · exact (h.of_mem hopening).1
    · -- the first attempt is running
      exact absurd hopener (by simp [h.canUse])

theorem Conn.Good.closeConn (h : conn.Good) : conn.closeConn.Good := by
  unfold Conn.closeConn
  split
  · exact h
  · apply Conn.Held.good_closed _ rfl
    refine ⟨h.canUse, h.one, fun hopen => ?_⟩
    exact absurd hopen Bool.false_ne_true

/-- An error of `OpenPeerConn` leaves a retry scheduled, whoever made the attempt. -/
theorem Conn.Good.openFailed (h : conn.Good) : conn.openFailed.Held ∧ (conn.openFailed.opened →
      conn.openFailed.statusI2PDatagram ≠ .connected →
        conn.openFailed.i2pDatagramRetryScheduled) := by
  unfold Conn.openFailed
  split
  next herr =>
    refine ⟨h.toHeld, fun hopen => ?_⟩
    rw [ctxErr_eq_true.mp herr] at hopen
    exact absurd hopen (by decide)
  · refine ⟨h.schedule.1, fun hopen hconn => ?_⟩
    rw [(schedule_frame conn).2] at hopen
    rw [(schedule_frame conn).1] at hconn
    exact h.schedule.2 hopen hconn

theorem Conn.Held.opener_ends (h : conn.Held)
    (hsched : conn.opened → conn.statusI2PDatagram ≠ .connected →
      conn.i2pDatagramRetryScheduled) : (conn.attemptEnds .opener).Good :=
  ⟨⟨h.canUse, h.one, h.held⟩, fun hopen hconn _ => hsched hopen hconn⟩

/-- The attempt of a retry goroutine clears the flag, and sets it again with a new goroutine where a
retry is needed. -/
theorem Conn.Held.retry_ends (h : conn.Held) (hr : .opening ∈ conn.retries) :
    (conn.attemptEnds .retry).Good := by
  have hidle : ((conn.ends .opening).clearI2PDatagramRetryScheduled).Held := by
    apply held_idle
    · exact h.canUse
    · show conn.retries.erase .opening = []
      rw [(h.of_mem hr).1]
      rfl
    · rfl
  rw [Conn.attemptEnds, Conn.afterRetry]
  split
  · exact hidle.good_schedule
  next hskip =>
    rw [Bool.and_eq_true, not_and_or] at hskip
    rcases hskip with hclosed | hconn
    · apply hidle.good_closed
      rw [← ctxErr_eq_true]
      simpa using hclosed
    · apply hidle.good_connected
      simpa using hconn

/-- The handler of a new connection keeps the flag, and connects the transport if its
set-up succeeds. -/
theorem Conn.Held.onReady (h : conn.Held) (remoteConn : R) (setUp : SetUp) :
    let new := conn.onI2PDatagramConnectionIsReady remoteConn setUp
    new.Held ∧ new.retries = conn.retries ∧ new.opened = conn.opened ∧
      new.i2pDatagramRetryScheduled = conn.i2pDatagramRetryScheduled := by
  unfold Conn.onI2PDatagramConnectionIsReady
  split
  · exact ⟨h, rfl, rfl, rfl⟩
  · cases setUp with
    | done => exact ⟨h.withTransports _, rfl, rfl, rfl⟩
    | proxyFails => exact ⟨h, rfl, rfl, rfl⟩
    | endpointFails =>
      dsimp only
      split <;> exact ⟨h.withTransports _, rfl, rfl, rfl⟩

/-- A transport that is connected stays so when another connection is made. -/
theorem status_onReady (setUp : SetUp) (hconn : conn.statusI2PDatagram = .connected) :
    (conn.onI2PDatagramConnectionIsReady remoteConn setUp).statusI2PDatagram = .connected := by
  unfold Conn.onI2PDatagramConnectionIsReady
  split
  · exact hconn
  · cases setUp with
    | done => exact status_onI2PDatagramConnectionIsReady _ _
    | proxyFails => exact hconn
    | endpointFails =>
      dsimp only
      split
      · exact status_onI2PDatagramConnectionIsReady _ _
      · rw [status_closeConn]
        exact hconn

section

variable (h : conn.Good)

include h

theorem Conn.Good.opener_ready (remoteConn : R) (setUp : SetUp)
    (hok : KeepsRetries conn (.openReady .opener remoteConn setUp)) :
    ((conn.onI2PDatagramConnectionIsReady remoteConn setUp).attemptEnds .opener).Good := by
  obtain ⟨hheld, -, hopened, hflag⟩ := h.toHeld.onReady remoteConn setUp
  apply hheld.opener_ends
  intro hopen hne
  rw [hflag]
  rw [hopened] at hopen
  by_cases hdone : setUp = .done
  · rw [hdone, Conn.onI2PDatagramConnectionIsReady, if_neg (by simp [Conn.ctxErr, hopen])] at hne
    exact absurd (status_onI2PDatagramConnectionIsReady _ _) hne
  · rcases hok hdone with hset | hconn
    · exact hset
    · exact absurd (status_onReady remoteConn setUp hconn) hne

theorem Conn.Good.relayReady (remoteConn : R) (setUp : SetUp) :
    (conn.onRelayConnectionIsReady remoteConn setUp).Good := by
  -- without a call of the scheduler the direct transport is as it was
  have hready : Conn.Good { conn with
      toConn := conn.toConn.onRelayConnectionIsReady remoteConn } := by
    refine ⟨h.toHeld.withTransports _, ?_⟩
    rw [status_onRelayConnectionIsReady]
    exact h.scheduled
  unfold Conn.onRelayConnectionIsReady
  split
  · exact h
  · cases setUp with
    | proxyFails => exact h
    | done =>
      dsimp only
      split
      · exact hready
      · exact hready.toHeld.good_schedule
    | endpointFails =>
      dsimp only
      split
      · exact hready
      · refine ⟨h.toHeld.withTransports _, ?_⟩
        exact h.scheduled

theorem Conn.Good.i2pDisconnected : conn.onI2PDatagramDisconnected.Good := by
  unfold Conn.onI2PDatagramDisconnected
  split
  · exact h
  · exact (h.toHeld.withTransports _).good_schedule

theorem Conn.Good.retryFires {ctx : ℕ} (hr : .waiting ctx ∈ conn.retries) :
    (conn.retryFires ctx).Good := by
  obtain ⟨hone, hflag⟩ := h.of_mem hr
  unfold Conn.retryFires
  split
  next hskip =>
    have hidle : ((conn.ends (.waiting ctx)).clearI2PDatagramRetryScheduled).Held := by
      apply held_idle
      · exact h.canUse
      · show conn.retries.erase (.waiting ctx) = []
        rw [hone]
        exact erase_cons_head ..
      · rfl
    simp only [h.canUse, Bool.not_true, Bool.or_false, Bool.or_eq_true, decide_eq_true_eq] at hskip
    rcases hskip with hclosed | hconn
    · exact hidle.good_closed (ctxErr_eq_true.mp hclosed)
    · exact hidle.good_connected hconn
  · have hlist : Retry.opening :: conn.retries.erase (.waiting ctx) = [.opening] := by
      rw [hone]
      simp
    exact ⟨⟨h.canUse, .inr ⟨_, hlist, hflag⟩, fun _ _ => .inr hlist⟩, h.scheduled⟩

/-- On an open connection the context of a waiting goroutine is the current one, so the exit that
forgets the flag is not taken. -/
theorem Conn.Good.retryCancelled {ctx : ℕ} (hr : .waiting ctx ∈ conn.retries)
    (hdone : ctx ≠ conn.ctx ∨ conn.ctxErr) : (conn.ends (.waiting ctx)).Good := by
  obtain ⟨hone, hflag⟩ := h.of_mem hr
  have hclosed : conn.opened = false := by
    rcases hdone with hne | herr
    · by_contra hopen
      rw [Bool.not_eq_false] at hopen
      rcases h.held hopen hflag with hwait | hopening
      · rw [hwait, mem_singleton, Retry.waiting.injEq] at hr
        exact hne hr
      · rw [hopening, mem_singleton] at hr
        exact absurd hr (by simp)
    · exact ctxErr_eq_true.mp herr
  have hnil : conn.retries.erase (.waiting ctx) = [] := by
    rw [hone]
    exact erase_cons_head ..
  refine Conn.Held.good_closed ⟨h.canUse, .inl hnil, fun hopen => ?_⟩ hclosed
  exact absurd (hclosed.symm.trans hopen) (by decide)

/-- **One event.**  Every event that meets the condition keeps the retries alive. -/
theorem Conn.Good.step {conn' : Conn R} {e : Event R} (hok : KeepsRetries conn e)
    (hstep : Step conn e conn') : conn'.Good := by
  cases hstep with
  | openConn => exact h.openConn hok
  | closeConn => exact h.closeConn
  | @openError a hrun =>
    cases a with
    | opener => exact h.openFailed.1.opener_ends h.openFailed.2
    | retry =>
      -- the goroutine holds the flag, so the call inside of the attempt does nothing
      have hsame : conn.openFailed = conn := by
        unfold Conn.openFailed Conn.scheduleI2PDatagramRetry
        rw [if_pos (h.of_mem hrun).2, ite_self, ite_self]
      rw [hsame]
      exact h.retry_ends hrun
  | @openReady a remoteConn setUp hrun =>
    cases a with
    | opener => exact h.opener_ready remoteConn setUp hok
    | retry =>
      obtain ⟨hheld, hretries, -⟩ := h.toHeld.onReady remoteConn setUp
      apply hheld.retry_ends
      rw [hretries]
      exact hrun
  | i2pDisconnected => exact h.i2pDisconnected
  | @relayReady remoteConn setUp => exact h.relayReady remoteConn setUp
  | retryFires hr => exact h.retryFires hr
  | retryCancelled hr hdone => exact h.retryCancelled hr hdone

omit h in
theorem good_newConn (transports : ActiveTransport.Conn R) : (newConn transports true).Good :=
  (held_idle rfl rfl rfl).good_closed rfl

theorem Conn.Good.retriesAlive : conn.RetriesAlive := by
  refine ⟨fun hopen hne hidle => ⟨hopen, ?_⟩, ?_⟩
  · have hopener : conn.opener = false := by
      rw [← Bool.not_eq_true]
      exact hidle .opener
    rcases h.held hopen (h.scheduled hopen hne hopener) with hwait | hopening
    · rw [hwait]
      exact mem_singleton_self _
    · exact absurd (by rw [Conn.Running, hopening]; exact mem_singleton_self _) (hidle .retry)
  · apply (length_filter_le _ _).trans
    rcases h.one with hnil | ⟨r, hone, -⟩
    · simp [hnil]
    · simp [hone]

end

/-- **Retries stay alive.** If `Open` finds no retry left behind and its attempt does not fail in
the set-up with no retry scheduled, an open connection that is not connected and has no attempt
running has a retry pending, and never more than one. -/
theorem retry_pending (transports : ActiveTransport.Conn R) (events : List (Event R))
    (conn : Conn R)
    (hrun : Transition.Run Step KeepsRetries (newConn transports true) events conn) :
    conn.RetriesAlive := by
  apply Conn.Good.retriesAlive
  refine hrun.invariant (P := fun _ conn => conn.Good) (good_newConn transports) ?_
  intro _ conn e conn' h hok hstep
  exact h.step hok hstep

/-- A peer at 100.80.0.20, without a transport. -/
def idlePeer : ActiveTransport.Conn ℕ := opened (.v4 0x64500014#32) []

/-- The first attempt fails, and so does its retry: the next retry is pending. -/
theorem retry_pending_after_two_errors : Transition.Run Step KeepsRetries (newConn idlePeer true)
        [.openConn, .openError .opener, .retryFires 1, .openError .retry]
        ((((newConn idlePeer true).openConn.openFailed.attemptEnds .opener).retryFires
          1).openFailed.attemptEnds .retry) ∧
      ((((newConn idlePeer true).openConn.openFailed.attemptEnds .opener).retryFires
          1).openFailed.attemptEnds .retry).RetriesAlive := by
  refine (and_iff_left_of_imp (retry_pending _ _ _)).mpr ?_
  refine .cons (.inr (.inl rfl)) (.openConn (.inr rfl)) ?_
  refine .go (.openError rfl) ?_
  refine .go (.retryFires (mem_singleton_self _)) ?_
  refine .go (.openError (mem_singleton_self _)) ?_
  exact .nil

/-- A connection is closed while a retry waits, and opened again: the first attempt fails, and the
flag that was left behind stops every retry. -/
theorem reopened_conn_never_retries : ¬ ∀ (events : List (Event ℕ)) (conn : Conn ℕ),
      Transition.Run Step (fun _ _ => True) (newConn idlePeer true) events conn →
        conn.RetriesAlive := by
  intro h
  have hrun : Transition.Run Step (fun _ _ => True) (newConn idlePeer true)
      [.openConn, .openError .opener, .closeConn, .retryCancelled 1, .openConn, .openError .opener]
      ((((newConn idlePeer true).openConn.openFailed.attemptEnds .opener).closeConn.ends
        (.waiting 1)).openConn.openFailed.attemptEnds .opener) := by
    refine .go (.openConn (.inr rfl)) ?_
    refine .go (.openError rfl) ?_
    refine .go (.closeConn (.inl rfl)) ?_
    refine .go (.retryCancelled (mem_singleton_self _) (.inr rfl)) ?_
    refine .go (.openConn (.inr rfl)) ?_
    refine .go (.openError rfl) ?_
    exact .nil
  have hpending := (h _ _ hrun).1 rfl (by decide) (by
    intro a
    cases a with
    | opener => exact Bool.false_ne_true
    | retry => exact not_mem_nil)
  exact absurd hpending.2 not_mem_nil

end I2PRetry
