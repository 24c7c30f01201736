/-
# Opening and closing a peer connection

Model of how `Open`, `Close` and the goroutines of a connection in `client/internal/peer/conn.go`
wait for each other.  `Close` takes the connection mutex, cancels the context, and waits for the
tracked goroutines while it holds the mutex; one of them, the opener of the direct I2P transport,
takes the mutex when it has a connection.

Every call and every goroutine is a thread with a program counter; taking and releasing the mutex
and the operations on the wait groups are the atomic steps.  What the threads do besides is left
out: it neither waits for the mutex nor for a wait group.
-/
import AnonBird.Fairness

open Fairness

namespace ConnClose

/-! ## Threads -/

/-- What a thread does under the connection mutex. -/
inductive Region where
  | openConn
  | close
  /-- an event handler -/
  | handler
  /-- `onI2PDatagramConnectionIsReady` in the goroutine of `Open` -/
  | opener (ctx : ℕ)
  /-- a callback of a watcher, which is the last one if the watcher ends with it -/
  | watcher (ctx : ℕ) (last : Bool)
  deriving DecidableEq

/-- The two tracked goroutines that run until their context ends. -/
inductive Loop where
  | listener
  | guard
  deriving DecidableEq

/-- Program counters.  A goroutine carries the number of the context it runs under. -/
inductive PC where
  | idle
  | returned
  /-- waits for the mutex -/
  | lock (region : Region)
  /-- holds the mutex -/
  | hold (region : Region)
  /-- `Open` before it releases the mutex -/
  | openEnd
  /-- `Close` in `conn.wg.Wait()`, holding the mutex -/
  | closeWait
  /-- `Close` before it releases the mutex -/
  | closeEnd
  /-- `Close` in `conn.wgWatcherWg.Wait()` -/
  | closeWatchers
  | loop (kind : Loop) (ctx : ℕ)
  /-- the opener in `OpenPeerConn` -/
  | opening (ctx : ℕ)
  /-- the opener before `conn.wg.Done()` -/
  | openerEnd
  | watching (ctx : ℕ)
  /-- a watcher before `conn.wgWatcherWg.Done()` -/
  | watcherEnd
  deriving DecidableEq

/-- The thread holds the mutex. -/
def PC.holds : PC → Bool
  | .hold _ => true
  | .openEnd => true
  | .closeWait => true
  | .closeEnd => true
  | _ => false

/-- The thread is counted by `conn.wg`. -/
def PC.tracked : PC → Bool
  | .loop _ _ => true
  | .opening _ => true
  | .lock (.opener _) => true
  | .hold (.opener _) => true
  | .openerEnd => true
  | _ => false

/-- The thread is counted by `conn.wgWatcherWg`. -/
def PC.watches : PC → Bool
  | .watching _ => true
  | .lock (.watcher _ _) => true
  | .hold (.watcher _ _) => true
  | .watcherEnd => true
  | _ => false

/-- The context of a goroutine. -/
def PC.ctxOf : PC → Option ℕ
  | .loop _ c => some c
  | .opening c => some c
  | .lock (.opener c) => some c
  | .hold (.opener c) => some c
  | .watching c => some c
  | .lock (.watcher c _) => some c
  | .hold (.watcher c _) => some c
  | _ => none

/-- Where a thread goes when it releases the mutex. -/
def PC.released : PC → Option PC
  | .openEnd => some .returned
  | .closeEnd => some .closeWatchers
  | .hold .handler => some .returned
  | .hold (.opener _) => some .openerEnd
  | .hold (.watcher c last) => some (if last then .watcherEnd else .watching c)
  | _ => none

/-- The parts that may start a watcher. -/
def Region.isHandler : Region → Bool
  | .handler => true
  | .opener _ => true
  | .watcher _ _ => true
  | _ => false

/-! ## State -/

/-- The connection and the threads that run calls on it. -/
structure State where
  mu : Option ℕ
  opened : Bool
  /-- the answer of `canUseI2PDatagramDirect` -/
  canUseI2PDatagramDirect : Bool
  /-- the number of the context of the connection -/
  ctx : ℕ
  /-- the contexts that have not been cancelled -/
  live : List ℕ
  wg : List ℕ
  wgWatcherWg : List ℕ
  /-- the number of the next thread -/
  next : ℕ
  pc : ℕ → PC

/-- A new connection. -/
def newConn (canUseI2PDatagramDirect : Bool) : State where
  mu := none
  opened := false
  canUseI2PDatagramDirect := canUseI2PDatagramDirect
  ctx := 0
  live := []
  wg := []
  wgWatcherWg := []
  next := 0
  pc := fun _ => .idle

variable (s : State)

/-- The thread `i` moves on. -/
def State.set (i : ℕ) (p : PC) : State := { s with pc := Function.update s.pc i p }

/-- A new thread. -/
def State.spawn (p : PC) : State := { s.set s.next p with next := s.next + 1 }

/-- A new goroutine that `conn.wg` counts. -/
def State.track (p : PC) : State := { s.spawn p with wg := s.next :: s.wg }

/-- A new goroutine that `conn.wgWatcherWg` counts. -/
def State.watch (p : PC) : State :=
  { s.spawn p with wgWatcherWg := s.next :: s.wgWatcherWg }

/-- A new context for the connection. -/
def State.newContext (opened : Bool) : State :=
  { s with ctx := s.ctx + 1, live := (s.ctx + 1) :: s.live, opened := opened }

/-- The part of `Open` under the mutex.  It fails when the ICE worker cannot be made, after
it has replaced the context. -/
def State.openBody (fails : Bool) : State :=
  if s.opened then s
  else if fails then s.newContext false
  else
    let s := s.newContext true
    let s := s.track (.loop .listener s.ctx)
    let s := s.track (.loop .guard s.ctx)
    if s.canUseI2PDatagramDirect then s.track (.opening s.ctx) else s

/-- What `Close` does to the context of an open connection. -/
def State.cancelContext : State :=
  { s with opened := false, live := s.live.filter (· ≠ s.ctx) }

/-- The part of `Close` before its first wait. -/
def State.closeBody (i : ℕ) : State :=
  if s.opened then s.cancelContext.set i .closeWait else s.set i .closeEnd

/-! ## Steps -/

/-- The calls that come from outside. -/
inductive Call where
  | openConn
  | close
  | handler
  deriving DecidableEq

/-- What a call does under the mutex. -/
def Call.region : Call → Region
  | .openConn => .openConn
  | .close => .close
  | .handler => .handler

/-- What a thread does in a step. -/
inductive Label where
  | call (call : Call)
  | acquire (i : ℕ)
  | release (i : ℕ)
  | openBody (i : ℕ) (fails : Bool)
  | closeBody (i : ℕ)
  /-- `conn.wg.Wait()` returns -/
  | wgDone (i : ℕ)
  /-- `conn.wgWatcherWg.Wait()` returns -/
  | watchersDone (i : ℕ)
  /-- `OpenPeerConn` returns an error -/
  | openError (i : ℕ)
  /-- `OpenPeerConn` returns a connection -/
  | openReady (i : ℕ)
  /-- `conn.wg.Done()` -/
  | trackedEnds (i : ℕ)
  /-- the holder of the mutex starts a watcher -/
  | startWatcher (i : ℕ)
  /-- a watcher calls a handler -/
  | watcherCalls (i : ℕ) (last : Bool)
  /-- a watcher finds that another one is enabled -/
  | watcherStops (i : ℕ)
  /-- `conn.wgWatcherWg.Done()` -/
  | watcherEnds (i : ℕ)
  deriving DecidableEq

/-- A tracked goroutine has nothing left to do. -/
def PC.trackedDone (live : List ℕ) : PC → Bool
  | .loop _ c => c ∉ live
  | .openerEnd => true
  | _ => false

/-- A watcher has nothing left to do. -/
def PC.watcherDone (live : List ℕ) : PC → Bool
  | .watching c => c ∉ live
  | .watcherEnd => true
  | _ => false

/-- One step. -/
inductive Step : State → Label → State → Prop
  | call {s : State} (c : Call) : Step s (.call c) (s.spawn (.lock c.region))
  | acquire {s : State} {i r} :
      s.pc i = .lock r → s.mu = none →
      Step s (.acquire i) { s.set i (.hold r) with mu := some i }
  | release {s : State} {i p} :
      (s.pc i).released = some p →
      Step s (.release i) { s.set i p with mu := none }
  | openBody {s : State} {i fails} :
      s.pc i = .hold .openConn →
      Step s (.openBody i fails) ((s.set i .openEnd).openBody fails)
  | closeBody {s : State} {i} :
      s.pc i = .hold .close →
      Step s (.closeBody i) (s.closeBody i)
  | wgDone {s : State} {i} :
      s.pc i = .closeWait → s.wg = [] →
      Step s (.wgDone i) (s.set i .closeEnd)
  | watchersDone {s : State} {i} :
      s.pc i = .closeWatchers → s.wgWatcherWg = [] →
      Step s (.watchersDone i) (s.set i .returned)
  | openError {s : State} {i c} :
      s.pc i = .opening c →
      Step s (.openError i) (s.set i .openerEnd)
  | openReady {s : State} {i c} :
      s.pc i = .opening c →
      Step s (.openReady i) (s.set i (.lock (.opener c)))
  | trackedEnds {s : State} {i} :
      (s.pc i).trackedDone s.live = true →
      Step s (.trackedEnds i) { s.set i .returned with wg := s.wg.filter (· ≠ i) }
  | startWatcher {s : State} {i r} :
      s.pc i = .hold r → r.isHandler = true →
      -- a handler that finds its context ended returns at once
      s.ctx ∈ s.live → Step s (.startWatcher i) (s.watch (.watching s.ctx))
  | watcherCalls {s : State} {i c last} :
      s.pc i = .watching c →
      Step s (.watcherCalls i last) (s.set i (.lock (.watcher c last)))
  | watcherStops {s : State} {i c} :
      s.pc i = .watching c →
      Step s (.watcherStops i) (s.set i .watcherEnd)
  | watcherEnds {s : State} {i} :
      (s.pc i).watcherDone s.live = true →
      Step s (.watcherEnds i)
        { s.set i .returned with wgWatcherWg := s.wgWatcherWg.filter (· ≠ i) }

/-- The steps that the program takes of itself when it can; calls from outside, the result of
`OpenPeerConn` and what handlers and watchers choose to do are not among them. -/
def Progress : Label → Prop
  | .call _ => False
  | .openReady _ => False
  | .startWatcher _ => False
  | .watcherCalls _ _ => False
  | .watcherStops _ => False
  | _ => True

/-! ## What is expected -/

/-- The thread `i` waits for the thread `j`: for the mutex that `j` holds, or for its end. -/
def State.WaitsFor (i j : ℕ) : Prop :=
  ((∃ r, s.pc i = .lock r) ∧ s.mu = some j) ∨
    (s.pc i = .closeWait ∧ j ∈ s.wg) ∨
    (s.pc i = .closeWatchers ∧ j ∈ s.wgWatcherWg)

/-- A call of `Close` that holds the mutex. -/
def PC.Closing (p : PC) : Prop := p = .hold .close ∨ p = .closeWait ∨ p = .closeEnd

/-- No `Close` that holds the mutex waits, through any chain, for a thread that waits for the
mutex. -/
def State.DeadlockFree : Prop :=
  ∀ i j, (s.pc i).Closing → Relation.ReflTransGen s.WaitsFor i j → ¬ ∃ r, s.pc j = .lock r

/-- The connection of the opener does not meet a `Close`, and watchers are started on an open
connection while no `Close` waits for watchers. -/
def CloseUndisturbed : Label → Prop
  | .acquire i => s.pc i = .lock .close → ∀ j c, s.pc j ≠ .lock (.opener c)
  | .openReady _ => ∀ i, ¬ (s.pc i).Closing
  | .startWatcher _ => s.opened = true ∧ ∀ i, s.pc i ≠ .closeWatchers
  | _ => True

/-! ## The invariant -/

/-- What holds in every state that undisturbed steps reach. -/
structure State.Good (s : State) : Prop where
  fresh : ∀ i, s.next ≤ i → s.pc i = .idle
  /-- the mutex has the one holder it names -/
  mutex : ∀ i, (s.pc i).holds = true ↔ s.mu = some i
  tracked : ∀ i, i ∈ s.wg ↔ (s.pc i).tracked = true
  watchers : ∀ i, i ∈ s.wgWatcherWg ↔ (s.pc i).watches = true
  /-- a goroutine whose context is alive runs under the current one, on an open connection -/
  contexts : ∀ i c, (s.pc i).ctxOf = some c →
    c ≤ s.ctx ∧ (c ∈ s.live → s.opened = true ∧ c = s.ctx)
  closing : ∀ i, s.pc i = .closeWait ∨ s.pc i = .closeEnd → s.opened = false
  /-- no opener waits for the mutex under a `Close` -/
  handOver : ∀ i, (s.pc i).Closing → ∀ j c, s.pc j ≠ .lock (.opener c)
  /-- a `Close` that waits for watchers waits for such whose context has ended -/
  ending : ∀ i, s.pc i = .closeWatchers →
    ∀ j c, (s.pc j).watches = true → (s.pc j).ctxOf = some c → c ∉ s.live

open PC

theorem good_newConn (canUse : Bool) : (newConn canUse).Good where
  fresh _ _ := rfl
  mutex i := by simp [newConn, holds]
  tracked i := by simp [newConn, tracked]
  watchers i := by simp [newConn, watches]
  contexts i c h := absurd h (by simp [newConn, ctxOf])
  closing i h := absurd h (by simp [newConn])
  handOver i h := absurd h (by simp [newConn, Closing])
  ending i h := absurd h (by simp [newConn])

theorem pc_set (i j : ℕ) (p : PC) : (s.set i p).pc j = if j = i then p else s.pc j := by
  simp [State.set, Function.update_apply]

/-- What a thread keeps when it releases the mutex. -/
theorem PC.of_released {p q : PC} (h : p.released = some q) : p.holds ∧ q.holds = false ∧
    q.tracked = p.tracked ∧ q.watches = p.watches ∧ (∀ c, q.ctxOf = some c → p.ctxOf = some c) ∧
    (∀ r, q ≠ .lock r) ∧ (q = .closeWatchers → p = .closeEnd) := by
  unfold released at h
  split at h
  case h_5 c last =>
    cases h
    cases last with
    | true | false => exact ⟨rfl, rfl, rfl, rfl, by simp [ctxOf], by simp, by simp⟩
  case h_6 => exact absurd h (by simp)
  all_goals
    cases h
    exact ⟨rfl, rfl, rfl, rfl, by simp [ctxOf], by simp, by simp⟩

variable {s : State} {i : ℕ} (h : s.Good)

include h

namespace State.Good

theorem lt_next (hi : s.pc i ≠ .idle) : i < s.next := by
  by_contra hge
  exact hi (h.fresh i (Nat.le_of_not_lt hge))

variable {m : Option ℕ} {w v : List ℕ}

/-- **A thread goes to `q`.**  The next thread is `n` then, the mutex is `m`, and `w` and `v` are
the wait groups. -/
theorem goes {q : PC} {n : ℕ}
    (hfresh : ∀ j, n ≤ j → j ≠ i ∧ s.next ≤ j) (hmu : q.holds ↔ m = some i)
    (hmu' : ∀ j, j ≠ i → (m = some j ↔ s.mu = some j)) (hwg : i ∈ w ↔ q.tracked)
    (hwg' : ∀ j, j ≠ i → (j ∈ w ↔ j ∈ s.wg)) (hwatchers : i ∈ v ↔ q.watches)
    (hwatchers' : ∀ j, j ≠ i → (j ∈ v ↔ j ∈ s.wgWatcherWg))
    (hctx : ∀ c, q.ctxOf = some c → c ≤ s.ctx ∧ (c ∈ s.live → s.opened ∧ c = s.ctx))
    (hclosing : q = .closeWait ∨ q = .closeEnd → s.opened = false)
    (hhand : q.Closing → ∀ j c, s.pc j ≠ .lock (.opener c))
    (hopener : ∀ c, q = .lock (.opener c) → ∀ j, ¬ (s.pc j).Closing)
    (hending : q = .closeWatchers → s.opened = false)
    (hwatch : q.watches → ∀ j, s.pc j = .closeWatchers → ∀ c, q.ctxOf = some c → c ∉ s.live) :
    Good { s.set i q with next := n, mu := m, wg := w, wgWatcherWg := v } := by
  have hcontexts : ∀ j c, ((s.set i q).pc j).ctxOf = some c →
      c ≤ s.ctx ∧ (c ∈ s.live → s.opened ∧ c = s.ctx) := by
    intro j c hc
    rw [pc_set] at hc
    split at hc
    · exact hctx c hc
    · exact h.contexts j c hc
  refine ⟨fun j hj => ?_, fun j => ?_, fun j => ?_, fun j => ?_, hcontexts, fun j hj => ?_,
    fun j hj k c => ?_, fun j hj k c hw hc hlive => ?_⟩
  · obtain ⟨hne, hle⟩ := hfresh j hj
    rw [pc_set, if_neg hne]
    exact h.fresh j hle
  · show ((s.set i q).pc j).holds ↔ m = some j
    rw [pc_set]
    split
    next hj =>
      rw [hj, hmu]
    next hj =>
      rw [hmu' j hj, h.mutex j]
  · show j ∈ w ↔ ((s.set i q).pc j).tracked
    rw [pc_set]
    split
    next hj =>
      rw [hj, hwg]
    next hj =>
      rw [hwg' j hj, h.tracked j]
  · show j ∈ v ↔ ((s.set i q).pc j).watches
    rw [pc_set]
    split
    next hj =>
      rw [hj, hwatchers]
    next hj =>
      rw [hwatchers' j hj, h.watchers j]
  · change (s.set i q).pc j = _ ∨ (s.set i q).pc j = _ at hj
    rw [pc_set] at hj
    split at hj
    · exact hclosing hj
    · exact h.closing j hj
  · change ((s.set i q).pc j).Closing at hj
    rw [pc_set] at hj ⊢
    split at hj
    · split
      · rintro rfl
        exact absurd hj (by simp [Closing])
      · exact hhand hj k c
    · split
      · -- an opener starts to wait only while nobody closes
        exact fun hq => hopener c hq j hj
      · exact h.handOver j hj k c
  · have hopened := ((hcontexts k c hc).2 hlive).1
    rw [pc_set] at hj hw hc
    split at hj
    · rw [hending hj] at hopened
      exact absurd hopened (by decide)
    · by_cases hk : k = i
      · rw [if_pos hk] at hw hc
        exact hwatch hw j hj c hc hlive
      · rw [if_neg hk] at hw hc
        exact h.ending j hj k c hw hc hlive

variable {p q : PC}

section

variable (hp : s.pc i = p) (hidle : p ≠ .idle) (htracked : q.tracked = p.tracked)
  (hwatches : q.watches = p.watches) (hctx : ∀ c, q.ctxOf = some c → p.ctxOf = some c)
  (hopener : ∀ c, q = .lock (.opener c) → ∀ j, ¬ (s.pc j).Closing)

include hp hidle htracked hwatches hctx hopener

/-- **A thread moves on** from `p` to `q`, and the mutex from `s.mu` to `m`.  The move
keeps the wait groups and the context of the thread. -/
theorem move (hmu : q.holds ↔ m = some i)
    (hmu' : ∀ j, j ≠ i → (m = some j ↔ s.mu = some j))
    (hclosing : q = .closeWait ∨ q = .closeEnd → s.opened = false)
    (hhand : q.Closing → p.Closing ∨ ∀ j c, s.pc j ≠ .lock (.opener c))
    (hending : q = .closeWatchers → s.opened = false) : Good { s.set i q with mu := m } := by
  subst hp
  refine h.goes (w := s.wg) (v := s.wgWatcherWg) (fun j hj => ⟨?_, hj⟩) hmu hmu'
    (by rw [h.tracked, htracked]) (fun _ _ => Iff.rfl) (by rw [h.watchers, hwatches])
    (fun _ _ => Iff.rfl) (fun c hc => h.contexts i c (hctx c hc)) hclosing
    (fun hq => (hhand hq).elim (h.handOver i) id) hopener hending ?_
  · rintro rfl
    exact hidle (h.fresh j hj)
  · intro hw j hj c hc
    exact h.ending j hj i c (hwatches ▸ hw) (hctx c hc)

theorem moveOut (hqf : q.holds = false) (hmu : m ≠ some i)
    (hmu' : ∀ j, j ≠ i → (m = some j ↔ s.mu = some j))
    (hending : q = .closeWatchers → s.opened = false) : Good { s.set i q with mu := m } := by
  refine h.move hp hidle htracked hwatches hctx hopener (by simp [hqf, hmu]) hmu' ?_ ?_ hending
  · rintro (rfl | rfl)
    · exact absurd hqf (by decide)
    · exact absurd hqf (by decide)
  · rintro (rfl | rfl | rfl)
    · exact absurd hqf (by decide)
    · exact absurd hqf (by decide)
    · exact absurd hqf (by decide)

/-- A move that leaves the mutex alone, between two places that do not hold it. -/
theorem moveFree (hpf : p.holds = false) (hqf : q.holds = false)
    (hwait : q ≠ .closeWatchers) : (s.set i q).Good := by
  refine h.moveOut hp hidle htracked hwatches hctx hopener hqf ?_ (fun _ _ => Iff.rfl)
    (fun hq => absurd hq hwait)
  rw [ne_eq, ← h.mutex, hp, hpf]
  decide

end

/-- **A new thread** that neither holds nor closes anything; `w` and `v` are the wait groups
with it, where they count it. -/
theorem spawn {p : PC} (hholds : p.holds = false)
    (hclosing : ¬ p.Closing) (hwatch : p ≠ .closeWatchers) (hopener : ∀ c, p ≠ .lock (.opener c))
    (hwg : ∀ j, j ∈ w ↔ (j = s.next ∧ p.tracked) ∨ j ∈ s.wg)
    (hwatchers : ∀ j, j ∈ v ↔ (j = s.next ∧ p.watches) ∨ j ∈ s.wgWatcherWg)
    (hctx : ∀ c, p.ctxOf = some c → c = s.ctx ∧ s.opened)
    (hending : p.watches → ∀ j, s.pc j ≠ .closeWatchers) :
    Good { s.spawn p with wg := w, wgWatcherWg := v } := by
  have hnext : s.pc s.next = .idle := h.fresh s.next le_rfl
  refine h.goes (n := s.next + 1) (m := s.mu) (fun j hj => ⟨by omega, by omega⟩) ?_
    (fun _ _ => Iff.rfl) ?_ (fun j hj => ?_) ?_ (fun j hj => ?_) (fun c hc => ?_) (fun hp => ?_)
    (fun hp => absurd hp hclosing) (fun c hp => absurd hp (hopener c))
    (fun hp => absurd hp hwatch) (fun hw j hj => absurd hj (hending hw j))
  · rw [hholds, ← h.mutex, hnext]
    rfl
  · rw [hwg, h.tracked, hnext]
    simp [PC.tracked]
  · simp [hwg, hj]
  · rw [hwatchers, h.watchers, hnext]
    simp [watches]
  · simp [hwatchers, hj]
  · obtain ⟨rfl, hopened⟩ := hctx c hc
    exact ⟨le_rfl, fun _ => ⟨hopened, rfl⟩⟩
  · rcases hp with rfl | rfl <;> exact absurd hholds (by simp [holds])

/-- **A goroutine ends** that one of the wait groups counts, with no mutex to hold. -/
theorem ends (hidle : s.pc i ≠ .idle)
    (hholds : (s.pc i).holds = false) (hwg : i ∉ w) (hwg' : ∀ j, j ≠ i → (j ∈ w ↔ j ∈ s.wg))
    (hwatchers : i ∉ v) (hwatchers' : ∀ j, j ≠ i → (j ∈ v ↔ j ∈ s.wgWatcherWg)) :
    Good { s.set i .returned with wg := w, wgWatcherWg := v } := by
  refine h.goes (m := s.mu) (fun j hj => ⟨?_, hj⟩) ?_ (fun _ _ => Iff.rfl)
    (by simpa [PC.tracked] using hwg) hwg' (by simpa [PC.watches] using hwatchers) hwatchers'
    (by simp [PC.ctxOf]) (by simp) (by simp [PC.Closing]) (by simp) (by simp) (by simp [PC.watches])
  · rintro rfl
    exact hidle (h.fresh j hj)
  · rw [← h.mutex, hholds]
    rfl

/-- A closed connection gets a new context, while no `Close` is behind its first part. -/
theorem newContext (hclosed : s.opened = false)
    (hnone : ∀ i, ¬ (s.pc i = .closeWait ∨ s.pc i = .closeEnd)) (opened : Bool) :
    (s.newContext opened).Good := by
  refine { h with
    contexts := fun i c hc => ?_, closing := fun i hi => absurd hi (hnone i)
    ending := fun i hi j c hw hc hmem => ?_ }
  · obtain ⟨hle, hlive⟩ := h.contexts i c hc
    refine ⟨Nat.le_succ_of_le hle, fun hmem => ?_⟩
    rcases List.mem_cons.mp hmem with rfl | hold
    · exact absurd hle (by omega)
    · -- a live context is that of an open connection
      exact absurd (hclosed.symm.trans (hlive hold).1) (by decide)
  · rcases List.mem_cons.mp hmem with rfl | hold
    · exact absurd (h.contexts j _ hc).1 (by omega)
    · exact h.ending i hi j c hw hc hold

/-- `Close` cancels the context of the connection: every goroutine is to end now. -/
theorem cancelContext : s.cancelContext.Good := by
  refine { h with
    contexts := fun i c hc => ?_, closing := fun _ _ => rfl
    ending := fun i hi j c hw hc hmem => ?_ }
  · obtain ⟨hle, hlive⟩ := h.contexts i c hc
    refine ⟨hle, fun hmem => ?_⟩
    simp only [State.cancelContext, List.mem_filter, decide_eq_true_eq] at hmem
    exact absurd (hlive hmem.1).2 hmem.2
  · simp only [State.cancelContext, List.mem_filter] at hmem
    exact h.ending i hi j c hw hc hmem.1

/-! ## One step -/

theorem holder_unique {j : ℕ} (hi : (s.pc i).holds)
    (hj : (s.pc j).holds) : i = j :=
  Option.some.inj (((h.mutex i).mp hi).symm.trans ((h.mutex j).mp hj))

theorem track (p : PC) (hopened : s.opened)
    (hp : (∃ kind, p = .loop kind s.ctx) ∨ p = .opening s.ctx) : (s.track p).Good := by
  obtain ⟨hholds, hclosing, hwatch, hopener, htracked, hwatches, hctx⟩ : p.holds = false ∧
      ¬ p.Closing ∧ p ≠ .closeWatchers ∧ (∀ c, p ≠ .lock (.opener c)) ∧ p.tracked ∧
      p.watches = false ∧ p.ctxOf = some s.ctx := by
    rcases hp with ⟨kind, rfl⟩ | rfl <;>
      exact ⟨rfl, by simp [Closing], by simp, by simp, rfl, rfl, rfl⟩
  refine h.spawn (v := s.wgWatcherWg) hholds hclosing hwatch hopener (by simp [htracked])
    (by simp [hwatches]) (fun c hc => ⟨?_, hopened⟩) (by simp [hwatches])
  exact Option.some.inj (hc.symm.trans hctx)

theorem openBody (hi : s.pc i = .openEnd) (fails : Bool) :
    (s.openBody fails).Good := by
  unfold State.openBody
  split
  · exact h
  next hopened =>
    rw [Bool.not_eq_true] at hopened
    -- nobody else holds the mutex
    have hnone : ∀ j, ¬ (s.pc j = .closeWait ∨ s.pc j = .closeEnd) := by
      intro j hj
      have hholds : (s.pc j).holds := by
        rcases hj with hj | hj
        · rw [hj]; rfl
        · rw [hj]; rfl
      have hij : i = j := h.holder_unique (by rw [hi]; rfl) hholds
      rw [← hij, hi] at hj
      exact absurd hj (by simp)
    split
    · exact h.newContext hopened hnone false
    · have h0 := h.newContext hopened hnone true
      have h1 := h0.track (.loop .listener _) rfl (.inl ⟨.listener, rfl⟩)
      have h2 := h1.track (.loop .guard _) rfl (.inl ⟨.guard, rfl⟩)
      dsimp only
      split
      · exact h2.track (.opening _) rfl (.inr rfl)
      · exact h2

theorem closeBody (hi : s.pc i = .hold .close) : (s.closeBody i).Good := by
  have hmu : s.mu = some i := (h.mutex i).mp (by rw [hi]; rfl)
  unfold State.closeBody
  split
  · exact h.cancelContext.move (m := s.mu) hi (by simp) rfl rfl (by simp [PC.ctxOf]) (by simp)
      (by simp [PC.holds, hmu]) (fun _ _ => Iff.rfl) (fun _ => rfl) (fun _ => .inl (.inl rfl))
      (by simp)
  next hopened =>
    exact h.move (m := s.mu) hi (by simp) rfl rfl (by simp [PC.ctxOf]) (by simp)
      (by simp [PC.holds, hmu]) (fun _ _ => Iff.rfl) (fun _ => by simpa using hopened)
      (fun _ => .inl (.inl rfl)) (by simp)

theorem acquire {r : Region} (hi : s.pc i = .lock r) (hfree : s.mu = none)
    (hok : CloseUndisturbed s (.acquire i)) :
    Good { s.set i (.hold r) with mu := some i } := by
  refine h.move hi (by simp) ?_ ?_ ?_ (by simp) (by simp [holds]) ?_ (by simp) ?_ (by simp)
  · cases r <;> rfl
  · cases r <;> rfl
  · cases r <;> exact fun _ => id
  · intro j hj
    rw [hfree]
    simp [Ne.symm hj]
  · intro hclosing
    right
    obtain rfl : r = .close := by simpa [Closing] using hclosing
    exact hok hi

theorem release {p : PC} (hi : (s.pc i).released = some p) :
    Good { s.set i p with mu := none } := by
  obtain ⟨hholds, hp, htracked, hwatches, hctx, hlock, hwatch⟩ := of_released hi
  refine h.moveOut rfl ?_ htracked hwatches hctx (fun c hq => absurd hq (hlock _)) hp (by simp)
    (fun j hj => ?_) (fun hq => h.closing i (.inr (hwatch hq)))
  · intro hidle
    rw [hidle] at hholds
    exact absurd hholds (by decide)
  · rw [(h.mutex i).mp hholds]
    simp [Ne.symm hj]

/-- **One step.**  Every undisturbed step keeps the invariant. -/
theorem step {t : State} {l : Label} (hok : CloseUndisturbed s l)
    (hstep : Step s l t) : t.Good := by
  cases hstep with
  | call c =>
    have hlock : ∀ r : Region, r = c.region → (∀ k, r ≠ .opener k) ∧ (lock r).tracked = false ∧
        (lock r).watches = false ∧ (lock r).ctxOf = none := by
      rintro r rfl
      cases c with
      | openConn | close | handler => exact ⟨by simp [Call.region], rfl, rfl, rfl⟩
    obtain ⟨hopener, htracked, hwatches, hctx⟩ := hlock _ rfl
    refine h.spawn (w := s.wg) (v := s.wgWatcherWg) rfl (by simp [Closing]) (by simp)
      ?_ (by simp [htracked]) (by simp [hwatches]) (by simp [hctx]) (by simp [hwatches])
    intro k hk
    exact hopener k (lock.inj hk)
  | acquire hi hfree => exact h.acquire hi hfree hok
  | release hi => exact h.release hi
  | @openBody i fails hi =>
    have hmu : s.mu = some i := (h.mutex i).mp (by rw [hi]; rfl)
    have hmoved : (s.set i .openEnd).Good :=
      h.move (m := s.mu) hi (by simp) rfl rfl (by simp [PC.ctxOf]) (by simp)
        (by simp [PC.holds, hmu]) (fun _ _ => Iff.rfl) (by simp) (by simp [PC.Closing]) (by simp)
    exact hmoved.openBody (by rw [pc_set, if_pos rfl]) fails
  | closeBody hi => exact h.closeBody hi
  | @wgDone i hi _ =>
    have hmu : s.mu = some i := (h.mutex i).mp (by rw [hi]; rfl)
    exact h.move (m := s.mu) hi (by simp) rfl rfl (by simp [PC.ctxOf]) (by simp)
      (by simp [PC.holds, hmu]) (fun _ _ => Iff.rfl) (fun _ => h.closing i (.inl hi))
      (fun _ => .inl (.inr (.inl rfl))) (by simp)
  | watchersDone hi _ | openError hi | watcherStops hi =>
    exact h.moveFree hi (by simp) rfl rfl (by simp [ctxOf]) (by simp) rfl rfl (by simp)
  | openReady hi =>
    exact h.moveFree hi (by simp) rfl rfl (fun _ => id) (fun _ _ => hok) rfl rfl (by simp)
  | @trackedEnds i hi =>
    have hkind : s.pc i ≠ .idle ∧ (s.pc i).holds = false ∧ (s.pc i).watches = false := by
      unfold trackedDone at hi
      split at hi
      case h_3 => exact absurd hi (by simp)
      all_goals rename_i hpc; rw [hpc]; exact ⟨by simp, rfl, rfl⟩
    refine h.ends (v := s.wgWatcherWg) hkind.1 hkind.2.1 (by simp)
      (fun j hj => by simp [hj]) ?_ fun _ _ => Iff.rfl
    rw [h.watchers i, hkind.2.2]
    decide
  | @startWatcher i r hi _ _ =>
    refine h.spawn (w := s.wg) rfl (by simp [PC.Closing]) (by simp) (by simp)
      (by simp [PC.tracked]) (by simp [PC.watches]) ?_ (fun _ => hok.2)
    rintro c ⟨⟩
    exact ⟨rfl, hok.1⟩
  | watcherCalls hi =>
    exact h.moveFree hi (by simp) rfl rfl (fun _ => id) (by simp) rfl rfl (by simp)
  | @watcherEnds i hi =>
    have hkind : s.pc i ≠ .idle ∧ (s.pc i).holds = false ∧ (s.pc i).tracked = false := by
      unfold watcherDone at hi
      split at hi
      case h_3 => exact absurd hi (by simp)
      all_goals rename_i hpc; rw [hpc]; exact ⟨by simp, rfl, rfl⟩
    refine h.ends (w := s.wg) hkind.1 hkind.2.1 ?_ (fun _ _ => Iff.rfl)
      (by simp) fun j hj => by simp [hj]
    rw [h.tracked i, hkind.2.2]
    decide

end State.Good

omit h in
theorem good_of_run {canUse : Bool} {labels : List Label}
    (hrun : Transition.Run Step CloseUndisturbed (newConn canUse) labels s) : s.Good := by
  refine hrun.invariant (P := fun _ s => s.Good) (good_newConn canUse) ?_
  intro _ s l t h hok hstep
  exact h.step hok hstep

/-! ## No deadlock -/

/-- A tracked goroutine waits for nothing but the mutex, and only the opener does that. -/
theorem State.Good.deadlockFree : s.DeadlockFree := by
  intro i j hi hchain
  -- a thread under the mutex that waits at all is in `conn.wg.Wait()`
  have hfirst : ∀ k, s.WaitsFor i k → k ∈ s.wg := by
    rintro k (⟨⟨r, hr⟩, -⟩ | ⟨-, hk⟩ | ⟨hw, -⟩)
    · rw [hr] at hi
      exact absurd hi (by simp [Closing])
    · exact hk
    · rw [hw] at hi
      exact absurd hi (by simp [Closing])
  have hlock : ∀ k ∈ s.wg, ¬ ∃ r, s.pc k = .lock r := by
    rintro k hk ⟨r, hr⟩
    have htracked := (h.tracked k).mp hk
    rw [hr] at htracked
    cases r with
    | opener c => exact h.handOver i hi k c hr
    | _ => exact absurd htracked (by simp [PC.tracked])
  have hsecond : ∀ k ∈ s.wg, ∀ k', ¬ s.WaitsFor k k' := by
    rintro k hk k' (⟨hl, -⟩ | ⟨hw, -⟩ | ⟨hw, -⟩)
    · exact hlock k hk hl
    all_goals
      have htracked := (h.tracked k).mp hk
      rw [hw] at htracked
      exact absurd htracked (by decide)
  rcases Relation.ReflTransGen.cases_head hchain with rfl | ⟨k, hik, hkj⟩
  · rintro ⟨r, hr⟩
    rw [hr] at hi
    exact absurd hi (by simp [Closing])
  · rcases Relation.ReflTransGen.cases_head hkj with rfl | ⟨k', hkk', -⟩
    · exact hlock k (hfirst k hik)
    · exact absurd hkk' (hsecond k (hfirst k hik) k')

end ConnClose
