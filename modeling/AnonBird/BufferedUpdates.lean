/-
# Buffered account updates

Model of `BufferUpdateAccountPeers` and `bufferSendUpdateAccountPeers` of the network map
controller.  A call that gets the lock of the account broadcasts at once; one that does not sets a
flag, which is seen by nobody once the worker has looked at it.  Locks, atomic loads and stores and
timer operations are single steps.
-/
import AnonBird.Transition

namespace BufferedUpdates

/-- What the holder of the lock does next. -/
inductive Phase where
  /-- `b.next.Stop()`, still in the call. -/
  | stopping
  /-- Begins the broadcast. -/
  | starting
  /-- `b.update.Load()`, once the broadcast is done. -/
  | loading
  /-- `b.update.Store(false)`. -/
  | clearing
  /-- `time.AfterFunc` or `b.next.Reset`. -/
  | scheduling
  /-- `b.mu.Unlock()`. -/
  | unlocking
  deriving DecidableEq

/-- `bufferUpdate`, with the goroutines that use it. -/
structure Buffer where
  mu : Option Phase := none
  /-- The timer, once it exists, and whether it is armed. -/
  next : Option Bool := none
  update : Bool := false
  /-- Calls that did not get the lock and have not set the flag yet. -/
  storing : ℕ := 0
  /-- Expirations of the timer whose broadcast has not begun. -/
  fired : ℕ := 0
  /-- Calls since the last broadcast began. -/
  unserved : ℕ := 0
  deriving DecidableEq

/-- The steps of calls and of the goroutine they start. -/
inductive Event where
  /-- A call up to `TryLock`. -/
  | tryLock
  /-- `b.update.Store(true)` of a call. -/
  | store
  /-- The holder of the lock goes on. -/
  | worker
  | fire
  /-- The function of the timer begins its broadcast. -/
  | begin

namespace Buffer

variable (b : Buffer)

/-- The goroutine that holds the lock takes its next step. -/
def worker : Buffer :=
  match b.mu with
  | none => b
  | some .stopping => { b with mu := some .starting, next := b.next.map fun _ => false }
  | some .starting => { b with mu := some .loading, unserved := 0 }
  | some .loading => { b with mu := some (if b.update then .clearing else .unlocking) }
  | some .clearing => { b with mu := some .scheduling, update := false }
  -- both `AfterFunc` and `Reset` leave an armed timer
  | some .scheduling => { b with mu := some .unlocking, next := some true }
  | some .unlocking => { b with mu := none }

/-- One step; a step that is not possible changes nothing. -/
def step : Event → Buffer
  | .tryLock =>
    match b.mu with
    | none => { b with mu := some .stopping, unserved := b.unserved + 1 }
    | some _ => { b with storing := b.storing + 1 }
  | .store =>
    if b.storing = 0 then b
    else { b with storing := b.storing - 1, update := true, unserved := b.unserved + 1 }
  | .worker => b.worker
  | .fire => if b.next = some true then { b with next := some false, fired := b.fired + 1 } else b
  | .begin => if b.fired = 0 then b else { b with fired := b.fired - 1, unserved := 0 }

/-- The holder of the lock has not looked at the flag for the last time. -/
def Attentive : Prop := b.mu ≠ none ∧ b.mu ≠ some .unlocking

/-- A broadcast is scheduled or about to start. -/
def Coming : Prop :=
  b.next = some true ∨ 0 < b.fired ∨
    b.Attentive ∧ (b.mu = some .loading → b.update = true)

/-- Every call is followed by a broadcast, or one is coming. -/
def Kept : Prop := 0 < b.unserved → b.Coming

instance : Decidable b.Attentive := inferInstanceAs (Decidable (_ ∧ _))

instance : Decidable b.Coming := inferInstanceAs (Decidable (_ ∨ _ ∨ _))

instance : Decidable b.Kept := inferInstanceAs (Decidable (_ → _))

variable {b}

theorem Kept.worker (h : b.Kept) : b.worker.Kept := by
  obtain ⟨mu, next, update, storing, fired, unserved⟩ := b
  unfold Kept Coming Attentive worker at *
  rcases mu with _ | phase
  · exact h
  · cases phase <;> cases update <;> simp_all

/-- Only a call that sets the flag can be forgotten. -/
theorem Kept.step_iff (h : b.Kept) (e : Event) : (b.step e).Kept ↔
      (e = .store → b.storing ≠ 0 → b.Attentive ∨ b.next = some true ∨ 0 < b.fired) := by
  cases e with
  | worker => simpa [step] using h.worker
  | store =>
    simp only [step, true_implies]
    split
    · simp_all
    · simp_all only [Kept, Coming, Attentive]
      grind
  | tryLock =>
    simp only [step, reduceCtorEq, false_implies, iff_true]
    split
    · intro _
      exact .inr (.inr ⟨by simp [Attentive], by simp⟩)
    · exact h
  | fire =>
    simp only [step, reduceCtorEq, false_implies, iff_true]
    split
    · intro _
      exact .inr (.inl (Nat.succ_pos _))
    · exact h
  | begin =>
    simp only [step, reduceCtorEq, false_implies, iff_true]
    split
    · exact h
    · intro hpos
      exact absurd hpos (Nat.lt_irrefl 0)

end Buffer

/-! ## The two buffered variants -/

/-- The two maps of locks of the controller: that of `BufferUpdateAccountPeers` and that of
`bufferSendUpdateAccountPeers`, which have the same body. -/
inductive Locks where
  | accountUpdateLocks
  | sendAccountUpdateLocks
  deriving DecidableEq

/-- The two buffers of an account. -/
abbrev Controller : Type := Locks → Buffer

/-- A step of one of the buffers. -/
def Controller.step (c : Controller) (e : Locks × Event) : Controller :=
  Function.update c e.1 ((c e.1).step e.2)

open Controller

/-- The controller after steps from the start. -/
def Controller.run (es : List (Locks × Event)) : Controller :=
  es.foldl step fun _ => {}

/-- **No buffered update is lost** if and only if every call without the lock sets the flag while
the holder has yet to look at it, or while a broadcast is scheduled. -/
theorem kept_all_along_iff (es : List (Locks × Event)) :
    (∀ pre, pre <+: es → ∀ locks, (run pre locks).Kept) ↔
      ∀ pre e, pre ++ [e] <+: es → e.2 = .store → (run pre e.1).storing ≠ 0 →
        (run pre e.1).Attentive ∨ (run pre e.1).next = some true ∨
          0 < (run pre e.1).fired := by
  refine Transition.forall_prefix_iff (fun locks hpos => absurd hpos (Nat.lt_irrefl 0)) ?_
  intro pre e _ h
  rw [run, List.foldl_concat, ← (h e.1).step_iff e.2]
  constructor
  · intro hnext
    have hself := hnext e.1
    rwa [step, Function.update_self] at hself
  · intro hstep locks
    rw [step]
    by_cases hlocks : locks = e.1
    · rw [hlocks, Function.update_self]
      exact hstep
    · rw [Function.update_of_ne hlocks]
      exact h locks

/-- A call comes between the worker's look at the flag and its unlock. -/
theorem update_lost :
    ¬ (run ([.tryLock, .worker, .worker, .worker, .tryLock, .store, .worker].map
      fun e => (.accountUpdateLocks, e)) .accountUpdateLocks).Kept := by
  decide

end BufferedUpdates
