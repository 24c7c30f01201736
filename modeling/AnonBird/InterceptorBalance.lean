/-
# The references of an interceptor

An interceptor takes and releases references to its prefixes from five places.  Here its calls of
the counters are compared with what it stores: a prefix that is stored for some names should have as
many references to its route, and while a peer is set as many to its allowed address.

The balance is lost in two ways.  An address that is repeated, in an answer or in a stored list, is
called for once too often (`Unrepeated`); and a call may have no effect, because the add or the
remove function fails or because there is no reference to release (`Granted`).
-/
import AnonBird.DNSInterceptor

open GoStrings NetIP RefCounter List

namespace DNSInterceptor

/-! ## Calls and their effect -/

/-- A call of this counter for this prefix. -/
def Call.isFor (c : Call) (counter : CounterName) (p : Prefix) : Bool :=
  c.counter = counter && c.realPrefix = p

open Call

/-- What some calls did to the references of a prefix. -/
def net (counter : CounterName) (p : Prefix) (calls : List Call) : ℤ :=
  ((calls.filter fun c => c.isFor counter p).map change).sum

/-- The number of calls for a prefix that took a reference or released one. -/
def effective (counter : CounterName) (p : Prefix) (calls : List Call) : ℕ :=
  calls.countP fun c => c.isFor counter p && c.change ≠ 0

variable {sign : ℤ}

section Effect

variable {counter : CounterName} {p : Prefix} {calls new : List Call}

/-- The changes of calls add up. -/
theorem net_append (new calls : List Call) :
    net counter p (new ++ calls) = net counter p new + net counter p calls := by
  simp [net]

/-- Calls that only take references, or only release them, count as many as are effective. -/
theorem net_eq_effective (hsign : sign ≠ 0)
    (h : ∀ c ∈ calls, c.isFor counter p → c.change = 0 ∨ c.change = sign) :
    net counter p calls = sign * effective counter p calls := by
  induction calls with
  | nil => simp [net, effective]
  | cons c calls ih =>
    have hrest := ih fun c' hc' => h c' (mem_cons_of_mem c hc')
    rw [show c :: calls = [c] ++ calls from rfl, net_append, hrest]
    have hhead : net counter p [c] = sign * effective counter p [c] := by
      by_cases hfor : c.isFor counter p
      · rcases h c mem_cons_self hfor with hzero | hchange
        · simp [net, effective, hfor, hzero]
        · simp [net, effective, hfor, hchange, hsign]
      · simp [net, effective, hfor]
    rw [hhead, effective, effective, effective, countP_append]
    push_cast
    ring

/-- So do the calls that change a count. -/
theorem effective_append (new calls : List Call) :
    effective counter p (new ++ calls) = effective counter p new + effective counter p calls :=
  countP_append

end Effect

/-- From one state to another, the calls made have a property. -/
def Calling (P : Call → Prop) (w w' : World) : Prop :=
  ∃ new, w'.calls = new ++ w.calls ∧ ∀ c ∈ new, P c

namespace Calling

variable {P Q : Call → Prop} {w w' w'' : World}

/-- No call is made. -/
theorem of_eq (h : w'.calls = w.calls) : Calling P w w' := ⟨[], h, nofun⟩

/-- One call is made. -/
theorem one {c : Call} (h : w'.calls = c :: w.calls) (hc : P c) : Calling P w w' := by
  refine ⟨[c], h, fun c' hc' => ?_⟩
  rw [mem_singleton.mp hc']
  exact hc

/-- Calls after calls. -/
theorem trans (h : Calling P w w') (h' : Calling P w' w'') : Calling P w w'' := by
  obtain ⟨new, hnew, hP⟩ := h
  obtain ⟨new', hnew', hP'⟩ := h'
  refine ⟨new' ++ new, by rw [hnew', hnew, append_assoc], fun c hc => ?_⟩
  rcases mem_append.mp hc with hc | hc
  · exact hP' c hc
  · exact hP c hc

theorem mono (h : Calling P w w') (hPQ : ∀ c, P c → Q c) : Calling Q w w' := by
  obtain ⟨new, hnew, hP⟩ := h
  exact ⟨new, hnew, fun c hc => hPQ c (hP c hc)⟩

/-- A loop makes the calls that its turns make. -/
theorem foldl {α : Type} {f : World → α → World} {xs : List α}
    (h : ∀ w, ∀ x ∈ xs, Calling P w (f w x)) (w : World) : Calling P w (xs.foldl f w) := by
  induction xs generalizing w with
  | nil => exact of_eq rfl
  | cons x xs ih =>
    have hhead := h w x mem_cons_self
    have hrest := ih (fun w y hy => h w y (mem_cons_of_mem x hy)) (f w x)
    exact hhead.trans hrest

end Calling

/-! ## The calls of each operation -/

variable {counter : CounterName}

open Calling

section Operations

variable (env : Env) (w : World) (p : Prefix)

/-- A call of a counter for a prefix, which leaves the count or changes it by one. -/
def Call.Counts (counter : CounterName) (sign : ℤ) (c : Call) : Prop :=
  c.counter = counter ∧ c.realPrefix = p ∧ (c.change = 0 ∨ c.change = sign)

/-- A count that moves by the sign or not at all. -/
theorem change_of_count {count count' sign : ℤ} (h : count' = count ∨ count' = count + sign) :
    count' - count = 0 ∨ count' - count = sign :=
  h.imp sub_eq_zero.mpr sub_eq_of_eq_add'

/-- A route is only ever counted up here. -/
theorem calling_incrementRoute : Calling (Counts p .route 1) w (w.incrementRoute env p).2 :=
  one rfl ⟨rfl, rfl, change_of_count (w.routeRefCounter.count_increment_self _ _)⟩

/-- A route is only ever counted down here. -/
theorem calling_decrementRoute : Calling (Counts p .route (-1)) w (w.decrementRoute env p) :=
  one rfl ⟨rfl, rfl, change_of_count (w.routeRefCounter.count_decrement_self _ _)⟩

/-- An allowed address is only ever counted up here. -/
theorem calling_addAllowedIPForPrefix (peerKey : Bytes) :
    Calling (Counts p .allowedIPs 1) w (w.addAllowedIPForPrefix env peerKey p) :=
  one rfl ⟨rfl, rfl, change_of_count (w.allowedIPsRefcounter.count_increment_self _ _)⟩

/-- An allowed address is only ever counted down here. -/
theorem calling_decrementAllowedIP :
    Calling (Counts p .allowedIPs (-1)) w (w.decrementAllowedIP env p) :=
  one rfl ⟨rfl, rfl, change_of_count (w.allowedIPsRefcounter.count_decrement_self _ _)⟩

/-- A call for one of some prefixes, in one direction; the allowed addresses are only called with a
peer. -/
structure Call.Within (ps : List Prefix) (sign : ℤ) (currentPeerKey : Bytes) (c : Call) :
    Prop where
  mem : c.realPrefix ∈ ps
  change : c.change = 0 ∨ c.change = sign
  peer : c.counter = .allowedIPs → currentPeerKey ≠ []

variable {ps : List Prefix}

/-- A call on one of the prefixes, with a peer if it is about allowed addresses. -/
theorem Call.Counts.within {currentPeerKey : Bytes} {c : Call}
    (h : c.Counts p counter sign) (hp : p ∈ ps)
    (hpeer : counter = .allowedIPs → currentPeerKey ≠ []) : c.Within ps sign currentPeerKey := by
  obtain ⟨rfl, rfl, hchange⟩ := h
  exact ⟨hp, hchange, hpeer⟩

/-- A prefix is only counted up when it is added. -/
theorem calling_addRouteAndAllowedIP (hp : p ∈ ps) (currentPeerKey : Bytes) :
    Calling (Within ps 1 currentPeerKey) w (w.addRouteAndAllowedIP env currentPeerKey p) := by
  have hroute : Calling (Within ps 1 currentPeerKey) w (w.incrementRoute env p).2 :=
    (calling_incrementRoute env w p).mono fun c hc => hc.within p hp nofun
  unfold World.addRouteAndAllowedIP
  dsimp only
  split
  · exact hroute
  next hpeer =>
    refine hroute.trans ((calling_addAllowedIPForPrefix env _ p currentPeerKey).mono fun c hc =>
      hc.within p hp fun _ hnil => hpeer ?_)
    simp [hnil]

/-- A prefix is only counted down when it is removed. -/
theorem calling_removeRouteAndAllowedIP (hp : p ∈ ps) (currentPeerKey : Bytes) :
    Calling (Within ps (-1) currentPeerKey) w
      (w.removeRouteAndAllowedIP env currentPeerKey p) := by
  have hroute : Calling (Within ps (-1) currentPeerKey) w (w.decrementRoute env p) :=
    (calling_decrementRoute env w p).mono fun c hc => hc.within p hp nofun
  unfold World.removeRouteAndAllowedIP
  split
  · exact hroute
  next hpeer =>
    exact hroute.trans ((calling_decrementAllowedIP env _ p).mono fun c hc =>
      hc.within p hp fun _ => hpeer)

end Operations

/-! ## Which calls take effect -/

namespace World

variable (env : Env) (w : World) (p : Prefix)

/-- The increment of the route counter takes effect: there is a reference, or the route is added. -/
def RouteTaken : Prop :=
  w.routeRefCounter.count (w.transformRealToFakePrefix p) ≠ 0 ∨
    env.addRoute w.calls.length = .ok ()

/-- The decrement of the route counter takes effect: there is a reference, and if it is the last one
the route is removed. -/
def RouteReleased : Prop :=
  ∃ ref, get w.routeRefCounter.refCountMap (w.transformRealToFakePrefix p) = some ref ∧
    (ref.count = 1 → env.removeRoute w.calls.length = true)

/-- The increment of the allowed address takes effect. -/
def AllowedIPTaken (peerKey : Bytes) : Prop :=
  w.allowedIPsRefcounter.count p ≠ 0 ∨ ∃ out, env.addAllowedIP w.calls.length peerKey = .ok out

/-- The decrement of the allowed address takes effect. -/
def AllowedIPReleased : Prop :=
  ∃ ref, get w.allowedIPsRefcounter.refCountMap p = some ref ∧
    (ref.count = 1 → env.removeAllowedIP w.calls.length = true)

/-- Both increments of `addRouteAndAllowedIP` take effect. -/
def Taken (currentPeerKey : Bytes) : Prop :=
  w.RouteTaken env p ∧ (currentPeerKey ≠ [] →
    (w.incrementRoute env p).2.AllowedIPTaken env p currentPeerKey)

/-- Both decrements for a dropped prefix take effect. -/
def Released (currentPeerKey : Bytes) : Prop :=
  w.RouteReleased env p ∧ (currentPeerKey ≠ [] →
    (w.decrementRoute env p).AllowedIPReleased env p)

/-- Something holds of the state before each turn of a loop. -/
def Along (f : World → Prefix → World) (T : World → Prefix → Prop) : World → List Prefix → Prop
  | _, [] => True
  | w, p :: ps => T w p ∧ Along f T (f w p) ps

end World

open World

/-- From one state to another, calls are asked for so often at most, and just as often exactly if
all of them are granted. -/
def Asking (asks : CounterName → Prefix → ℕ) (granted : Prop) (w w' : World) : Prop :=
  ∃ new, w'.calls = new ++ w.calls ∧
    (∀ counter p, effective counter p new ≤ asks counter p) ∧
    ((∀ counter p, effective counter p new = asks counter p) ↔ granted)

namespace Asking

variable {asks asks' : CounterName → Prefix → ℕ} {granted granted' : Prop} {w w' w'' : World}

theorem congr (h : Asking asks granted w w') (hasks : ∀ counter p, asks counter p = asks' counter p)
    (hgranted : granted ↔ granted') : Asking asks' granted' w w' := by
  obtain rfl : asks = asks' := funext₂ hasks
  rwa [← propext hgranted]

/-- Nothing is asked for. -/
theorem none (h : w'.calls = w.calls) : Asking (fun _ _ => 0) True w w' :=
  ⟨[], h, fun _ _ => le_rfl, iff_of_true (fun _ _ => rfl) trivial⟩

/-- One call is asked for, and granted if it changes the count. -/
theorem one {c : Call} (h : w'.calls = c :: w.calls) :
    Asking (fun counter p => if c.counter = counter ∧ c.realPrefix = p then 1 else 0)
      (c.change ≠ 0) w w' := by
  have heffective : ∀ counter p, effective counter p [c] =
      if (c.counter = counter ∧ c.realPrefix = p) ∧ c.change ≠ 0 then 1 else 0 := by
    intro counter p
    simp [effective, isFor, countP_cons]
  refine ⟨[c], h, fun counter p => ?_, ?_⟩
  · rw [heffective]
    grind
  · simp only [heffective]
    constructor
    · intro hall
      have := hall c.counter c.realPrefix
      grind
    · intro hchange counter p
      simp [hchange]

/-- What two parts ask for adds up, and is granted if both parts are. -/
theorem trans (h : Asking asks granted w w') (h' : Asking asks' granted' w' w'') :
    Asking (fun counter p => asks counter p + asks' counter p) (granted ∧ granted') w w'' := by
  obtain ⟨new, hnew, hle, hiff⟩ := h
  obtain ⟨new', hnew', hle', hiff'⟩ := h'
  refine ⟨new' ++ new, by rw [hnew', hnew, append_assoc], fun counter p => ?_, ?_⟩
  · rw [effective_append, add_comm]
    exact Nat.add_le_add (hle counter p) (hle' counter p)
  · -- two sums of numbers with these bounds are equal only if the numbers are
    rw [← hiff, ← hiff']
    simp only [effective_append]
    constructor
    · intro hall
      refine ⟨fun counter p => ?_, fun counter p => ?_⟩
      all_goals
        have := hall counter p
        have := hle counter p
        have := hle' counter p
        omega
    · rintro ⟨hfirst, hsecond⟩ counter p
      rw [hfirst, hsecond, add_comm]

/-- A loop asks for what its turns ask for. -/
theorem foldl {f : World → Prefix → World} {T : World → Prefix → Prop}
    {counters : CounterName → Bool}
    (h : ∀ w p, Asking (fun counter q => if counters counter ∧ p = q then 1 else 0) (T w p) w
      (f w p))
    (ps : List Prefix) (w : World) :
    Asking (fun counter q => if counters counter then ps.count q else 0) (Along f T w ps) w
      (ps.foldl f w) := by
  induction ps generalizing w with
  | nil => exact (none rfl).congr (fun _ _ => by simp) .rfl
  | cons p ps ih =>
    refine ((h w p).trans (ih (f w p))).congr (fun counter q => ?_) .rfl
    simp only [count_cons, beq_iff_eq]
    grind

end Asking

namespace World

variable (env : Env) (w : World) (p : Prefix) (currentPeerKey : Bytes)

/-- One call on the route counter. -/
theorem asking_incrementRoute :
    Asking (fun counter q => if counter = .route ∧ p = q then 1 else 0) (w.RouteTaken env p) w
      (w.incrementRoute env p).2 := by
  refine (Asking.one rfl).congr (fun counter q => ?_) ?_
  · exact if_congr (and_congr_left' eq_comm) rfl rfl
  · rw [sub_ne_zero, Counter.count_increment_ne_iff]
    exact or_congr_right ⟨fun ⟨_, h⟩ => h, fun h => ⟨(), h⟩⟩

theorem asking_decrementRoute :
    Asking (fun counter q => if counter = .route ∧ p = q then 1 else 0) (w.RouteReleased env p) w
      (w.decrementRoute env p) := by
  refine (Asking.one rfl).congr (fun counter q => ?_) ?_
  · exact if_congr (and_congr_left' eq_comm) rfl rfl
  · rw [sub_ne_zero, Counter.count_decrement_ne_iff]
    rfl

/-- One call on the counter of allowed addresses. -/
theorem asking_addAllowedIPForPrefix :
    Asking (fun counter q => if counter = .allowedIPs ∧ p = q then 1 else 0)
      (w.AllowedIPTaken env p currentPeerKey) w (w.addAllowedIPForPrefix env currentPeerKey p) := by
  refine (Asking.one rfl).congr (fun counter q => ?_) ?_
  · exact if_congr (and_congr_left' eq_comm) rfl rfl
  · rw [sub_ne_zero, Counter.count_increment_ne_iff]
    rfl

theorem asking_decrementAllowedIP :
    Asking (fun counter q => if counter = .allowedIPs ∧ p = q then 1 else 0)
      (w.AllowedIPReleased env p) w (w.decrementAllowedIP env p) := by
  refine (Asking.one rfl).congr (fun counter q => ?_) ?_
  · exact if_congr (and_congr_left' eq_comm) rfl rfl
  · rw [sub_ne_zero, Counter.count_decrement_ne_iff]
    rfl

/-- The counters that are called for a prefix with this peer. -/
def called (counter : CounterName) : Bool := counter = .route || currentPeerKey ≠ []

/-- One call on each counter, the second only with a peer. -/
theorem asking_removeRouteAndAllowedIP :
    Asking (fun counter q => if called currentPeerKey counter ∧ p = q then 1 else 0)
      (w.Released env p currentPeerKey) w (w.removeRouteAndAllowedIP env currentPeerKey p) := by
  have hroute := w.asking_decrementRoute env p
  unfold removeRouteAndAllowedIP Released called
  dsimp only
  split
  next hnil =>
    refine hroute.congr (fun counter q => ?_) ?_
    · simp [hnil]
    · simp [hnil]
  next hpeer =>
    refine (hroute.trans (asking_decrementAllowedIP env _ p)).congr (fun counter q => ?_) ?_
    · cases counter with
      | route => simp
      | allowedIPs => simp [hpeer]
    · simp [hpeer]

/-- A route that cannot be added leaves the allowed address out. -/
theorem asking_addRouteAndAllowedIP :
    Asking (fun counter q => if called currentPeerKey counter ∧ p = q then 1 else 0)
      (w.Taken env p currentPeerKey) w (w.addRouteAndAllowedIP env currentPeerKey p) := by
  have hroute := w.asking_incrementRoute env p
  unfold addRouteAndAllowedIP Taken called
  dsimp only
  by_cases hnil : currentPeerKey = []
  · rw [if_pos (by simp [hnil])]
    refine hroute.congr (fun counter q => ?_) ?_
    · simp [hnil]
    · simp [hnil]
  · cases hadded : (w.incrementRoute env p).1 with
    | true =>
      rw [if_neg (by simp [hnil])]
      refine (hroute.trans (asking_addAllowedIPForPrefix env _ p currentPeerKey)).congr
        (fun counter q => ?_) ?_
      · cases counter with
        | route => simp
        | allowedIPs => simp [hnil]
      · simp [hnil]
    | false =>
      rw [if_pos (by simp)]
      obtain ⟨new, hnew, hle, hiff⟩ := hroute
      have hnone := Counter.of_increment_eq_none (Option.isSome_eq_false_iff.mp hadded |>
        Option.isNone_iff_eq_none.mp)
      have hrefused : ¬ w.RouteTaken env p := by
        rintro (hcount | hok)
        · exact hcount hnone.1
        · rw [hnone.2] at hok
          cases hok
      refine ⟨new, hnew, fun counter q => (hle counter q).trans ?_, iff_of_false ?_ ?_⟩
      · grind
      · intro hall
        have hask := hall .allowedIPs p
        have hnone := hle .allowedIPs p
        simp [hnil] at hask hnone
        omega
      · exact fun h => hrefused h.1

end World

namespace Interceptor

variable (env : Env) (d : Interceptor) (w : World)

/-- Adding prefixes only counts up, and only these. -/
theorem calling_addPrefixes (toAdd : List Prefix) :
    Calling (Within toAdd 1 d.currentPeerKey) w (d.addPrefixes env w toAdd) := by
  have hallocated : Calling (Call.Within toAdd 1 d.currentPeerKey) w (w.allocated toAdd) := by
    apply Calling.of_eq
    unfold World.allocated
    split <;> rfl
  have hloop := foldl (P := Within toAdd 1 d.currentPeerKey) (fun w p hp =>
    calling_addRouteAndAllowedIP env w p hp d.currentPeerKey) (w.allocated toAdd)
  exact (hallocated.trans hloop).trans (of_eq rfl)

/-- Removing prefixes only counts down, and only these. -/
theorem calling_removePrefixes (toRemove : List Prefix) :
    Calling (fun c => d.keepRoute = false ∧ Within toRemove (-1) d.currentPeerKey c) w
      (d.removePrefixes env w toRemove) := by
  unfold removePrefixes
  split
  · exact of_eq rfl
  next hkeep =>
    have hloop := foldl (P := Within toRemove (-1) d.currentPeerKey) (fun w p hp =>
      calling_removeRouteAndAllowedIP env w p hp d.currentPeerKey) w
    exact (hloop.mono fun c hc => ⟨by simpa using hkeep, hc⟩).trans (of_eq rfl)

/-- Every added prefix is asked for once on each counter. -/
theorem asking_addPrefixes (toAdd : List Prefix) :
    Asking (fun counter p => if World.called d.currentPeerKey counter then toAdd.count p else 0)
      (Along (fun w p => w.addRouteAndAllowedIP env d.currentPeerKey p)
        (fun w p => w.Taken env p d.currentPeerKey) (w.allocated toAdd) toAdd) w
      (d.addPrefixes env w toAdd) := by
  have hallocated : (w.allocated toAdd).calls = w.calls := by
    unfold World.allocated
    split <;> rfl
  have hloop := Asking.foldl (fun w p => w.asking_addRouteAndAllowedIP env p d.currentPeerKey) toAdd
    (w.allocated toAdd)
  obtain ⟨new, hnew, hle, hiff⟩ := hloop
  exact ⟨new, hnew.trans (by rw [hallocated]), hle, hiff⟩

/-- Every removed prefix is given back once on each counter. -/
theorem asking_removePrefixes (toRemove : List Prefix) :
    Asking (fun counter p => if World.called d.currentPeerKey counter then
        (if d.keepRoute then [] else toRemove).count p else 0)
      (d.keepRoute = false → Along (fun w p => w.removeRouteAndAllowedIP env d.currentPeerKey p)
        (fun w p => w.Released env p d.currentPeerKey) w toRemove) w
      (d.removePrefixes env w toRemove) := by
  unfold removePrefixes
  cases hkeep : d.keepRoute with
  | true => exact (Asking.none rfl).congr (fun _ _ => by simp) (by simp)
  | false =>
    have hloop := Asking.foldl (fun w p => w.asking_removeRouteAndAllowedIP env p d.currentPeerKey)
      toRemove w
    exact hloop.congr (fun _ _ => rfl) (by simp)

/-- The DNAT mappings are not counted. -/
theorem calling_cleanupDNATMappings (P : Call → Prop) :
    Calling P w (d.cleanupDNATMappings env w) := by
  refine foldl (fun w e _ => ?_) w
  exact of_eq rfl

/-- The number of names whose prefixes have this one. -/
def names (p : Prefix) : ℕ := d.interceptedDomains.countP fun e => p ∈ e.2

/-- How many domains have a prefix, after the prefixes of one are replaced. -/
theorem names_set (domain : Bytes) (ps : List Prefix) (p : Prefix) :
    (set d.interceptedDomains domain ps).countP (fun e => p ∈ e.2) +
        (if p ∈ d.prefixes domain then 1 else 0) = d.names p + if p ∈ ps then 1 else 0 := by
  unfold names prefixes
  rw [set, countP_cons]
  cases hget : get d.interceptedDomains domain with
  | none =>
    rw [GoMap.erase_of_get_none hget]
    simp
  | some old =>
    rw [GoMap.countP_erase d.nodup hget]
    simp
    omega

theorem countP_le_count_flatMap (l : List (Bytes × List Prefix)) (p : Prefix) :
    l.countP (fun e => p ∈ e.2) ≤ (l.flatMap Prod.snd).count p := by
  induction l with
  | nil => simp
  | cons e l ih =>
    rw [flatMap_cons, count_append, countP_cons, add_comm]
    refine Nat.add_le_add ?_ ih
    split
    next hmem => exact count_pos_iff.mpr (by simpa using hmem)
    · exact Nat.zero_le _

/-- The two sums agree exactly if their terms do. -/
theorem count_flatMap_iff (l : List (Bytes × List Prefix)) :
    (∀ p, (l.flatMap Prod.snd).count p = l.countP fun e => p ∈ e.2) ↔ ∀ e ∈ l, e.2.Nodup := by
  induction l with
  | nil => simp
  | cons e l ih =>
    rw [forall_mem_cons, ← ih, nodup_iff_count_eq_one]
    simp only [flatMap_cons, count_append, countP_cons]
    constructor
    · intro hall
      refine ⟨fun p hp => ?_, fun p => ?_⟩
      all_goals
        have hsum := hall p
        have hrest := countP_le_count_flatMap l p
        have hpos : p ∈ e.2 → 0 < e.2.count p := count_pos_iff.mpr
        grind
    · rintro ⟨hhead, htail⟩ p
      rw [htail p]
      by_cases hp : p ∈ e.2
      · simp [hp, hhead p hp, add_comm]
      · simp [hp, count_eq_zero.mpr hp]

/-- A name that stores a prefix twice counts once, so the prefix is met as often as there are names
exactly if no name does. -/
theorem count_stored_iff :
    (∀ p, (d.stored env).count p = d.names p) ↔ ∀ e ∈ d.interceptedDomains, e.2.Nodup := by
  have hperm := (GoMap.range_perm d.nodup env.domainOrder).flatMap_right Prod.snd
  rw [← count_flatMap_iff]
  exact forall_congr' fun p => by rw [stored, hperm.count_eq, names]

/-- No prefix is stored if and only if every domain has none. -/
theorem count_stored_eq_zero_iff :
    (∀ p, (d.stored env).count p = 0) ↔ ∀ e ∈ d.interceptedDomains, e.2 = [] := by
  have hperm := (GoMap.range_perm d.nodup env.domainOrder).flatMap_right Prod.snd
  simp only [count_eq_zero]
  constructor
  · intro hno e he
    rw [eq_nil_iff_forall_not_mem]
    exact fun p hp => hno p (hperm.mem_iff.mpr (mem_flatMap.mpr ⟨e, he, hp⟩))
  · intro hno p hp
    obtain ⟨e, he, hmem⟩ := mem_flatMap.mp (hperm.mem_iff.mp hp)
    rw [hno e he] at hmem
    cases hmem

/-- What an answer does to the number of names with a prefix. -/
theorem names_storePrefixes (resolvedDomain : Bytes) (newPrefixes : List Prefix) (p : Prefix) :
    ((d.storePrefixes env resolvedDomain newPrefixes).names p : ℤ) = d.names p +
      (if p ∈ (d.changes env resolvedDomain newPrefixes).1 then 1 else 0) -
      (if d.keepRoute = false ∧ p ∈ (d.changes env resolvedDomain newPrefixes).2 then 1
        else 0) := by
  have hstored : (d.storePrefixes env resolvedDomain newPrefixes).names p +
      (if p ∈ d.prefixes resolvedDomain then 1 else 0) = d.names p +
        if p ∈ (d.storePrefixes env resolvedDomain newPrefixes).prefixes resolvedDomain then 1
          else 0 := by
    unfold storePrefixes
    dsimp only
    split
    · rfl
    · have hget : ∀ ps, (get (set d.interceptedDomains resolvedDomain ps)
          resolvedDomain).getD [] = ps := fun ps => by rw [GoMap.get_set_self, Option.getD_some]
      rw [names, names_set, prefixes, prefixes, hget]
  simp only [d.mem_prefixes_storePrefixes, if_true] at hstored
  simp only [changes, mem_toAdd, mem_toRemove]
  by_cases hnew : p ∈ newPrefixes
  · by_cases hold : p ∈ d.prefixes resolvedDomain
    all_goals
      simp [hnew, hold] at hstored ⊢
      omega
  · by_cases hold : p ∈ d.prefixes resolvedDomain
    · cases hkeep : d.keepRoute with
      | false | true =>
        simp [hnew, hold, hkeep] at hstored ⊢
        omega
    · simp [hnew, hold] at hstored ⊢
      omega

end Interceptor

/-! ## Histories of an interceptor -/

/-- What happens to an interceptor and the counters it uses. -/
inductive Event where
  | answer (env : Env) (r : Msg)
  | addAllowedIPs (env : Env) (peerKey : Bytes)
  | removeAllowedIPs (env : Env)
  | removeRoute (env : Env)
  /-- Other users of the counters, the fake addresses and the firewall. -/
  | others (w : World)

/-- An interceptor and what it shares with others; only its own calls are recorded. -/
structure Session where
  interceptor : Interceptor
  world : World

/-- A new interceptor. -/
def Session.start (keepRoute : Bool) (w : World) : Session :=
  ⟨newInterceptor keepRoute, { w with calls := [] }⟩

variable {e : Event}

namespace Session

variable (s : Session)

/-- The session after an event. -/
def step : Event → Session
  | .answer env r =>
    ⟨(s.interceptor.writeMsg env s.world r).1, (s.interceptor.writeMsg env s.world r).2.1⟩
  | .addAllowedIPs env peerKey =>
    ⟨(s.interceptor.addAllowedIPs env s.world peerKey).1,
      (s.interceptor.addAllowedIPs env s.world peerKey).2⟩
  | .removeAllowedIPs env =>
    ⟨(s.interceptor.removeAllowedIPs env s.world).1, (s.interceptor.removeAllowedIPs env s.world).2⟩
  | .removeRoute env =>
    ⟨(s.interceptor.removeRoute env s.world).1, (s.interceptor.removeRoute env s.world).2⟩
  | .others w => ⟨s.interceptor, { w with calls := s.world.calls }⟩

/-- The session after events. -/
def run (es : List Event) : Session := es.foldl step s

/-- The last event of a run. -/
theorem run_concat (es : List Event) (e : Event) : s.run (es ++ [e]) = (s.run es).step e :=
  foldl_concat ..

/-- The calls that an event makes. -/
def made (e : Event) : List Call :=
  (s.step e).world.calls.take ((s.step e).world.calls.length - s.world.calls.length)

/-- The references that an interceptor should have. -/
def held (counter : CounterName) (p : Prefix) : ℕ :=
  match counter with
  | .route => s.interceptor.names p
  | .allowedIPs => if s.interceptor.currentPeerKey = [] then 0 else s.interceptor.names p

/-- **The references of an interceptor are balanced**: what its calls did to the counters is what it
should have. -/
def Balanced : Prop := ∀ counter p, net counter p s.world.calls = s.held counter p

/-- The prefixes that an answer adds to those of its name or drops from them. -/
def changed (env : Env) (r : Msg) : List Prefix :=
  match r.question with
  | [] => []
  | q :: _ =>
    let changes := s.interceptor.changes env (DNSNames.toLower q.name) r.newPrefixes
    if r.newPrefixes = [] then []
    else changes.1 ++ if s.interceptor.keepRoute then [] else changes.2

/-- The references that an event should take or release: one for each name that it adds the prefix
to or drops it from, or one for each name if the peer comes or goes. -/
def due (e : Event) (counter : CounterName) (p : Prefix) : ℕ :=
  match e, counter with
  | .answer env r, .route => if p ∈ s.changed env r then 1 else 0
  | .answer env r, .allowedIPs =>
    if s.interceptor.currentPeerKey ≠ [] ∧ p ∈ s.changed env r then 1 else 0
  | .addAllowedIPs _ _, .route => 0
  | .addAllowedIPs _ peerKey, .allowedIPs => if peerKey = [] then 0 else s.interceptor.names p
  | .removeAllowedIPs _, .route => 0
  | .removeAllowedIPs _, .allowedIPs => s.held .allowedIPs p
  | .removeRoute _, counter => s.held counter p
  | .others _, _ => 0

/-- The calls that an event asks for. -/
def asks (e : Event) (counter : CounterName) (p : Prefix) : ℕ :=
  match e, counter with
  | .answer env r, counter =>
    if World.called s.interceptor.currentPeerKey counter then (s.changed env r).count p else 0
  | .removeRoute env, counter =>
    if World.called s.interceptor.currentPeerKey counter then (s.interceptor.stored env).count p
    else 0
  | .addAllowedIPs env _, .allowedIPs | .removeAllowedIPs env, .allowedIPs =>
    (s.interceptor.stored env).count p
  | _, _ => 0

/-- No address is repeated: an answer does not repeat one that is new to its name, and no name
stores one twice when the peer comes or goes or everything is removed.  There is a peer to come or
go, or nothing is stored. -/
def Unrepeated : Event → Prop
  | .answer _ r => ∀ domain, r.resolvedDomain = some domain →
      (r.newPrefixes.filter (· ∉ s.interceptor.prefixes domain)).Nodup
  | .addAllowedIPs _ peerKey =>
    if peerKey = [] then ∀ e ∈ s.interceptor.interceptedDomains, e.2 = []
    else ∀ e ∈ s.interceptor.interceptedDomains, e.2.Nodup
  | .removeAllowedIPs _ =>
    if s.interceptor.currentPeerKey = [] then ∀ e ∈ s.interceptor.interceptedDomains, e.2 = []
    else ∀ e ∈ s.interceptor.interceptedDomains, e.2.Nodup
  | .removeRoute _ => ∀ e ∈ s.interceptor.interceptedDomains, e.2.Nodup
  | .others _ => True

/-- Every call of a counter takes effect, as the state right before it has it. -/
def Granted : Event → Prop
  | .answer env r => ∀ domain, r.resolvedDomain = some domain → r.newPrefixes ≠ [] →
      let d := s.interceptor
      let changes := d.changes env domain r.newPrefixes
      Along (fun w p => w.addRouteAndAllowedIP env d.currentPeerKey p)
          (fun w p => w.Taken env p d.currentPeerKey) (s.world.allocated changes.1) changes.1 ∧
        (d.keepRoute = false →
          Along (fun w p => w.removeRouteAndAllowedIP env d.currentPeerKey p)
            (fun w p => w.Released env p d.currentPeerKey)
            (d.addPrefixes env s.world changes.1) changes.2)
  | .addAllowedIPs env peerKey =>
    Along (fun w p => w.addAllowedIPForPrefix env peerKey p)
      (fun w p => w.AllowedIPTaken env p peerKey) s.world (s.interceptor.stored env)
  | .removeAllowedIPs env =>
    Along (fun w p => w.decrementAllowedIP env p) (fun w p => w.AllowedIPReleased env p) s.world
      (s.interceptor.stored env)
  | .removeRoute env =>
    Along (fun w p => w.removeRouteAndAllowedIP env s.interceptor.currentPeerKey p)
      (fun w p => w.Released env p s.interceptor.currentPeerKey) s.world (s.interceptor.stored env)
  | .others _ => True

/-- For every prefix as many calls of an event take effect as should. -/
def Exact (e : Event) : Prop := ∀ counter p, effective counter p (s.made e) = s.due e counter p

variable {s}

/-- The calls of a step are those in front of the earlier ones. -/
theorem made_of_append {new : List Call}
    (h : (s.step e).world.calls = new ++ s.world.calls) : s.made e = new := by
  rw [made, h, length_append, Nat.add_sub_cancel, take_left']
  rfl

/-- An event moves the references of a prefix one way only, and by its effective calls; what should
be held moves the same way, by what is due. -/
def Moves (s : Session) (e : Event) (counter : CounterName) (p : Prefix) : Prop :=
  ∃ sign : ℤ, sign ≠ 0 ∧
    net counter p (s.step e).world.calls =
      net counter p s.world.calls + sign * effective counter p (s.made e) ∧
    ((s.step e).held counter p : ℤ) = s.held counter p + sign * s.due e counter p

variable {p : Prefix}

/-- The counts move with what is held if all calls go one way. -/
theorem moves_of_calling {P : Call → Prop} (h : Calling P s.world (s.step e).world)
    (hsign : sign ≠ 0)
    (hP : ∀ c, P c → c.counter = counter → c.realPrefix = p → c.change = 0 ∨ c.change = sign)
    (hheld : ((s.step e).held counter p : ℤ) = s.held counter p + sign * s.due e counter p) :
    Moves s e counter p := by
  obtain ⟨new, hnew, hmade⟩ := h
  refine ⟨sign, hsign, ?_, hheld⟩
  rw [made_of_append hnew, hnew, net_append, net_eq_effective hsign, add_comm]
  intro c hc hfor
  rw [isFor, Bool.and_eq_true, decide_eq_true_eq, decide_eq_true_eq] at hfor
  exact hP c (hmade c hc) hfor.1 hfor.2

variable {env : Env} {r : Msg}

/-- What should be held after an answer, from the number of names. -/
theorem held_answer
    (hpeer : (s.step (.answer env r)).interceptor.currentPeerKey = s.interceptor.currentPeerKey)
    (hnames : ((s.step (.answer env r)).interceptor.names p : ℤ) =
      s.interceptor.names p + sign * if p ∈ s.changed env r then 1 else 0) (counter : CounterName) :
    ((s.step (.answer env r)).held counter p : ℤ) =
      s.held counter p + sign * s.due (.answer env r) counter p := by
  cases counter with
  | route =>
    rw [held, held, due, hnames]
    push_cast
    rfl
  | allowedIPs =>
    rw [held, held, due, hpeer]
    by_cases hnil : s.interceptor.currentPeerKey = []
    · simp [hnil]
    · simp [hnil, hnames]

/-- A reply changes nothing, or replaces the prefixes of a domain. -/
theorem step_answer_cases (s : Session) (env : Env) (r : Msg) :
    s.step (.answer env r) = s ∧ s.changed env r = [] ∨
    ∃ domain, let changes := s.interceptor.changes env domain r.newPrefixes
      s.changed env r = changes.1 ++ (if s.interceptor.keepRoute then [] else changes.2) ∧
      s.step (.answer env r) = ⟨s.interceptor.storePrefixes env domain r.newPrefixes,
        s.interceptor.removePrefixes env (s.interceptor.addPrefixes env s.world changes.1)
          changes.2⟩ := by
  rcases s.interceptor.writeMsg_cases env s.world r with
    ⟨hnone, hwritten⟩ | ⟨q, rest, hquestion, hne, hwritten⟩
  · refine .inl ⟨by rw [step, hwritten], ?_⟩
    unfold changed
    split
    · rfl
    next hquestion =>
      rcases hnone with hnil | hnil
      · rw [hnil] at hquestion
        cases hquestion
      · exact if_pos hnil
  · refine .inr ⟨DNSNames.toLower q.name, ?_, ?_⟩
    · rw [changed, hquestion]
      exact if_neg hne
    · rw [step, hwritten]
      rfl

/-- What a reply with addresses adds and removes. -/
theorem changed_eq {domain : Bytes} (hdomain : r.resolvedDomain = some domain)
    (hne : r.newPrefixes ≠ []) :
    s.changed env r = (s.interceptor.changes env domain r.newPrefixes).1 ++
      if s.interceptor.keepRoute then []
      else (s.interceptor.changes env domain r.newPrefixes).2 := by
  unfold Msg.resolvedDomain at hdomain
  unfold changed
  cases hquestion : r.question with
  | nil => simp [hquestion] at hdomain
  | cons q rest =>
    obtain rfl : DNSNames.toLower q.name = domain := by simpa [hquestion] using hdomain
    exact if_neg hne

/-- A reply without addresses changes nothing. -/
theorem changed_eq_nil (h : r.resolvedDomain = none ∨ r.newPrefixes = []) :
    s.changed env r = [] := by
  unfold Msg.resolvedDomain at h
  unfold changed
  cases hquestion : r.question with
  | nil => rfl
  | cons q rest =>
    rcases h with h | h
    · simp [hquestion] at h
    · exact if_pos h

/-- The counts move with what is held when a domain is updated. -/
theorem moves_update {domain : Bytes} {changes : List Prefix × List Prefix}
    (hchanges : s.interceptor.changes env domain r.newPrefixes = changes)
    (hchanged : s.changed env r =
      changes.1 ++ (if s.interceptor.keepRoute then [] else changes.2))
    (hstep : s.step (.answer env r) = ⟨s.interceptor.storePrefixes env domain r.newPrefixes,
      s.interceptor.removePrefixes env (s.interceptor.addPrefixes env s.world changes.1) changes.2⟩)
    (counter : CounterName) (p : Prefix) : Moves s (.answer env r) counter p := by
  have hmem : p ∈ s.changed env r ↔
      p ∈ changes.1 ∨ s.interceptor.keepRoute = false ∧ p ∈ changes.2 := by
    rw [hchanged, mem_append]
    cases s.interceptor.keepRoute with
    | false => simp
    | true => simp
  have hapart : p ∈ changes.1 → p ∈ changes.2 → False := by
    rw [← hchanges, Interceptor.changes, mem_toAdd, mem_toRemove]
    intro hadd hremove
    exact hadd.2 hremove.1
  have hnames : ((s.step (.answer env r)).interceptor.names p : ℤ) = s.interceptor.names p +
      (if p ∈ changes.1 then 1 else 0) -
      (if s.interceptor.keepRoute = false ∧ p ∈ changes.2 then 1 else 0) := by
    rw [hstep, ← hchanges]
    exact s.interceptor.names_storePrefixes env _ _ p
  have hpeer : (s.step (.answer env r)).interceptor.currentPeerKey =
      s.interceptor.currentPeerKey := by
    rw [hstep]
    exact s.interceptor.currentPeerKey_storePrefixes env _ _
  have hcalling : Calling (fun c => Within changes.1 1 s.interceptor.currentPeerKey c ∨
      s.interceptor.keepRoute = false ∧ Within changes.2 (-1) s.interceptor.currentPeerKey c)
      s.world (s.step (.answer env r)).world := by
    rw [hstep]
    refine ((s.interceptor.calling_addPrefixes env s.world changes.1).mono ?_).trans
      ((s.interceptor.calling_removePrefixes env _ changes.2).mono ?_)
    · intro c
      exact .inl
    · intro c
      exact .inr
  -- the sign is that of the list that the prefix is in
  by_cases hremove : s.interceptor.keepRoute = false ∧ p ∈ changes.2
  · have hadd : p ∉ changes.1 := fun hadd => hapart hadd hremove.2
    refine moves_of_calling hcalling (show (-1 : ℤ) ≠ 0 by decide) ?_ ?_
    · rintro c (hc | ⟨-, hc⟩) - rfl
      · exact absurd hc.mem hadd
      · exact hc.change
    · refine held_answer hpeer ?_ counter
      rw [hnames, if_neg hadd, if_pos hremove, if_pos (hmem.mpr (.inr hremove))]
      ring
  · refine moves_of_calling hcalling one_ne_zero ?_ (held_answer hpeer ?_ counter)
    · rintro c (hc | ⟨hkeep, hc⟩) - rfl
      · exact hc.change
      · exact absurd ⟨hkeep, hc.mem⟩ hremove
    · have hin : p ∈ s.changed env r ↔ p ∈ changes.1 := by
        rw [hmem]
        exact or_iff_left hremove
      rw [hnames, if_neg hremove, sub_zero, one_mul, if_congr hin rfl rfl]

/-- An event that leaves the interceptor and the calls alone, and owes nothing. -/
theorem moves_of_unchanged (hinterceptor : (s.step e).interceptor = s.interceptor)
    (hcalls : (s.step e).world.calls = s.world.calls) (hdue : s.due e counter p = 0) :
    Moves s e counter p := by
  refine moves_of_calling (P := fun _ => False) (of_eq hcalls) one_ne_zero nofun ?_
  have hheld : (s.step e).held counter p = s.held counter p := by
    unfold held
    rw [hinterceptor]
  rw [hheld, hdue]
  simp

variable (env : Env)

/-- The counts move with what is held at a reply. -/
theorem moves_answer (r : Msg) (counter : CounterName) (p : Prefix) :
    Moves s (.answer env r) counter p := by
  rcases s.step_answer_cases env r with ⟨hstep, hchanged⟩ | ⟨domain, hchanged, hstep⟩
  · refine moves_of_unchanged (by rw [hstep]) (by rw [hstep]) ?_
    cases counter with
    | route | allowedIPs => simp [due, hchanged]
  · exact moves_update rfl hchanged hstep counter p

/-- The counts move with what is held when a peer is set, if there was none. -/
theorem moves_addAllowedIPs (peerKey : Bytes)
    (hpeer : s.interceptor.currentPeerKey = []) (counter : CounterName) (p : Prefix) :
    Moves s (.addAllowedIPs env peerKey) counter p := by
  have hcalling := foldl (P := fun c => c.counter = .allowedIPs ∧
      (c.change = 0 ∨ c.change = 1)) (fun w q (_ : q ∈ s.interceptor.stored env) =>
    (calling_addAllowedIPForPrefix env w q peerKey).mono fun c hc => ⟨hc.1, hc.2.2⟩) s.world
  refine moves_of_calling (e := .addAllowedIPs env peerKey) hcalling one_ne_zero ?_ ?_
  · intro c hc _ _
    exact hc.2
  · cases counter with
    | route => simp [held, due, step, Interceptor.addAllowedIPs, Interceptor.names]
    | allowedIPs =>
      by_cases hnil : peerKey = []
      · simp [held, due, step, Interceptor.addAllowedIPs, hpeer, hnil]
      · simp [held, due, step, Interceptor.addAllowedIPs, Interceptor.names, hpeer, hnil]

variable (counter : CounterName)

/-- The counts move with what is held when the peer is gone. -/
theorem moves_removeAllowedIPs (p : Prefix) :
    Moves s (.removeAllowedIPs env) counter p := by
  have hcalling := foldl (P := fun c => c.counter = .allowedIPs ∧
      (c.change = 0 ∨ c.change = -1)) (fun w q (_ : q ∈ s.interceptor.stored env) =>
    (calling_decrementAllowedIP env w q).mono fun c hc => ⟨hc.1, hc.2.2⟩) s.world
  refine moves_of_calling (e := .removeAllowedIPs env) hcalling (show (-1 : ℤ) ≠ 0 by decide) ?_ ?_
  · intro c hc _ _
    exact hc.2
  · cases counter with
    | route => simp [held, due, step, Interceptor.removeAllowedIPs, Interceptor.names]
    | allowedIPs =>
      show ((0 : ℕ) : ℤ) = s.held .allowedIPs p + -1 * s.held .allowedIPs p
      ring

/-- Nothing is held after the route is removed. -/
theorem held_removeRoute (s : Session) (env : Env) (counter : CounterName) (p : Prefix) :
    (s.step (.removeRoute env)).held counter p = 0 := by
  cases counter with
  | route => rfl
  | allowedIPs => exact ite_self 0

/-- The counts move with what is held when the route is removed. -/
theorem moves_removeRoute (p : Prefix) :
    Moves s (.removeRoute env) counter p := by
  have hloop := foldl (P := Within (s.interceptor.stored env) (-1)
      s.interceptor.currentPeerKey) (fun w q hq =>
    calling_removeRouteAndAllowedIP env w q hq s.interceptor.currentPeerKey) s.world
  have hcalling := hloop.trans (s.interceptor.calling_cleanupDNATMappings env _ _)
  refine moves_of_calling (e := .removeRoute env) hcalling (show (-1 : ℤ) ≠ 0 by decide) ?_ ?_
  · intro c hc _ _
    exact hc.change
  · rw [held_removeRoute, due]
    ring

/-- A peer is only set while none is. -/
def Event.mayFollow (s : Session) : Event → Prop
  | .addAllowedIPs _ _ => s.interceptor.currentPeerKey = []
  | _ => True

/-- In every step the counts move with what is held. -/
theorem moves_step (e : Event) (he : Event.mayFollow s e) (counter : CounterName) (p : Prefix) :
    Moves s e counter p := by
  cases e with
  | answer env r => exact moves_answer env r counter p
  | addAllowedIPs env peerKey => exact moves_addAllowedIPs env peerKey he counter p
  | removeAllowedIPs env => exact moves_removeAllowedIPs env counter p
  | removeRoute env => exact moves_removeRoute env counter p
  | others w => exact moves_of_unchanged rfl rfl rfl

/-- An event keeps the balance if and only if it is exact. -/
theorem balanced_step_iff (h : s.Balanced) (he : Event.mayFollow s e) :
    (s.step e).Balanced ↔ s.Exact e := by
  refine forall_congr' fun counter => forall_congr' fun p => ?_
  obtain ⟨sign, hsign, hnet, hheld⟩ := moves_step e he counter p
  rw [hnet, hheld, h counter p, add_right_inj, mul_right_inj' hsign, Nat.cast_inj]

/-! ### Which calls an event asks for -/

/-- What a reply asks for. -/
theorem asking_answer (s : Session) (env : Env) (r : Msg) :
    Asking (s.asks (.answer env r)) (s.Granted (.answer env r)) s.world
      (s.step (.answer env r)).world := by
  rcases s.interceptor.writeMsg_cases env s.world r with
    ⟨hnone, hwritten⟩ | ⟨q, rest, hquestion, hne, hwritten⟩
  · have hdomain : r.resolvedDomain = none ∨ r.newPrefixes = [] := by
      simpa [Msg.resolvedDomain] using hnone
    have hworld : (s.step (.answer env r)).world = s.world := by rw [step, hwritten]
    rw [hworld]
    refine (Asking.none rfl).congr (fun counter p => ?_) (iff_of_true trivial ?_)
    · simp [asks, changed_eq_nil hdomain]
    · intro domain hsome hne
      rcases hdomain with hdomain | hdomain
      · rw [hdomain] at hsome
        cases hsome
      · exact absurd hdomain hne
  · have hdomain : r.resolvedDomain = some (DNSNames.toLower q.name) := by
      simp [Msg.resolvedDomain, hquestion]
    have hadd := s.interceptor.asking_addPrefixes env s.world
      (s.interceptor.changes env (DNSNames.toLower q.name) r.newPrefixes).1
    have hremove := s.interceptor.asking_removePrefixes env
      (s.interceptor.addPrefixes env s.world
        (s.interceptor.changes env (DNSNames.toLower q.name) r.newPrefixes).1)
      (s.interceptor.changes env (DNSNames.toLower q.name) r.newPrefixes).2
    rw [step, hwritten]
    refine (hadd.trans hremove).congr (fun counter p => ?_) ?_
    · simp only [asks, changed_eq hdomain hne, count_append]
      split <;> rfl
    · unfold Granted
      simp only [hdomain, Option.some.injEq, forall_eq']
      exact ⟨fun h _ => h, fun h => h hne⟩

/-- What a step asks for. -/
theorem asking_step (s : Session) (e : Event) :
    Asking (s.asks e) (s.Granted e) s.world (s.step e).world := by
  cases e with
  | answer env r => exact asking_answer s env r
  | addAllowedIPs env peerKey =>
    have hturn : ∀ w p, Asking (fun counter q => if decide (counter = .allowedIPs) ∧ p = q then 1
        else 0) (AllowedIPTaken env w p peerKey) w (w.addAllowedIPForPrefix env peerKey p) :=
      fun w p => (w.asking_addAllowedIPForPrefix env p peerKey).congr (fun _ _ => by simp) .rfl
    refine (Asking.foldl hturn (s.interceptor.stored env) s.world).congr
      (fun counter p => ?_) .rfl
    cases counter <;> simp [asks]
  | removeAllowedIPs env =>
    have hturn : ∀ w p, Asking (fun counter q => if decide (counter = .allowedIPs) ∧ p = q then 1
        else 0) (AllowedIPReleased env w p) w (w.decrementAllowedIP env p) :=
      fun w p => (w.asking_decrementAllowedIP env p).congr (fun _ _ => by simp) .rfl
    refine (Asking.foldl hturn (s.interceptor.stored env) s.world).congr
      (fun counter p => ?_) .rfl
    cases counter <;> simp [asks]
  | removeRoute env =>
    have hloop := Asking.foldl (fun w p => w.asking_removeRouteAndAllowedIP env p
      s.interceptor.currentPeerKey) (s.interceptor.stored env) s.world
    have hcleanup : ∀ w, (s.interceptor.cleanupDNATMappings env w).calls = w.calls := by
      intro w
      obtain ⟨new, hnew, hnone⟩ := s.interceptor.calling_cleanupDNATMappings env w fun _ => False
      rw [hnew, eq_nil_iff_forall_not_mem.mpr hnone, nil_append]
    refine (hloop.trans (Asking.none (hcleanup _))).congr (fun counter p => ?_)
      (iff_of_eq (and_true _))
    simp [asks]
  | others w => exact Asking.none rfl

/-- A reply changes nothing twice if its new addresses are distinct. -/
theorem nodup_changed_iff {domain : Bytes} (hdomain : r.resolvedDomain = some domain)
    (hne : r.newPrefixes ≠ []) : (s.changed env r).Nodup ↔
      (r.newPrefixes.filter (· ∉ s.interceptor.prefixes domain)).Nodup := by
  have hapart : ∀ p ∈ (s.interceptor.changes env domain r.newPrefixes).1,
      p ∉ (s.interceptor.changes env domain r.newPrefixes).2 := by
    unfold Interceptor.changes
    intro p hadd hremove
    exact ((mem_toAdd _ _ _).mp hadd).2 ((mem_toRemove _ _ _).mp hremove).1
  have hremove := nodup_toRemove env.prefixOrder (s.interceptor.prefixes domain) r.newPrefixes
  rw [changed_eq hdomain hne, ← toAdd_eq env.prefixOrder, ← Interceptor.changes]
  cases s.interceptor.keepRoute with
  | true => simp
  | false =>
    rw [if_neg Bool.false_ne_true, nodup_append']
    exact ⟨And.left, fun h => ⟨h, hremove, fun p hadd => hapart p hadd⟩⟩

theorem unrepeated_answer_iff :
    s.Unrepeated (.answer env r) ↔ (s.changed env r).Nodup := by
  unfold Unrepeated
  cases hdomain : r.resolvedDomain with
  | none => simp [changed_eq_nil (.inl hdomain), hdomain]
  | some domain =>
    by_cases hnil : r.newPrefixes = []
    · simp [changed_eq_nil (.inr hnil), hnil]
    · rw [nodup_changed_iff env hdomain hnil]
      simp [hdomain]

theorem forall_counter_iff {P : CounterName → Prefix → Prop} :
    (∀ counter p, P counter p) ↔ (∀ p, P .route p) ∧ ∀ p, P .allowedIPs p :=
  ⟨fun h => ⟨h .route, h .allowedIPs⟩, fun h counter => by cases counter with
    | route => exact h.1
    | allowedIPs => exact h.2⟩

/-- An event asks for the calls that are due exactly if nothing is repeated. -/
theorem unrepeated_iff (s : Session) (e : Event) :
    s.Unrepeated e ↔ ∀ counter p, s.asks e counter p = s.due e counter p := by
  cases e with
  | answer env r =>
    rw [unrepeated_answer_iff, nodup_iff_count_eq_one]
    constructor
    · intro h counter p
      have hcount : (s.changed env r).count p = if p ∈ s.changed env r then 1 else 0 := by
        split
        next hp => exact h p hp
        next hp => exact count_eq_zero.mpr hp
      cases counter with
      | route => simpa [asks, due, World.called] using hcount
      | allowedIPs =>
        by_cases hpeer : s.interceptor.currentPeerKey = []
        · simp [asks, due, World.called, hpeer]
        · simpa [asks, due, World.called, hpeer] using hcount
    · intro h p hp
      simpa [asks, due, World.called, hp] using h .route p
  | addAllowedIPs env peerKey =>
    rw [forall_counter_iff]
    by_cases hpeer : peerKey = []
    · simp [Unrepeated, asks, due, hpeer, s.interceptor.count_stored_eq_zero_iff env]
    · simp [Unrepeated, asks, due, hpeer, s.interceptor.count_stored_iff env]
  | removeAllowedIPs env =>
    rw [forall_counter_iff]
    by_cases hpeer : s.interceptor.currentPeerKey = []
    · simp [Unrepeated, asks, due, held, hpeer, s.interceptor.count_stored_eq_zero_iff env]
    · simp [Unrepeated, asks, due, held, hpeer, s.interceptor.count_stored_iff env]
  | removeRoute env =>
    rw [forall_counter_iff]
    by_cases hpeer : s.interceptor.currentPeerKey = []
    · simp [Unrepeated, asks, due, held, World.called, hpeer, s.interceptor.count_stored_iff env]
    · simp [Unrepeated, asks, due, held, World.called, hpeer, s.interceptor.count_stored_iff env]
  | others w => simp [Unrepeated, asks, due]

end Session

/-! ## Histories in which peers come and go in turn -/

/-- The peers that come and go. -/
def Event.turn : Event → Option Bool
  | .addAllowedIPs _ _ => some true
  | .removeAllowedIPs _ => some false
  | _ => none

/-- `AddAllowedIPs` and `RemoveAllowedIPs` alternate. -/
def Alternating (es : List Event) : Prop := (es.filterMap Event.turn).IsChain (· ≠ ·)

instance (es : List Event) : Decidable (Alternating es) :=
  inferInstanceAs (Decidable ((es.filterMap Event.turn).IsChain (· ≠ ·)))

variable {es : List Event} (keepRoute : Bool) (w : World)

namespace Session

/-- Only the calls that come in turns change the peer. -/
theorem currentPeerKey_step {s : Session} (h : e.turn = none) :
    (s.step e).interceptor.currentPeerKey = s.interceptor.currentPeerKey := by
  cases e with
  | answer env r =>
    rcases s.step_answer_cases env r with ⟨hstep, -⟩ | ⟨domain, -, hstep⟩
    · rw [hstep]
    · rw [hstep]
      exact s.interceptor.currentPeerKey_storePrefixes env _ _
  | addAllowedIPs env peerKey => cases h
  | removeAllowedIPs env => cases h
  | removeRoute env => rfl
  | others w => rfl

/-- No peer is set unless the last turn set one. -/
theorem currentPeerKey_run (h : (es.filterMap Event.turn).getLast? ≠ some true) :
    ((start keepRoute w).run es).interceptor.currentPeerKey = [] := by
  induction es using reverseRecOn with
  | nil => rfl
  | append_singleton es e ih =>
    rw [run_concat]
    cases hturn : e.turn with
    | none =>
      rw [currentPeerKey_step hturn]
      apply ih
      simpa [hturn] using h
    | some set =>
      cases e with
      | addAllowedIPs env peerKey =>
        refine absurd ?_ h
        simp [Event.turn]
      | removeAllowedIPs env => rfl
      | answer env r | removeRoute env | others w => cases hturn

/-- In an alternating run every event may follow those before. -/
theorem mayFollow_run {es pre : List Event} (h : Alternating es) (hpre : pre ++ [e] <+: es) :
    Event.mayFollow ((start keepRoute w).run pre) e := by
  cases e with
  | addAllowedIPs env peerKey =>
    apply currentPeerKey_run
    intro hlast
    obtain ⟨post, rfl⟩ := hpre
    rw [Alternating, append_assoc, filterMap_append, isChain_append] at h
    exact h.2.2 true hlast true (by simp [Event.turn]) rfl
  | answer env r | removeAllowedIPs env | removeRoute env | others w => trivial

end Session

open Session

/-- The law of a history: the interceptor is balanced, and after `RemoveRoute` has no reference. -/
structure Settled (keepRoute : Bool) (w : World) (es : List Event) : Prop where
  balanced : ((start keepRoute w).run es).Balanced
  released : ∀ env, es.getLast? = some (.removeRoute env) → ∀ counter p,
    net counter p ((start keepRoute w).run es).world.calls = 0

/-- A history is settled if and only if it ends balanced. -/
theorem settled_iff_balanced {keepRoute : Bool} {w : World} :
    Settled keepRoute w es ↔ ((start keepRoute w).run es).Balanced := by
  refine ⟨Settled.balanced, fun h => ⟨h, fun env hlast counter p => ?_⟩⟩
  obtain ⟨es', rfl⟩ := getLast?_eq_some_iff.mp hlast
  rw [h counter p, run_concat, held_removeRoute]
  rfl

/-- The step: an event that does not repeat an address and is also refused a call keeps the balance
if and only if it does neither. -/
theorem Session.balanced_step_iff_causes {s : Session} (h : s.Balanced)
    (he : Session.Event.mayFollow s e) (hcause : s.Unrepeated e ∨ s.Granted e) :
    (s.step e).Balanced ↔ s.Unrepeated e ∧ s.Granted e := by
  obtain ⟨new, hnew, -, hgranted⟩ := asking_step s e
  have hmade := made_of_append hnew
  have hasks := unrepeated_iff s e
  rw [balanced_step_iff h he, Session.Exact, hmade]
  rcases hcause with hunrepeated | hall
  · -- what is asked for is due
    rw [← hgranted, and_iff_right hunrepeated]
    simp only [hasks.mp hunrepeated]
  · -- what is asked for takes effect
    rw [hasks, and_iff_left hall]
    simp only [hgranted.mpr hall]

/-- **When the references are balanced**: in a history in which no event both repeats an address and
is refused a call, all along if and only if no event repeats an address and every call takes
effect. -/
theorem settled_iff (keepRoute : Bool) (w : World) (es : List Event) (h : Alternating es)
    (hcause : ∀ pre e, pre ++ [e] <+: es →
      ((start keepRoute w).run pre).Unrepeated e ∨ ((start keepRoute w).run pre).Granted e) :
    (∀ pre, pre <+: es → Settled keepRoute w pre) ↔
      ∀ pre e, pre ++ [e] <+: es →
        ((start keepRoute w).run pre).Unrepeated e ∧ ((start keepRoute w).run pre).Granted e := by
  simp only [settled_iff_balanced]
  apply Transition.forall_prefix_iff
  · intro counter p
    cases counter with
    | route => rfl
    | allowedIPs => rfl
  · intro pre e hpre hbalanced
    rw [Session.run_concat]
    exact Session.balanced_step_iff_causes hbalanced (Session.mayFollow_run keepRoute w h hpre)
      (hcause pre e hpre)

/-- A peer is set and a name is answered with one address. -/
def oneVisit : List Event :=
  [.addAllowedIPs allSucceed [112], .answer allSucceed (reply .a [104] [[10, 0, 0, 1]])]

/-- Nothing is repeated and all calls succeed, so the counters are settled after that. -/
theorem settled_oneVisit : Settled false {} oneVisit := by
  have hsmooth : ∀ pre e, pre ++ [e] <+: oneVisit →
      ((start false {}).run pre).Unrepeated e ∧ ((start false {}).run pre).Granted e := by
    rintro pre e ⟨rest, hrest⟩
    rcases pre with _ | ⟨e₁, _ | ⟨e₂, pre⟩⟩
    · obtain ⟨rfl, -⟩ : e = .addAllowedIPs allSucceed [112] ∧ _ := by simpa [oneVisit] using hrest
      exact ⟨nofun, trivial⟩
    · obtain ⟨rfl, rfl, -⟩ : e₁ = .addAllowedIPs allSucceed [112] ∧
          e = .answer allSucceed (reply .a [104] [[10, 0, 0, 1]]) ∧ _ := by
        simpa [oneVisit] using hrest
      refine ⟨fun domain _ => ?_, fun domain hdomain _ => ?_⟩
      · exact (nodup_singleton _).sublist filter_sublist
      · obtain rfl : [104] = domain := Option.some.inj hdomain
        exact ⟨⟨⟨.inr rfl, fun _ => .inr ⟨_, rfl⟩⟩, trivial⟩, fun _ => trivial⟩
    · have := congrArg length hrest
      simp [oneVisit] at this
  refine (settled_iff false {} oneVisit (by decide) fun pre e hpre => ?_).mpr hsmooth oneVisit
    prefix_rfl
  exact .inl (hsmooth pre e hpre).1

/-- An answer repeats an address and the next one drops it: one of the two references stays after
`RemoveRoute`. -/
theorem reference_left_behind : ¬ Settled false {}
    [.answer allSucceed (reply .a [104] [[10, 0, 0, 1], [10, 0, 0, 1]]),
      .answer allSucceed (reply .a [104] [[10, 0, 0, 2]]), .removeRoute allSucceed] := by
  intro h
  have hreleased := h.released allSucceed rfl .route (hostPrefix (.v4 0x0A000001#32))
  revert hreleased
  decide

end DNSInterceptor
