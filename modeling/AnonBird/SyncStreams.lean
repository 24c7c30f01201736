/-
# Sync streams of one peer

Model of `Sync`, `handleUpdates` and `cancelPeerRoutines` of the management server with the update
channels of `updatechannel.go`.  The first part follows any number of streams of a peer.  Channels
and refreshes are kept by peer: a stream that ends takes away those of the peer, whichever stream
they belong to.

The second part follows one stream and the broadcasts after account changes.  The newest map is lost
in one of three ways (`Loses`): the broadcast finds no channel although the stream has computed its
first map, the channel is full, or the map of an older broadcast is put into the channel after it.
Of what the channel hands to a stream, only maps that are followed by another map are not sent.
-/
import AnonBird.Transition

open List

namespace Sync

/-! ## Streams and the channel of the peer -/

/-- Which credentials are refreshed: `turnCfg` with time-based credentials, `relayCfg`. -/
structure SecretsConfig where
  turn : Bool
  relay : Bool

/-- What the server keeps of a peer; streams, with their channels and refreshes, are numbered. -/
structure Peer where
  started : ℕ := 0
  /-- The streams that have not ended, the newest first. -/
  live : List ℕ := []
  /-- The entry of the peer in `peerChannels`. -/
  peerChannel : Option ℕ := none
  closed : List ℕ := []
  turnCancel : Option ℕ := none
  relayCancel : Option ℕ := none

/-- What happens to the streams of a peer. -/
inductive Event where
  | connect
  /-- `SyncAndMarkPeer` fails. -/
  | refuse
  /-- `sendInitialSync` or `OnPeerConnected` fails. -/
  | fail
  /-- `cancelPeerRoutines` of a stream whose context is done, whose channel is closed or that fails
  to send. -/
  | finish (stream : ℕ)

namespace Peer

variable (cfg : SecretsConfig) (p : Peer)

/-- The channel of the peer is closed. -/
def closeChannel : Peer :=
  match p.peerChannel with
  | none => p
  | some channel => { p with peerChannel := none, closed := channel :: p.closed }

/-- A new channel takes the place of the old one. -/
def createChannel : Peer := { p.closeChannel with peerChannel := some p.started }
/-- The refresh loops are ended. -/
def cancelRefresh : Peer := { p with turnCancel := none, relayCancel := none }

/-- The refresh loops of the new stream are started. -/
def setupRefresh : Peer :=
  { p with
    turnCancel := if cfg.turn then some p.started else none
    relayCancel := if cfg.relay then some p.started else none }

/-- The end of everything that runs for the peer. -/
def cancelPeerRoutinesWithoutLock : Peer := p.closeChannel.cancelRefresh

/-- The peer after an event. -/
def step : Event → Peer
  | .connect =>
    { p.createChannel.setupRefresh cfg with
      live := p.started :: p.live
      started := p.started + 1 }
  | .refuse => p
  | .fail => p.cancelPeerRoutinesWithoutLock
  | .finish stream =>
    if stream ∈ p.live then
      { p.cancelPeerRoutinesWithoutLock with live := p.live.erase stream }
    else p

/-- The peer after events from the start. -/
def run (es : List Event) : Peer := es.foldl (step cfg) {}

/-- A stream has its channel, open and registered, and its refreshes. -/
def Owns (stream : ℕ) : Prop :=
  p.peerChannel = some stream ∧ stream ∉ p.closed ∧
    (cfg.turn = true → p.turnCancel = some stream) ∧
    (cfg.relay = true → p.relayCancel = some stream)

/-- The newest stream that has not ended owns the channel. -/
def NewestOwns : Prop := ∀ stream, p.live.head? = some stream → p.Owns cfg stream

/-- Channels are numbered by the streams that were set up. -/
def Numbered : Prop :=
  (∀ channel, p.peerChannel = some channel → channel < p.started) ∧
    ∀ channel ∈ p.closed, channel < p.started

/-- The last event of a run. -/
theorem run_concat (es : List Event) (e : Event) :
    run cfg (es ++ [e]) = (run cfg es).step cfg e := foldl_concat ..

variable {cfg p}

/-- Closing the channel keeps the numbering. -/
theorem Numbered.closeChannel (h : p.Numbered) : p.closeChannel.Numbered := by
  unfold Peer.closeChannel
  split
  · exact h
  next channel hchannel =>
    refine ⟨nofun, fun c hc => ?_⟩
    rcases mem_cons.mp hc with rfl | hc
    · exact h.1 c hchannel
    · exact h.2 c hc

/-- Closing the channel starts no stream. -/
theorem started_closeChannel : p.closeChannel.started = p.started := by
  unfold closeChannel
  split <;> rfl

/-- There is no channel after it is closed. -/
theorem peerChannel_closeChannel : p.closeChannel.peerChannel = none := by
  unfold closeChannel
  split
  · assumption
  · rfl

/-- Closing the channel ends no stream. -/
theorem live_closeChannel : p.closeChannel.live = p.live := by
  unfold closeChannel
  split <;> rfl

/-- Every event keeps the numbering. -/
theorem Numbered.step (h : p.Numbered) (e : Event) : (p.step cfg e).Numbered := by
  have hclosed := h.closeChannel
  unfold Numbered at hclosed
  rw [started_closeChannel] at hclosed
  cases e with
  | connect =>
    refine ⟨fun channel hchannel => ?_, fun channel hchannel => ?_⟩
    · cases hchannel
      exact Nat.lt_succ_self _
    · exact Nat.lt_succ_of_lt (hclosed.2 channel hchannel)
  | refuse => exact h
  | fail => exact h.closeChannel
  | finish stream =>
    unfold Peer.step
    dsimp only
    split
    · exact h.closeChannel
    · exact h

/-- The streams of a run are numbered. -/
theorem numbered_run (es : List Event) : (run cfg es).Numbered :=
  foldlRecOn es _ ⟨nofun, nofun⟩ fun _ h e _ => h.step e

/-- Without a channel there must be no stream. -/
theorem newestOwns_of_none (h : p.peerChannel = none) : p.NewestOwns cfg ↔ p.live = [] := by
  constructor
  · intro hnewest
    cases hlive : p.live with
    | nil => rfl
    | cons stream rest =>
      have howns := hnewest stream (by rw [hlive]; rfl)
      rw [Owns, h] at howns
      cases howns.1
  · intro hlive stream hstream
    rw [hlive] at hstream
    cases hstream

end Peer

open Peer

/-- **A stream that ends leaves no other**: the newest stream owns its channel all along if and only
if a stream ends, or fails after it was accepted, only while no other is left. -/
theorem newestOwns_iff (cfg : SecretsConfig) (es : List Event) :
    (∀ pre, pre <+: es → (run cfg pre).NewestOwns cfg) ↔ ∀ pre e, pre ++ [e] <+: es →
        (e = .fail → (run cfg pre).live = []) ∧
          ∀ stream ∈ (run cfg pre).live, e = .finish stream →
            (run cfg pre).live.erase stream = [] := by
  refine Transition.forall_prefix_iff nofun ?_
  intro pre e _ h
  rw [run_concat]
  have hnumbered := (numbered_run pre : (run cfg pre).Numbered).closeChannel
  generalize run cfg pre = p at h hnumbered ⊢
  cases e with
  | connect =>
    simp only [reduceCtorEq, false_implies, implies_true, and_self, iff_true]
    intro stream hstream
    cases hstream
    have hstarted : p.createChannel.started = p.started := started_closeChannel
    refine ⟨rfl, fun hclosed => ?_, fun hturn => ?_, fun hrelay => ?_⟩
    · have hlt := hnumbered.2 p.started hclosed
      rw [started_closeChannel] at hlt
      exact Nat.lt_irrefl _ hlt
    · simp [step, setupRefresh, hturn, hstarted]
    · simp [step, setupRefresh, hrelay, hstarted]
  | refuse => simpa [step] using h
  | fail =>
    rw [newestOwns_of_none (p := p.step cfg .fail) peerChannel_closeChannel]
    simp [step, cancelPeerRoutinesWithoutLock, cancelRefresh, live_closeChannel]
  | finish stream =>
    simp only [step, reduceCtorEq, false_implies, Event.finish.injEq, true_and]
    split
    next hlive =>
      rw [newestOwns_of_none (p := { p.cancelPeerRoutinesWithoutLock with
        live := p.live.erase stream }) peerChannel_closeChannel]
      grind
    next hended =>
      grind

/-- The old stream ends after the new one was set up, as it does since its channel was closed. -/
theorem stream_loses_channel :
    ¬ (run ⟨true, true⟩ [.connect, .connect, .finish 0]).NewestOwns ⟨true, true⟩ := by
  intro h
  have howns := h 1 rfl
  cases howns.1

/-! ## Changes, broadcasts and one stream -/

/-- What a message carries. -/
inductive MessageType where
  | networkMap
  | controlConfig
  deriving DecidableEq

/-- `UpdateMessage`; of a network map, the number of the account state it was computed from. -/
structure UpdateMessage where
  messageType : MessageType
  version : ℕ := 0

/-- `UpdateDebouncer`: whether its timer runs, and the pending updates. -/
structure UpdateDebouncer where
  timer : Bool := false
  pendingUpdates : List UpdateMessage := []

/-- `ProcessUpdate`: whether to send the update at once. -/
def UpdateDebouncer.processUpdate (d : UpdateDebouncer) (update : UpdateMessage) :
    Bool × UpdateDebouncer :=
  if d.timer = false then (true, { d with timer := true })
  else
    match d.pendingUpdates.getLast? with
    | some last =>
      if update.messageType = .networkMap ∧ last.messageType = .networkMap then
        (false, { d with pendingUpdates := d.pendingUpdates.dropLast ++ [update] })
      else (false, { d with pendingUpdates := d.pendingUpdates ++ [update] })
    | none => (false, { d with pendingUpdates := d.pendingUpdates ++ [update] })

/-- The pending messages are taken; the timer runs on if there were any. -/
def UpdateDebouncer.getPendingUpdates (d : UpdateDebouncer) :
    List UpdateMessage × UpdateDebouncer :=
  (d.pendingUpdates, { timer := d.timer && !d.pendingUpdates.isEmpty, pendingUpdates := [] })

/-- An update is to be sent at once, or is pending, maybe in the place of a map. -/
theorem UpdateDebouncer.processUpdate_cases (d : UpdateDebouncer) (m : UpdateMessage) :
    (d.timer = false ∧ d.processUpdate m = (true, ⟨true, d.pendingUpdates⟩)) ∨
    ∃ pending, d.processUpdate m = (false, ⟨true, pending⟩) ∧
      (pending = d.pendingUpdates ++ [m] ∨ ∃ ps last, d.pendingUpdates = ps ++ [last] ∧
        pending = ps ++ [m] ∧ m.messageType = .networkMap ∧ last.messageType = .networkMap) := by
  obtain ⟨timer, pending⟩ := d
  cases timer with
  | false => exact .inl ⟨rfl, rfl⟩
  | true =>
    right
    simp only [processUpdate, Bool.true_eq_false, if_false]
    split
    next last hlast =>
      obtain ⟨ps, rfl⟩ := getLast?_eq_some_iff.mp hlast
      split
      next hmaps =>
        exact ⟨_, rfl, .inr ⟨ps, last, rfl, by rw [dropLast_concat], hmaps⟩⟩
      · exact ⟨_, rfl, .inl rfl⟩
    · exact ⟨_, rfl, .inl rfl⟩

/-- How far a broadcast is: asked for, with the account it read, past the test that some peer is
connected, past the test for a channel. -/
inductive Broadcast where
  | asked
  | read (version : ℕ)
  | connected (version : ℕ)
  | checked (version : ℕ)

/-- The broadcast carries the account of a version, or will read the account. -/
def Broadcast.Carries (current : ℕ) : Broadcast → Prop
  | .asked => True
  | .read version | .connected version | .checked version => version = current

/-- How far the stream is: nothing done, map computed, map sent, channel created. -/
inductive Stage where
  | start
  | computed (version : ℕ)
  | sent
  | forwarding
  deriving DecidableEq

/-- The account, the broadcasts under way, the stream and the peer behind it. -/
structure World where
  /-- The number of changes of the account. -/
  version : ℕ := 0
  broadcasts : List Broadcast := []
  stage : Stage := .start
  channel : Option (List UpdateMessage) := none
  debouncer : UpdateDebouncer := {}
  delivered : List UpdateMessage := []

/-- The steps of all parties. -/
inductive Action where
  /-- The account changes and asks for a broadcast. -/
  | change
  /-- A broadcast goes on; `others` says whether another peer is connected. -/
  | broadcast (i : ℕ) (others : Bool)
  /-- A token or an expiration is sent to the peer. -/
  | control
  /-- `Sync` goes on. -/
  | sync
  | receive
  | timer

/-- The slots of a channel. -/
def channelBufferSize : ℕ := 100

namespace World

variable (w : World)

/-- `SendUpdate`: without a channel, or with a full one, the update is dropped. -/
def sendUpdate (update : UpdateMessage) : World :=
  match w.channel with
  | none => w
  | some queue =>
    if queue.length < channelBufferSize then
      { w with channel := some (queue ++ [update]) }
    else w

/-- The broadcast at an index ends. -/
def without (i : ℕ) : World := { w with broadcasts := w.broadcasts.eraseIdx i }

/-- The next step of the broadcast at an index. -/
def goOn (i : ℕ) (others : Bool) : Broadcast → World
  | .asked => { w with broadcasts := w.broadcasts.set i (.read w.version) }
  | .read version =>
    if w.channel.isSome || others then
      { w with broadcasts := w.broadcasts.set i (.connected version) }
    else w.without i
  | .connected version =>
    if w.channel.isSome then { w with broadcasts := w.broadcasts.set i (.checked version) }
    else w.without i
  | .checked version =>
    (w.without i).sendUpdate ⟨.networkMap, version⟩

/-- `handleUpdates` takes an update from the channel. -/
def receive : World :=
  match w.channel with
  | some (update :: queue) =>
    let processed := w.debouncer.processUpdate update
    { w with
      channel := some queue
      debouncer := processed.2
      delivered := if processed.1 then w.delivered ++ [update] else w.delivered }
  | _ => w

/-- One step of one party. -/
def step : Action → World
  | .change => { w with version := w.version + 1, broadcasts := w.broadcasts ++ [.asked] }
  | .broadcast i others =>
    match w.broadcasts[i]? with
    | none => w
    | some b => w.goOn i others b
  | .control => w.sendUpdate ⟨.controlConfig, 0⟩
  | .sync =>
    match w.stage with
    | .start => { w with stage := .computed w.version }
    | .computed version =>
      { w with stage := .sent, delivered := w.delivered ++ [⟨.networkMap, version⟩] }
    | .sent => { w with stage := .forwarding, channel := some [] }
    | .forwarding => w
  | .receive => w.receive
  | .timer =>
    let pending := w.debouncer.getPendingUpdates
    { w with debouncer := pending.2, delivered := w.delivered ++ pending.1 }

/-- The world after some steps. -/
def run (as : List Action) : World := as.foldl step {}

/-- The account state of the last network map. -/
def lastMap (updates : List UpdateMessage) : Option ℕ :=
  ((updates.filter fun u => u.messageType = .networkMap).map UpdateMessage.version).getLast?

/-- All broadcasts have finished and everything is forwarded. -/
def Quiet : Prop :=
  w.broadcasts = [] ∧ w.stage = .forwarding ∧ w.channel = some [] ∧
    w.debouncer.pendingUpdates = []

/-- The peer has a map of the current account. -/
def Fresh : Prop := lastMap w.delivered = some w.version

/-- What the peer will have got once everything is forwarded. -/
def underway : List UpdateMessage :=
  w.delivered ++ w.debouncer.pendingUpdates ++ w.channel.getD []

/-- The account state of the map that the peer will have then. -/
def newest : Option ℕ := lastMap w.underway

/-- A map of the current account is still to be put on its way, by a broadcast or by `Sync`. -/
def Coming : Prop :=
  (∃ b ∈ w.broadcasts, b.Carries w.version) ∨ w.stage = .start ∨ w.stage = .computed w.version

/-- A map of the current account is on its way, or still to be put there. -/
def OnItsWay : Prop := w.Coming ∨ w.newest = some w.version

/-- The step loses the last map of the current account, which no other broadcast carries: its
broadcast finds no peer connected, or no channel, or a full one; or the broadcast of an older
account puts its map into the channel. -/
def Loses : Action → Prop
  | .broadcast i others =>
    ¬ (w.without i).Coming ∧
      match w.broadcasts[i]? with
      | some (.read version) => version = w.version ∧ w.newest ≠ some w.version ∧
          w.channel = none ∧ others = false
      | some (.connected version) => version = w.version ∧ w.newest ≠ some w.version ∧
          w.channel = none
      | some (.checked version) =>
        if ∃ queue ∈ w.channel, queue.length < channelBufferSize then version ≠ w.version
        else version = w.version ∧ w.newest ≠ some w.version
      | _ => False
  | _ => False

/-- Updates are held back only while the timer runs, and only with a channel; the first map is the
first update. -/
structure Forwarding : Prop where
  idle : w.debouncer.timer = false → w.debouncer.pendingUpdates = []
  early : w.channel = none → w.debouncer.pendingUpdates = []
  stage : w.channel = none ↔ w.stage ≠ .forwarding
  first : w.stage ≠ .sent → w.stage ≠ .forwarding → w.delivered = []

/-- The last map is in the second part, if that has one. -/
theorem lastMap_append (xs ys : List UpdateMessage) :
    lastMap (xs ++ ys) = (lastMap ys).or (lastMap xs) := by
  simp [lastMap, getLast?_append]

/-- The last map of one message. -/
theorem lastMap_singleton (u : UpdateMessage) :
    lastMap [u] = if u.messageType = .networkMap then some u.version else none := by
  unfold lastMap
  split <;> simp_all

variable {w}

/-- Sending keeps `Forwarding`. -/
theorem Forwarding.sendUpdate (h : w.Forwarding) (update : UpdateMessage) :
    (w.sendUpdate update).Forwarding := by
  unfold World.sendUpdate
  split
  · exact h
  next queue hqueue =>
    split
    · exact ⟨h.idle, nofun, by simpa [hqueue] using h.stage, h.first⟩
    · exact h

/-- A map that is put into the channel is the newest one; other updates change nothing. -/
theorem newest_sendUpdate (update : UpdateMessage) :
    (w.sendUpdate update).newest =
      if update.messageType = .networkMap ∧ ∃ queue ∈ w.channel, queue.length < channelBufferSize
      then some update.version else w.newest := by
  unfold World.sendUpdate newest underway
  cases hchannel : w.channel with
  | none => simp [hchannel]
  | some queue =>
    by_cases hroom : queue.length < channelBufferSize
    · by_cases hmap : update.messageType = .networkMap
      · simp [hroom, hmap, lastMap_append, lastMap_singleton]
      · simp [hroom, hmap, lastMap_append, lastMap_singleton]
    · simp [hroom, hchannel]

/-- What the debouncer holds back, or lets pass, keeps the last map. -/
theorem lastMap_processUpdate {d : UpdateDebouncer} (h : d.timer = false → d.pendingUpdates = [])
    (sent : List UpdateMessage) (update : UpdateMessage) :
    lastMap ((if (d.processUpdate update).1 then sent ++ [update] else sent) ++
      (d.processUpdate update).2.pendingUpdates) =
    lastMap (sent ++ d.pendingUpdates ++ [update]) := by
  obtain ⟨htimer, he⟩ | ⟨_, he, rfl | ⟨ps, last, hps, rfl, hm, -⟩⟩ := d.processUpdate_cases update
  · simp [he, h htimer]
  · simp [he]
  · -- only a map takes the place of another update
    have hmap : ∀ xs, lastMap (xs ++ [update]) = some update.version := by
      intro xs
      rw [lastMap_append, lastMap_singleton, if_pos hm]
      rfl
    rw [he, hmap]
    exact (append_assoc sent ps [update] ▸ hmap (sent ++ ps))

/-- The timer runs after every update. -/
theorem processUpdate_timer (d : UpdateDebouncer) (update : UpdateMessage) :
    (d.processUpdate update).2.timer := by
  obtain ⟨-, he⟩ | ⟨_, he, -⟩ := d.processUpdate_cases update <;> rw [he]

/-- Receiving keeps `Forwarding` and the newest map. -/
theorem Forwarding.receive (h : w.Forwarding) :
    w.receive.Forwarding ∧ w.receive.newest = w.newest := by
  unfold World.receive
  split
  next update queue hchannel =>
    have hstage : w.stage = .forwarding := by
      by_contra hne
      rw [h.stage.mpr hne] at hchannel
      cases hchannel
    refine ⟨⟨fun htimer => ?_, nofun, by simpa [hchannel] using h.stage,
      fun _ hne => absurd hstage hne⟩, ?_⟩
    · simp [processUpdate_timer] at htimer
    · simp only [newest, underway, hchannel, Option.getD_some]
      rw [lastMap_append, lastMap_processUpdate h.idle, append_cons _ update queue,
        lastMap_append _ queue]
  · exact ⟨h, rfl⟩

/-- Every action keeps `Forwarding`. -/
theorem Forwarding.step (h : w.Forwarding) (a : Action) : (w.step a).Forwarding := by
  cases a with
  | change => exact ⟨h.idle, h.early, h.stage, h.first⟩
  | control => exact h.sendUpdate _
  | receive => exact h.receive.1
  | broadcast i others =>
    have hother : ∀ broadcasts, ({ w with broadcasts := broadcasts } : World).Forwarding :=
      fun _ => ⟨h.idle, h.early, h.stage, h.first⟩
    simp only [World.step]
    split
    · exact h
    next b _ =>
      cases b with
      | asked => exact hother _
      | read version | connected version =>
        simp only [goOn]
        split <;> exact hother _
      | checked version => exact (hother _).sendUpdate _
  | sync =>
    simp only [World.step]
    split
    next hstage =>
      exact ⟨h.idle, h.early, h.stage.trans (by simp [hstage]),
        fun _ _ => h.first (by simp [hstage]) (by simp [hstage])⟩
    next version hstage =>
      have hnone := h.stage.mpr (by simp [hstage])
      exact ⟨h.idle, h.early, by simpa using hnone, nofun⟩
    next hstage =>
      exact ⟨h.idle, nofun, by simp, nofun⟩
    · exact h
  | timer =>
    refine ⟨fun _ => rfl, fun _ => rfl, h.stage, fun hsent hforwarding => ?_⟩
    have hnone := h.stage.mpr hforwarding
    simp [World.step, UpdateDebouncer.getPendingUpdates, h.early hnone, h.first hsent hforwarding]

/-- `Forwarding` holds along every run. -/
theorem forwarding_run (as : List Action) : (run as).Forwarding :=
  foldlRecOn as _ ⟨fun _ => rfl, fun _ => rfl, by simp, fun _ _ => rfl⟩ fun _ h a _ => h.step a

/-! ### What one step does to the newest map -/

/-- After a send the version is on its way if it is coming or was sent. -/
theorem onItsWay_sendUpdate (update : UpdateMessage) : (w.sendUpdate update).OnItsWay ↔
    w.Coming ∨ (w.sendUpdate update).newest = some w.version := by
  unfold OnItsWay Coming World.sendUpdate
  cases w.channel with
  | none => exact .rfl
  | some queue =>
    dsimp only
    split
    · exact .rfl
    · exact .rfl

/-- The order of the broadcasts does not matter. -/
theorem coming_of_perm {b : Broadcast} {bs : List Broadcast} (h : w.broadcasts ~ b :: bs) :
    w.Coming ↔ b.Carries w.version ∨ ({ w with broadcasts := bs } : World).Coming := by
  unfold Coming
  simp only [h.mem_iff, mem_cons, exists_eq_or_imp, or_assoc]

/-- A broadcast counts if it carries the current account. -/
theorem coming_iff_without {i : ℕ} {b : Broadcast} (hb : w.broadcasts[i]? = some b) :
    w.Coming ↔ b.Carries w.version ∨ (w.without i).Coming := by
  obtain ⟨hi, rfl⟩ := List.getElem?_eq_some_iff.mp hb
  exact coming_of_perm (getElem_cons_eraseIdx_perm hi).symm

/-- A broadcast moves on. -/
theorem coming_set {i : ℕ} {b : Broadcast} (hb : w.broadcasts[i]? = some b) (b' : Broadcast) :
    ({ w with broadcasts := w.broadcasts.set i b' } : World).Coming ↔
      b'.Carries w.version ∨ (w.without i).Coming := by
  obtain ⟨hi, -⟩ := List.getElem?_eq_some_iff.mp hb
  exact coming_of_perm (set_perm_cons_eraseIdx hi b')

/-- After the next step of a broadcast the newest map is on its way exactly if it was before and the
step does not lose it. -/
theorem onItsWay_broadcast (i : ℕ) (others : Bool) :
    (w.step (.broadcast i others)).OnItsWay ↔ w.OnItsWay ∧ ¬ w.Loses (.broadcast i others) := by
  have hnewest : ∀ broadcasts, ({ w with broadcasts } : World).newest = w.newest := fun _ => rfl
  simp only [World.step, Loses]
  cases hb : w.broadcasts[i]? with
  | none => simp
  | some b =>
    have hcoming := coming_iff_without hb
    have hset := coming_set hb
    -- the broadcast ends without a map
    have hdropped : (w.without i).OnItsWay ↔
        (w.without i).Coming ∨ w.newest = some w.version := .rfl
    cases b with
    | asked =>
      simp only [goOn, OnItsWay, hset, hnewest, Broadcast.Carries, hcoming]
      grind
    | read version =>
      simp only [goOn]
      by_cases hgo : (w.channel.isSome || others) = true
      · rw [if_pos hgo]
        simp only [OnItsWay, hset, hnewest, Broadcast.Carries, hcoming]
        cases hchannel : w.channel <;> grind
      · rw [if_neg hgo, hdropped]
        simp only [OnItsWay, Broadcast.Carries, hcoming]
        cases hchannel : w.channel <;> grind
    | connected version =>
      simp only [goOn]
      by_cases hgo : w.channel.isSome = true
      · rw [if_pos hgo]
        simp only [OnItsWay, hset, hnewest, Broadcast.Carries, hcoming]
        cases hchannel : w.channel <;> grind
      · rw [if_neg hgo, hdropped]
        simp only [OnItsWay, Broadcast.Carries, hcoming]
        cases hchannel : w.channel <;> grind
    | checked version =>
      have hsent := newest_sendUpdate (w := w.without i) ⟨.networkMap, version⟩
      simp only [true_and] at hsent
      simp only [goOn]
      rw [onItsWay_sendUpdate, hsent]
      simp only [OnItsWay, Broadcast.Carries, hcoming]
      change (_ ∨ (if ∃ queue ∈ w.channel, _ then _ else w.newest) = some w.version) ↔ _
      split
      · grind
      · grind

/-- No other step but a change brings the newest map on its way, or takes it off. -/
theorem Forwarding.onItsWay_step (h : w.Forwarding) {a : Action} (ha : a ≠ .change) :
    (w.step a).OnItsWay ↔ w.OnItsWay ∧ ¬ w.Loses a := by
  cases a with
  | change => exact absurd rfl ha
  | broadcast i others => exact onItsWay_broadcast i others
  | control =>
    simp only [World.step, onItsWay_sendUpdate, newest_sendUpdate]
    simp [OnItsWay, Loses]
  | receive =>
    have hcoming : w.receive.Coming ↔ w.Coming := by
      unfold Coming World.receive
      split <;> rfl
    have hversion : w.receive.version = w.version := by
      unfold World.receive
      split <;> rfl
    simp [World.step, OnItsWay, Loses, hcoming, hversion, h.receive.2]
  | timer =>
    have hnewest : (w.step .timer).newest = w.newest := by
      simp [World.step, newest, underway, UpdateDebouncer.getPendingUpdates]
    have hcoming : (w.step .timer).Coming ↔ w.Coming := .rfl
    have hversion : (w.step .timer).version = w.version := rfl
    simp [OnItsWay, Loses, hcoming, hversion, hnewest]
  | sync =>
    have hnewest : w.stage ≠ .sent → w.stage ≠ .forwarding → w.newest = none := by
      intro hsent hforwarding
      have hnone := h.stage.mpr hforwarding
      simp [newest, underway, h.first hsent hforwarding, h.early hnone, hnone, lastMap]
    simp only [Loses, not_false_iff, and_true]
    cases hstage : w.stage with
    | start => simp [World.step, hstage, OnItsWay, Coming]
    | computed version =>
      -- the first map is put on its way with the account it was computed from
      have hnone := h.stage.mpr (by simp [hstage])
      have hsent : (w.step .sync).newest = some version := by
        simp [World.step, hstage, newest, underway, hnone, h.early hnone, lastMap_append,
          lastMap_singleton]
      have hbefore := hnewest (by simp [hstage]) (by simp [hstage])
      unfold OnItsWay
      rw [hsent, hbefore]
      simp [World.step, hstage, Coming]
    | sent =>
      have hnone := h.stage.mpr (by simp [hstage])
      have hsame : (w.step .sync).newest = w.newest := by
        simp [World.step, hstage, newest, underway, hnone]
      unfold OnItsWay
      rw [hsame]
      simp [World.step, hstage, Coming]
    | forwarding => simp [World.step, hstage]

/-- The last action of a run. -/
theorem run_concat (as : List Action) (a : Action) : run (as ++ [a]) = (run as).step a :=
  foldl_concat ..

/-- The last action of a run that goes on after `b`. -/
theorem concat_split {as mid post : List Action} {a b c : Action}
    (h : as ++ [a] = mid ++ b :: (post ++ [c])) : as = mid ++ b :: post ∧ a = c := by
  rw [← cons_append, ← append_assoc] at h
  simpa using append_inj' h rfl

/-- The newest map is on its way unless a step since the last change lost it. -/
theorem onItsWay_run_iff (as : List Action) :
    (run as).OnItsWay ↔
      ∀ mid a post, as = mid ++ a :: post → .change ∉ post → ¬ (run mid).Loses a := by
  induction as using reverseRecOn with
  | nil => exact iff_of_true (.inl (.inr (.inl rfl))) (by simp)
  | append_singleton as a ih =>
    rw [run_concat]
    by_cases ha : a = .change
    · subst ha
      have hasked : ((run as).step .change).OnItsWay :=
        .inl (.inl ⟨.asked, mem_append_right _ (mem_singleton_self _), trivial⟩)
      refine iff_of_true hasked fun mid a post heq hpost => ?_
      rcases eq_nil_or_concat' post with rfl | ⟨post, b, rfl⟩
      · obtain ⟨-, rfl⟩ := concat_inj.mp (by simpa using heq : as.concat .change = mid.concat a)
        exact id
      · obtain ⟨-, rfl⟩ := concat_split heq
        exact absurd (mem_append_right _ (mem_singleton_self _)) hpost
    · rw [(forwarding_run as).onItsWay_step ha, ih]
      constructor
      · rintro ⟨hbefore, hlast⟩ mid b post heq hpost
        rcases eq_nil_or_concat' post with rfl | ⟨post, c, rfl⟩
        · obtain ⟨rfl, rfl⟩ : as = mid ∧ a = b := by simpa using heq
          exact hlast
        · obtain ⟨rfl, rfl⟩ := concat_split heq
          exact hbefore mid b post rfl fun h => hpost (mem_append_left _ h)
      · intro h
        refine ⟨fun mid b post heq hpost => ?_, h as a [] rfl not_mem_nil⟩
        refine h mid b (post ++ [a]) (by simp [heq]) fun hmem => ?_
        rcases mem_append.mp hmem with hmem | hmem
        · exact hpost hmem
        · exact ha (mem_singleton.mp hmem).symm

/-- At rest, a version on its way has arrived. -/
theorem Quiet.fresh_iff_onItsWay (h : w.Quiet) : w.Fresh ↔ w.OnItsWay := by
  obtain ⟨hbroadcasts, hstage, hchannel, hpending⟩ := h
  simp [Fresh, OnItsWay, Coming, newest, underway, hbroadcasts, hstage, hchannel, hpending]

end World

open World

/-- **A quiet peer is up to date** if and only if no step since the last change of the account lost
the newest map. -/
theorem fresh_iff (as : List Action) :
    (∀ pre, pre <+: as → (run pre).Quiet → (run pre).Fresh) ↔
      ∀ mid a post, mid ++ a :: post <+: as → .change ∉ post →
        (run (mid ++ a :: post)).Quiet → ¬ (run mid).Loses a := by
  constructor
  · intro h mid a post hpre hpost hquiet
    have honItsWay := hquiet.fresh_iff_onItsWay.mp (h _ hpre hquiet)
    exact (onItsWay_run_iff _).mp honItsWay mid a post rfl hpost
  · intro h pre hpre hquiet
    refine hquiet.fresh_iff_onItsWay.mpr ((onItsWay_run_iff pre).mpr ?_)
    rintro mid a post rfl hpost
    exact h mid a post hpre hpost hquiet

/-- A change is broadcast after the stream has computed its map and before it has a channel. -/
theorem change_lost :
    (run [.sync, .change, .broadcast 0 true, .broadcast 0 true, .broadcast 0 true, .sync,
      .sync]).Quiet ∧
    ¬ (run [.sync, .change, .broadcast 0 true, .broadcast 0 true, .broadcast 0 true, .sync,
      .sync]).Fresh := by
  refine ⟨⟨rfl, rfl, rfl, rfl⟩, ?_⟩
  unfold Fresh
  decide

/-! ## What one stream sends -/

/-- What wakes the loop of `handleUpdates`. -/
inductive Wake where
  | update (m : UpdateMessage)
  | timer

/-- One turn of the loop, with what was sent so far; a timer that is not armed does not fire. -/
def handleUpdate (s : UpdateDebouncer × List UpdateMessage) :
    Wake → UpdateDebouncer × List UpdateMessage
  | .update m =>
    let processed := s.1.processUpdate m
    (processed.2, if processed.1 then s.2 ++ [m] else s.2)
  | .timer =>
    if s.1.timer then
      let pending := s.1.getPendingUpdates
      (pending.2, s.2 ++ pending.1)
    else s

/-- What the loop sends, wake by wake. -/
def handleUpdates (wakes : List Wake) : UpdateDebouncer × List UpdateMessage :=
  wakes.foldl handleUpdate ({}, [])

/-- The messages that the loop is woken with. -/
def received (wakes : List Wake) : List UpdateMessage :=
  wakes.filterMap fun
    | .update m => some m
    | .timer => none

/-- The second list has the messages of the first in order.  A message is left out only if it is a
network map and the next message is one too, which is in the second list or again left out. -/
inductive Coalesced : List UpdateMessage → List UpdateMessage → Prop
  | nil : Coalesced [] []
  | keep (m : UpdateMessage) {ms out : List UpdateMessage} :
    Coalesced ms out → Coalesced (m :: ms) (m :: out)
  | leaveOut {m next kept : UpdateMessage} {ms out : List UpdateMessage} :
    m.messageType = .networkMap → next.messageType = .networkMap →
    Coalesced (next :: ms) (kept :: out) → Coalesced (m :: next :: ms) (kept :: out)

namespace Coalesced

variable {ms out : List UpdateMessage}

/-- A message is passed on. -/
theorem concat (h : Coalesced ms out) (m : UpdateMessage) :
    Coalesced (ms ++ [m]) (out ++ [m]) := by
  induction h with
  | nil => exact .keep m .nil
  | keep m' _ ih => exact .keep m' ih
  | leaveOut hm hnext _ ih => exact .leaveOut hm hnext ih

/-- A map takes the place of the map that came last. -/
theorem replace {last m : UpdateMessage} (h : Coalesced ms (out ++ [last]))
    (hlast : last.messageType = .networkMap) (hm : m.messageType = .networkMap) :
    Coalesced (ms ++ [m]) (out ++ [m]) := by
  generalize hout : out ++ [last] = out' at h
  induction h generalizing out with
  | nil => simp at hout
  | keep m' h ih =>
    cases out with
    | nil =>
      obtain ⟨rfl, rfl⟩ := cons.inj hout
      cases h
      exact .leaveOut hlast hm (.keep m .nil)
    | cons x out =>
      obtain ⟨rfl, htail⟩ := cons.inj hout
      exact .keep x (ih htail)
  | leaveOut hm' hnext _ ih =>
    cases out with
    | nil => exact .leaveOut hm' hnext (ih hout)
    | cons => exact .leaveOut hm' hnext (ih hout)

end Coalesced

/-- The invariant of the loop. -/
structure Lossless (ms : List UpdateMessage) (s : UpdateDebouncer × List UpdateMessage) : Prop where
  coalesced : Coalesced ms (s.2 ++ s.1.pendingUpdates)
  idle : s.1.timer = false → s.1.pendingUpdates = []

/-- An update loses nothing but a map that it replaces. -/
theorem Lossless.update {ms : List UpdateMessage} {s : UpdateDebouncer × List UpdateMessage}
    (h : Lossless ms s) (m : UpdateMessage) :
    Lossless (ms ++ [m]) (handleUpdate s (.update m)) := by
  have happend := append_assoc s.2 _ _ ▸ h.coalesced.concat m
  rw [handleUpdate]
  obtain ⟨htimer, he⟩ | ⟨_, he, rfl | ⟨ps, last, hps, rfl, hm, hlast⟩⟩ := s.1.processUpdate_cases m
  · rw [h.idle htimer] at he happend
    exact ⟨by simpa [he] using happend, fun _ => by rw [he]⟩
  · exact ⟨by simpa [he] using happend, by simp [he]⟩
  · have hreplace := append_assoc s.2 ps [last] ▸ hps ▸ h.coalesced
    exact ⟨by simpa [he] using hreplace.replace hlast hm, by simp [he]⟩

/-- The loop loses nothing but replaced maps. -/
theorem lossless_handleUpdates (wakes : List Wake) :
    Lossless (received wakes) (handleUpdates wakes) := by
  induction wakes using reverseRecOn with
  | nil => exact ⟨.nil, fun _ => rfl⟩
  | append_singleton wakes wake ih =>
    rw [handleUpdates, foldl_concat, ← handleUpdates, received, filterMap_append, ← received]
    cases wake with
    | update m => exact ih.update m
    | timer =>
      rw [handleUpdate]
      split
      · exact ⟨by simpa [UpdateDebouncer.getPendingUpdates] using ih.coalesced, fun _ => rfl⟩
      · simpa using ih

/-- **Only superseded maps are left out**: what was sent, with what is pending, has every message
in order but maps that were followed by another; nothing is pending without a timer, and the timer
sends what is pending. -/
theorem handleUpdates_coalesces (wakes : List Wake) :
    let s := handleUpdates wakes
    Coalesced (received wakes) (s.2 ++ s.1.pendingUpdates) ∧
    (s.1.timer = false → s.1.pendingUpdates = []) ∧
    (s.1.timer = true → (handleUpdates (wakes ++ [.timer])).2 = s.2 ++ s.1.pendingUpdates) := by
  have h := lossless_handleUpdates wakes
  refine ⟨h.coalesced, h.idle, fun htimer => ?_⟩
  rw [handleUpdates, foldl_concat, ← handleUpdates, handleUpdate, if_pos htimer]
  rfl

end Sync
