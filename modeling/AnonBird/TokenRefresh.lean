/-
# Refreshing of TURN and relay credentials

Model of `token_mgr.go`.  The lifetime of the tokens and the period of the refreshers both come
from `CredentialsTTL`, but only the lifetime has a default for a value that is not positive, and a
ticker with such a period panics.
-/
import AnonBird.GoStrings

open GoStrings List Function

namespace TokenRefresh

/-- What is refreshed. -/
inductive Kind where
  | turn
  | relay
  deriving DecidableEq

/-- The settings, with durations in nanoseconds. -/
structure Config where
  /-- `CredentialsTTL` and `TimeBasedCredentials`. -/
  turnCfg : Option (ℤ × Bool)
  relayCfg : Option ℤ

/-- The `CredentialsTTL` of the kinds that `SetupRefresh` starts a refresher for. -/
def Config.refreshed (cfg : Config) : Kind → Option ℤ
  | .turn => cfg.turnCfg.bind fun c => if c.2 then some c.1 else none
  | .relay => cfg.relayCfg

/-- Twelve hours, in nanoseconds. -/
def defaultDuration : ℤ := 12 * 3600 * 1000000000

/-- The `timeToLive` of the token generators of `NewTimeBasedAuthSecretsManager`. -/
def timeToLive (credentialsTTL : ℤ) : ℤ :=
  if credentialsTTL ≤ 0 then defaultDuration else credentialsTTL

/-- The period of the ticker of `refreshTURNTokens` and `refreshRelayTokens`. -/
def period (credentialsTTL : ℤ) : ℤ := credentialsTTL.tdiv 4 * 3

/-- A goroutine that refreshes the tokens of a kind for a peer until its channel is closed. -/
structure Refresher where
  key : Kind × Bytes
  cancel : ℕ
  credentialsTTL : ℤ

/-- The cancel maps, whose channels are numbered, and the refreshers that were not cancelled. -/
structure Manager where
  channels : ℕ := 0
  cancelMap : Kind × Bytes → Option ℕ := fun _ => none
  refreshers : List Refresher := []

/-- The calls of the server. -/
inductive Call where
  | setupRefresh (peerID : Bytes)
  | cancelRefresh (peerID : Bytes)

namespace Manager

variable (cfg : Config) (m : Manager) (key : Kind × Bytes)

/-- `cancelTURN` and `cancelRelay`. -/
def cancel : Manager :=
  match m.cancelMap key with
  | none => m
  | some channel =>
    { m with
      cancelMap := update m.cancelMap key none
      refreshers := m.refreshers.filter (·.cancel ≠ channel) }

/-- The part of `SetupRefresh` for a kind. -/
def start : Manager :=
  match cfg.refreshed key.1 with
  | none => m
  | some ttl =>
    { channels := m.channels + 1
      cancelMap := update m.cancelMap key (some m.channels)
      refreshers := ⟨key, m.channels, ttl⟩ :: m.refreshers }

/-- The manager after a call. -/
def step : Call → Manager
  | .setupRefresh peerID =>
    (((m.cancel (.turn, peerID)).cancel (.relay, peerID)).start cfg (.turn, peerID)).start cfg
      (.relay, peerID)
  | .cancelRefresh peerID => (m.cancel (.turn, peerID)).cancel (.relay, peerID)

/-- The manager after calls from the start. -/
def run (calls : List Call) : Manager := calls.foldl (step cfg) {}

/-- The ticker of every refresher ticks, before the tokens expire, and there is one refresher of a
kind for a peer at most. -/
def Sound : Prop :=
  (∀ r ∈ m.refreshers, 0 < period r.credentialsTTL ∧
    period r.credentialsTTL < timeToLive r.credentialsTTL) ∧
  (m.refreshers.map Refresher.key).Nodup

/-- The refreshers are those of the cancel maps, with the settings. -/
structure Inv : Prop where
  cancel : ∀ r ∈ m.refreshers, m.cancelMap r.key = some r.cancel
  ttl : ∀ r ∈ m.refreshers, cfg.refreshed r.key.1 = some r.credentialsTTL
  nodup : (m.refreshers.map Refresher.key).Nodup

variable {cfg m key}

/-- A key is no longer there after it is cancelled. -/
theorem cancelMap_cancel (key' : Kind × Bytes) : (m.cancel key).cancelMap key' =
    if key' = key then none else m.cancelMap key' := by
  unfold cancel
  split
  · grind
  · exact update_apply ..

/-- Cancelling keeps the invariant. -/
theorem Inv.of_cancel (h : m.Inv cfg) : (m.cancel key).Inv cfg := by
  obtain ⟨hcancel, httl, hnodup⟩ := h
  unfold Manager.cancel
  split
  · exact ⟨hcancel, httl, hnodup⟩
  · refine ⟨?_, ?_, hnodup.sublist (filter_sublist.map _)⟩ <;> grind [update_apply]

/-- Starting keeps the invariant. -/
theorem Inv.start (h : m.Inv cfg) (hkey : m.cancelMap key = none) : (m.start cfg key).Inv cfg := by
  obtain ⟨hcancel, httl, hnodup⟩ := h
  unfold Manager.start
  split
  · exact ⟨hcancel, httl, hnodup⟩
  · constructor <;> grind [update_apply]

/-- Other keys stay. -/
theorem cancelMap_start {key' : Kind × Bytes} (h : key' ≠ key) :
    (m.start cfg key).cancelMap key' = m.cancelMap key' := by
  unfold start
  split
  · rfl
  · exact update_of_ne h ..

/-- The refresher that is started. -/
theorem mem_start {ttl : ℤ} (h : cfg.refreshed key.1 = some ttl) :
    ⟨key, m.channels, ttl⟩ ∈ (m.start cfg key).refreshers := by
  rw [start, h]
  exact mem_cons_self

/-- The other refreshers go on. -/
theorem mem_start_of_mem {r : Refresher} (h : r ∈ m.refreshers) :
    r ∈ (m.start cfg key).refreshers := by
  unfold start
  split
  · exact h
  · exact mem_cons_of_mem _ h

/-- The invariant holds along every run. -/
theorem inv_run (calls : List Call) : (run cfg calls).Inv cfg := by
  induction calls using reverseRecOn with
  | nil => exact ⟨nofun, nofun, nodup_nil⟩
  | append_singleton calls call ih =>
    rw [run, foldl_append]
    cases call with
    | setupRefresh peerID =>
      refine (ih.of_cancel.of_cancel.start ?_).start ?_ <;>
        grind [cancelMap_start, cancelMap_cancel]
    | cancelRefresh peerID => exact ih.of_cancel.of_cancel

end Manager

/-- The ticker needs a time to live of four nanoseconds. -/
theorem period_pos_iff {ttl : ℤ} : 0 < period ttl ↔ 4 ≤ ttl := by
  unfold period
  rcases le_or_gt 0 ttl with h | h
  · rw [Int.tdiv_eq_ediv_of_nonneg h]
    omega
  · have hneg := Int.tdiv_nonneg (neg_nonneg.mpr h.le) (show (0 : ℤ) ≤ 4 by decide)
    rw [Int.neg_tdiv] at hneg
    omega

open Manager

/-- **The refreshers are sound in every sequence of calls exactly if the settings of the kinds that
are refreshed are four nanoseconds at least.** -/
theorem refreshed_iff (cfg : Config) : (∀ calls, (run cfg calls).Sound) ↔
    ∀ kind ttl, cfg.refreshed kind = some ttl → 4 ≤ ttl := by
  constructor
  · intro h kind ttl httl
    obtain ⟨r, hr, rfl⟩ : ∃ r ∈ (run cfg [.setupRefresh []]).refreshers,
        r.credentialsTTL = ttl := by
      cases kind with
      | relay => exact ⟨_, mem_start httl, rfl⟩
      | turn => exact ⟨_, mem_start_of_mem (mem_start httl), rfl⟩
    exact period_pos_iff.mp ((h _).1 r hr).1
  · intro h calls
    have hinv : (run cfg calls).Inv cfg := inv_run calls
    refine ⟨fun r hr => ?_, hinv.nodup⟩
    have hle := h _ _ (hinv.ttl r hr)
    refine ⟨period_pos_iff.mpr hle, ?_⟩
    unfold period timeToLive
    rw [if_neg (by omega), Int.tdiv_eq_ediv_of_nonneg (by omega)]
    omega

/-- Without a TTL in the settings the tokens live for twelve hours, and the refresher panics. -/
theorem unset_ttl_panics : (run ⟨none, some 0⟩ [.setupRefresh (ascii "p")]).refreshers.map
    (fun r => (timeToLive r.credentialsTTL, period r.credentialsTTL)) = [(defaultDuration, 0)] := by
  decide

end TokenRefresh
