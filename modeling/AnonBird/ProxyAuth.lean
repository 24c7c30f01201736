/-
# Authentication of proxied requests

Model of `Protect` (`proxy/internal/auth/middleware.go`) and of the target lookup after it
(`proxy/internal/proxy/servicemapping.go`), in any interleaving with mapping updates.  An update
writes the domain of a host first and its mapping next.  A request reads the two tables in the same
order, and a host without a domain passes: it may have a mapping by the time of the second read.
An update opens a window for a request either way: a creation between the two reads, and a removal
around the first (`OpensWindow`).
-/
import AnonBird.ReverseProxy
import AnonBird.Transition

open GoStrings

namespace ReverseProxy

/-- A request, with its host without the port. -/
structure Request where
  host : Bytes
  path : Bytes

/-- The outcomes of the checks of `Protect`, for a request and the configuration of its domain. -/
structure Checks where
  checkIPRestrictions : Bool
  isPrivate : Bool
  noSchemes : Bool
  handleOAuthCallbackError : Bool
  forwardWithSessionCookie : Bool
  /-- Whether a header scheme handled the request, and then forwarded it. -/
  forwardWithHeaderAuth : Option Bool
  forwardWithTunnelPeer : Bool

/-- Whether `Protect` calls the next handler. -/
def Checks.protect (c : Checks) : Bool :=
  c.checkIPRestrictions &&
    if c.isPrivate then c.forwardWithTunnelPeer
    else c.noSchemes || !c.handleOAuthCallbackError &&
      (c.forwardWithSessionCookie || c.forwardWithHeaderAuth.getD c.forwardWithTunnelPeer)

/-- The request meets the restrictions of the domain, and is authenticated as the domain asks for:
by the tunnel if it is private, else by a session cookie, a header or the tunnel if there are
schemes. -/
structure Checks.Admits (c : Checks) : Prop where
  restrictions : c.checkIPRestrictions = true
  authenticated : if c.isPrivate then c.forwardWithTunnelPeer = true
    else c.noSchemes = true ∨ c.forwardWithSessionCookie = true ∨
      c.forwardWithHeaderAuth = some true ∨ c.forwardWithTunnelPeer = true

theorem Checks.admits_of_protect {c : Checks} (h : c.protect = true) : c.Admits := by
  unfold protect at h
  rw [Bool.and_eq_true] at h
  refine ⟨h.1, ?_⟩
  have hauth := h.2
  split at hauth
  next hprivate => rwa [if_pos hprivate]
  next hpublic =>
    rw [if_neg hpublic]
    cases hheader : c.forwardWithHeaderAuth with
    | none => grind
    | some forwarded => grind

/-- An update of the mappings, or a step of a request. -/
inductive Event (α : Type) where
  | update (u : Update α)
  /-- The update in progress accesses its next table. -/
  | write
  | protect (i : ℕ)
  | findTarget (i : ℕ)

/-- The two tables with the update in progress, and the requests. -/
structure System (α : Type) where
  server : Server α := {}
  /-- The hosts that the update in progress has still to write. -/
  pending : List (Bytes × Option (ProxyMapping α)) := []
  /-- The domain of the first of these hosts is written, and its mapping is not. -/
  half : Bool := false
  domains : Bytes → Option (ProxyMapping α) := fun _ => none
  mappings : Bytes → Option (ProxyMapping α) := fun _ => none
  /-- The requests after `Protect`, with the configuration they found. -/
  passed : ℕ → Option (Option (ProxyMapping α)) := fun _ => none
  /-- The forwarded requests with their targets and the configuration they had found. -/
  forwarded : List (ℕ × Bytes × Option (ProxyMapping α)) := []

open Function

namespace System

-- the requests, the outcomes of their checks, and the targets that `url.Parse` takes
variable {α : Type} (req : ℕ → Request) (checks : ProxyMapping α → ℕ → Checks)
  (parses : Bytes → Bool) (s : System α)

/-- `findTargetForRequest`: the target of the longest path that fits. -/
def findTarget (i : ℕ) : Option Bytes := do
  let m ← s.mappings (req i).host
  let paths := GoMap.build Prod.fst Prod.snd (m.path.filter (parses ·.2))
  let longest ← (paths.filter (·.1.isPrefixOf (req i).path)).argmax (·.1.length)
  return longest.2

/-- One access to a table. -/
def step : Event α → System α
  | .update u =>
    if s.pending = [] then
      { s with
        server := s.server.step u
        half := false
        pending := (s.server.writes u).filterMap fun w =>
          match w.1 with
          | .host host => some (host, w.2)
          | _ => none }
    else s
  | .write =>
    match s.pending with
    | [] => s
    | (host, v) :: rest =>
      if s.half then
        { s with mappings := update s.mappings host v, pending := rest, half := false }
      else { s with domains := update s.domains host v, half := true }
  | .protect i =>
    { s with passed := update s.passed i <|
        match s.domains (req i).host with
        | none => some none
        | some m => if (checks m i).protect then some (some m) else none }
  | .findTarget i =>
    { s with
      passed := update s.passed i none
      forwarded :=
        match s.passed i, s.findTarget req parses i with
        | some config, some target => (i, target, config) :: s.forwarded
        | _, _ => s.forwarded }

/-- The system after some events. -/
def run (es : List (Event α)) : System α := es.foldl (step req checks parses) {}

/-- Every forwarded request found the configuration of its host, which admits it. -/
def Sound : Prop := ∀ f ∈ s.forwarded, ∃ m, f.2.2 = some m ∧ (checks m f.1).Admits

/-- The mapping has a target for the path of the request. -/
def Serves (m : ProxyMapping α) (i : ℕ) : Prop :=
  ∃ p ∈ m.path, parses p.2 = true ∧ p.1 <+: (req i).path

/-- The event makes a request without a configuration meet a mapping of its host: a mapping is
written between the two lookups of the request, or the first lookup comes when the domain of the
host is removed and the mapping is not. -/
def OpensWindow (e : Event α) (i : ℕ) : Prop :=
  match e with
  | .write => s.passed i = some none ∧ s.half = true ∧
      ∃ m rest, s.pending = ((req i).host, some m) :: rest ∧ Serves req parses m i
  | .protect j => j = i ∧ s.domains (req i).host = none ∧
      ∃ m, s.mappings (req i).host = some m ∧ Serves req parses m i
  | _ => False

/-- No request that is about to look its target up without a configuration has one, and what passed
with a configuration was admitted. -/
structure Shut : Prop where
  sound : s.Sound checks
  unconfigured : ∀ i, s.passed i = some none → ∀ m, s.mappings (req i).host = some m →
    ¬ Serves req parses m i
  configured : ∀ i m, s.passed i = some (some m) → (checks m i).Admits

variable {req checks parses s}

theorem findTarget_isSome_iff {i : ℕ} : (∃ target, s.findTarget req parses i = some target) ↔
    ∃ m, s.mappings (req i).host = some m ∧ Serves req parses m i := by
  unfold findTarget Serves
  cases s.mappings (req i).host with
  | none => simp
  | some m =>
    simp only [Option.bind_eq_bind, Option.bind_some, Option.some.injEq, exists_eq_left']
    -- a path with a target is a key of the map that the mapping was turned into
    have hpath : (∃ p ∈ m.path, parses p.2 = true ∧ p.1 <+: (req i).path) ↔
        ∃ p ∈ GoMap.build Prod.fst Prod.snd (m.path.filter (parses ·.2)),
          p.1.isPrefixOf (req i).path = true := by
      constructor
      · rintro ⟨p, hp, hparses, hprefix⟩
        have hmem : p ∈ m.path.filter (parses ·.2) := List.mem_filter.mpr ⟨hp, hparses⟩
        obtain ⟨v, hv⟩ := GoMap.exists_get_build Prod.fst Prod.snd hmem
        exact ⟨(p.1, v), GoMap.mem_of_get hv, List.isPrefixOf_iff_prefix.mpr hprefix⟩
      · rintro ⟨p, hp, hprefix⟩
        obtain ⟨v, hv⟩ := GoMap.mem_keys.mp (List.mem_map_of_mem hp)
        obtain ⟨x, hx, hkey, -⟩ := GoMap.exists_of_get_build hv
        rw [List.mem_filter] at hx
        exact ⟨x, hx.1, hx.2, hkey ▸ List.isPrefixOf_iff_prefix.mp hprefix⟩
    rw [hpath]
    constructor
    · rintro ⟨target, htarget⟩
      obtain ⟨p, hp, -⟩ := Option.bind_eq_some_iff.mp htarget
      have hmem := List.mem_filter.mp (List.argmax_mem hp)
      exact ⟨p, hmem.1, hmem.2⟩
    · rintro ⟨p, hp, hprefix⟩
      have hne : ((GoMap.build Prod.fst Prod.snd (m.path.filter (parses ·.2))).filter
          (·.1.isPrefixOf (req i).path)).argmax (·.1.length) ≠ none := by
        rw [ne_eq, List.argmax_eq_none]
        exact List.ne_nil_of_mem (List.mem_filter.mpr ⟨hp, hprefix⟩)
      obtain ⟨q, hq⟩ := Option.ne_none_iff_exists'.mp hne
      exact ⟨q.2, by rw [hq]; rfl⟩

theorem Shut.step (h : s.Shut req checks parses) {e : Event α}
    (he : ∀ i, ¬ s.OpensWindow req parses e i) :
    (s.step req checks parses e).Shut req checks parses := by
  cases e with
  | update u =>
    simp only [System.step]
    split
    · exact ⟨h.sound, h.unconfigured, h.configured⟩
    · exact h
  | write =>
    simp only [System.step]
    split
    · exact h
    next host v rest hpending =>
      split
      next hhalf =>
        refine ⟨h.sound, fun i hi m hm hserves => ?_, h.configured⟩
        dsimp only at hi hm
        by_cases hhost : (req i).host = host
        · obtain rfl : v = some m := by simpa [hhost] using hm
          exact he i ⟨hi, hhalf, m, rest, by rw [hpending, hhost], hserves⟩
        · exact h.unconfigured i hi m (by simpa [hhost] using hm) hserves
      · exact ⟨h.sound, h.unconfigured, h.configured⟩
  | protect j =>
    have hwindow := he j
    refine ⟨h.sound, fun i hi m hm hserves => ?_, fun i m hi => ?_⟩
    · by_cases hij : i = j
      · subst hij
        refine hwindow ⟨rfl, ?_, m, hm, hserves⟩
        simp only [System.step, update_self] at hi
        grind
      · exact h.unconfigured i (by simpa [System.step, hij] using hi) m hm hserves
    · by_cases hij : i = j
      · subst hij
        simp only [System.step, update_self] at hi
        refine Checks.admits_of_protect ?_
        grind
      · exact h.configured i m (by simpa [System.step, hij] using hi)
  | findTarget j =>
    have htarget := @findTarget_isSome_iff _ req parses s j
    refine ⟨?_, fun i hi => ?_, fun i m hi => ?_⟩
    · unfold Sound System.step
      dsimp only
      split
      next config target hpassed hfound =>
        rw [List.forall_mem_cons]
        refine ⟨?_, h.sound⟩
        cases config with
        | none =>
          obtain ⟨m, hm, hserves⟩ := htarget.mp ⟨target, hfound⟩
          exact absurd hserves (h.unconfigured j hpassed m hm)
        | some m => exact ⟨m, rfl, h.configured j m hpassed⟩
      · exact h.sound
    · by_cases hij : i = j
      · simp [System.step, hij] at hi
      · exact h.unconfigured i (by simpa [System.step, hij] using hi)
    · by_cases hij : i = j
      · simp [System.step, hij] at hi
      · exact h.configured i m (by simpa [System.step, hij] using hi)

/-- A request whose window has just been opened is forwarded without a configuration. -/
theorem not_sound_of_opensWindow {e : Event α} {i : ℕ} (h : s.OpensWindow req parses e i) :
    ¬ ((s.step req checks parses e).step req checks parses (.findTarget i)).Sound checks := by
  have hopen : (s.step req checks parses e).passed i = some none ∧
      ∃ m, (s.step req checks parses e).mappings (req i).host = some m ∧
        Serves req parses m i := by
    cases e with
    | update u => exact h.elim
    | findTarget j => exact h.elim
    | write =>
      obtain ⟨hpassed, hhalf, m, rest, hpending, hserves⟩ := h
      simp only [System.step, hpending, hhalf, if_true, update_self]
      exact ⟨hpassed, m, rfl, hserves⟩
    | protect j =>
      obtain ⟨rfl, hdomain, m, hm, hserves⟩ := h
      simp only [System.step, hdomain, update_self]
      exact ⟨trivial, m, hm, hserves⟩
  obtain ⟨target, htarget⟩ := findTarget_isSome_iff.mpr hopen.2
  intro hsound
  have hforwarded : (i, target, none) ∈
      ((s.step req checks parses e).step req checks parses (.findTarget i)).forwarded := by
    rw [System.step, hopen.1, htarget]
    exact List.mem_cons_self ..
  obtain ⟨m, hm, -⟩ := hsound _ hforwarded
  cases hm

theorem run_concat (es : List (Event α)) (e : Event α) :
    run req checks parses (es ++ [e]) = (run req checks parses es).step req checks parses e :=
  List.foldl_concat ..

end System

open ReverseProxy.System

/-- **Only what was let through is forwarded** along every sequence of events none of which opens a
window, and a request whose window an event opens is forwarded unchecked if it looks its target up
next. -/
theorem forwarded_checked {α : Type} (req : ℕ → Request) (checks : ProxyMapping α → ℕ → Checks)
    (parses : Bytes → Bool) (es : List (Event α)) :
    ((∀ pre e, pre ++ [e] <+: es → ∀ i, ¬ (run req checks parses pre).OpensWindow req parses e i) →
      ∀ pre, pre <+: es → (run req checks parses pre).Sound checks) ∧
    ∀ pre e, pre ++ [e] <+: es → ∀ i, (run req checks parses pre).OpensWindow req parses e i →
      ¬ (run req checks parses (pre ++ [e] ++ [.findTarget i])).Sound checks := by
  constructor
  · intro hshut pre hpre
    have hinv : (run req checks parses pre).Shut req checks parses := by
      induction pre using List.reverseRecOn with
      | nil => exact ⟨nofun, nofun, nofun⟩
      | append_singleton pre e ih =>
        rw [run_concat]
        exact (ih ((List.prefix_append pre [e]).trans hpre)).step (hshut pre e hpre)
    exact hinv.sound
  · intro pre e _ i hopen
    rw [run_concat, run_concat]
    exact not_sound_of_opensWindow hopen

/-- A request whose host is created between its two lookups is forwarded, though the configuration
of the host lets nothing through. -/
theorem forwarded_without_authentication : (run (fun _ => ⟨ascii "a.example.com", ascii "/"⟩)
      (fun _ _ => ⟨false, false, false, false, false, none, false⟩) (fun _ => true)
      [.protect 0, .update ⟨.created, httpMapping (ascii "s") (ascii "a.example.com"), true⟩,
        .write, .write, .findTarget 0]).forwarded = [(0, ascii "http://10.0.0.5", none)] := by
  decide

end ReverseProxy
