/-
# SSH authorization

Management flattens the sets of users that may log in as an OS user to a list of hashes and lists
of indexes into it (`buildAuthorizedUsersProto`), and the client checks logins against what it was
handed last (`Authorizer.Authorize`).  A network map without remote peers is not handed to the SSH
server, so a login that it no longer allows goes on to succeed.
-/
import AnonBird.GoMap
import AnonBird.GoStrings
import AnonBird.Transition

open GoStrings List
open GoMap hiding get set

namespace SSHAuthorization

export GoMap (get set)

/-! ## The message -/

/-- `proto.SSHAuth`.  A message cannot carry `2 ^ 32` hashes, so the indexes are natural numbers. -/
structure SSHAuth where
  authorizedUsers : List Bytes := []
  machineUsers : List (Bytes × List ℕ) := []

/-- The users that `buildAuthorizedUsersProto` has an index for, and their hashes. -/
structure Hashed where
  userIDToIndex : List (Bytes × ℕ) := []
  hashedUsers : List Bytes := []

variable (hash : Bytes → Bytes)

/-- The body of the loop over the users of an OS user. -/
def addUser (s : Hashed × List ℕ) (userID : Bytes) : Hashed × List ℕ :=
  match get s.1.userIDToIndex userID with
  | some idx => (s.1, s.2 ++ [idx])
  | none =>
    let idx := s.1.hashedUsers.length
    (⟨set s.1.userIDToIndex userID idx, s.1.hashedUsers ++ [hash userID]⟩, s.2 ++ [idx])

/-- The body of the loop over the OS users. -/
def addMachineUser (order : Bytes → RangeOrder Bytes) (s : Hashed × List (Bytes × List ℕ))
    (e : Bytes × List Bytes) : Hashed × List (Bytes × List ℕ) :=
  let r := ((order e.1).order e.2).foldl (addUser hash) (s.1, [])
  (r.1, set s.2 e.1 r.2)

/-- The hashes of the users, and for each machine user their indexes. -/
def buildAuthorizedUsersProto (ord : RangeOrder Bytes) (order : Bytes → RangeOrder Bytes)
    (authorizedUsers : List (Bytes × List Bytes)) : SSHAuth :=
  let r := (range ord authorizedUsers).foldl (addMachineUser hash order) ({}, [])
  ⟨r.1.hashedUsers, r.2⟩

/-! ## The client -/

/-- The machine user that stands for every one. -/
def wildcard : Bytes := ascii "*"

/-- Why a login is refused. -/
inductive AuthError where
  | emptyUserID
  | userNotAuthorized
  | noMachineUserMapping
  | userNotMappedToOSUser
  deriving DecidableEq, Repr

/-- How a login was granted. -/
inductive Grant where
  | viaWildcard (index : ℕ)
  | mapped (index : ℕ)
  deriving DecidableEq, Repr

/-- What the SSH server decides logins by. -/
structure Authorizer where
  authorizedUsers : List Bytes := []
  machineUsers : List (Bytes × List ℕ) := []

namespace Authorizer

variable (a : Authorizer)

/-- `Update`: OS users without indexes are left out. -/
def update (config : SSHAuth) : Authorizer where
  authorizedUsers := config.authorizedUsers
  machineUsers := mapEntries (fun _ indexes => if indexes = [] then none else some indexes)
    config.machineUsers

/-- A user may log in as a machine user, by the wildcard or by its own entry. -/
def checkMachineUserMapping (osUsername : Bytes) (userIndex : ℕ) : Except AuthError Grant :=
  if ((get a.machineUsers wildcard).getD []).contains userIndex then .ok (.viaWildcard userIndex)
  else match get a.machineUsers osUsername with
    | none => .error .noMachineUserMapping
    | some allowedIndexes =>
      if allowedIndexes.contains userIndex then .ok (.mapped userIndex)
      else .error .userNotMappedToOSUser

/-- A user may log in as a machine user. -/
def authorize (jwtUserID osUsername : Bytes) : Except AuthError Grant :=
  if jwtUserID = [] then .error .emptyUserID
  else match a.authorizedUsers.idxOf? (hash jwtUserID) with
    | none => .error .userNotAuthorized
    | some userIndex => a.checkMachineUserMapping osUsername userIndex

/-- `updateSSHServerAuth`, with the SSH server running. -/
def updateSSHServerAuth : Option SSHAuth → Authorizer
  | none => a
  | some sshAuth =>
    if sshAuth.authorizedUsers.all fun hash => hash.length = 16 then update sshAuth else a

end Authorizer

/-- A network map as it is pushed: the sets, and the orders in which management ranges over them.
`failed` is set if the client returns early because of an error in updating its peers. -/
structure Push where
  serial : ℕ
  remotePeersIsEmpty : Bool
  failed : Bool := false
  authorizedUsers : List (Bytes × List Bytes)
  ord : RangeOrder Bytes := .kept
  order : Bytes → RangeOrder Bytes := fun _ => .kept

/-- The client, as far as maps change its logins. -/
structure Engine where
  networkSerial : ℕ := 0
  authorizer : Authorizer := {}

/-- `updateNetworkMap`. -/
def Engine.updateNetworkMap (e : Engine) (p : Push) : Engine :=
  if e.networkSerial > p.serial ∨ p.failed then e
  else
    { networkSerial := p.serial
      authorizer := if p.remotePeersIsEmpty then e.authorizer
        else e.authorizer.updateSSHServerAuth
          (some (buildAuthorizedUsersProto hash p.ord p.order p.authorizedUsers)) }

open Engine

/-- The client after maps from the start. -/
def Engine.run (ps : List Push) : Engine := ps.foldl (updateNetworkMap hash) {}

/-! ## The loops -/

section Loops

variable {hash} {s : Hashed} {seen users : List Bytes} {indexes : List ℕ}

/-- The users with an index, in the order of their indexes. -/
structure Hashed.Lists (hash : Bytes → Bytes) (s : Hashed) (seen : List Bytes) : Prop where
  hashed : s.hashedUsers = seen.map hash
  index : ∀ u, get s.userIDToIndex u = seen.idxOf? u

/-- The indexes are those of the users. -/
def Names (seen : List Bytes) (indexes : List ℕ) (users : List Bytes) : Prop :=
  indexes.map some = users.map seen.idxOf?

theorem idxOf?_append (l l' : List Bytes) (b : Bytes) : (l ++ l').idxOf? b =
    (l.idxOf? b).or ((l'.idxOf? b).map (· + l.length)) := findIdx?_append

theorem Names.append (h : Names seen indexes users) (new : List Bytes) :
    Names (seen ++ new) indexes users := by
  refine Eq.trans h (map_congr_left fun u hu => ?_)
  have hmem : seen.idxOf? u ∈ indexes.map some := h ▸ mem_map_of_mem hu
  obtain ⟨i, -, hi⟩ := mem_map.mp hmem
  rw [idxOf?_append, ← hi, Option.some_or]

theorem addUsers_spec (h : s.Lists hash seen) (users : List Bytes) :
    ∃ t new indexes, users.foldl (addUser hash) (s, []) = (t, indexes) ∧
      t.Lists hash (seen ++ new) ∧ new ⊆ users ∧ Names (seen ++ new) indexes users := by
  induction users using reverseRecOn with
  | nil => exact ⟨s, [], [], rfl, by rwa [append_nil], nil_subset _, rfl⟩
  | append_singleton users u ih =>
    obtain ⟨t, new, indexes, hloop, ht, hnew, hnames⟩ := ih
    have hindex := ht.index u
    rw [foldl_concat, hloop, addUser]
    cases hget : get t.userIDToIndex u with
    | some i =>
      refine ⟨t, new, indexes ++ [i], rfl, ht, fun v hv => mem_append_left _ (hnew hv), ?_⟩
      rw [Names, map_append, map_append, hnames, map_singleton, map_singleton, ← hindex, hget]
    | none =>
      have hidx : ∀ v, (seen ++ (new ++ [u])).idxOf? v = ((seen ++ new).idxOf? v).or
          (if u = v then some (seen ++ new).length else none) := by
        intro v
        rw [← append_assoc, idxOf?_append]
        by_cases hv : u = v <;> simp [idxOf?_cons, hv]
      refine ⟨_, new ++ [u], _, rfl, ⟨?_, fun v => ?_⟩, append_subset.mpr ⟨?_, by simp⟩, ?_⟩
      · simp [ht.hashed]
      · rw [get_set, hidx, ht.hashed, length_map, ht.index]
        by_cases hv : v = u
        · rw [if_pos hv, if_pos hv.symm, hv, ← hindex, hget, Option.none_or]
        · rw [if_neg hv, if_neg (Ne.symm hv), Option.or_none]
      · exact fun v hv => mem_append_left _ (hnew hv)
      · have hself := hidx u
        rw [← hindex, hget, if_pos rfl, Option.none_or] at hself
        rw [Names, map_append, map_append, ← append_assoc, hnames.append, append_assoc,
          map_singleton, map_singleton, hself, ht.hashed, length_map]

/-- **The message.**  Its hashes are those of users of the sets, and the indexes of an OS user are
those of the users of its set. -/
theorem build_spec (ord : RangeOrder Bytes) (order : Bytes → RangeOrder Bytes)
    (sets : List (Bytes × List Bytes)) : ∃ seen,
    let msg := buildAuthorizedUsersProto hash ord order sets
    msg.authorizedUsers = seen.map hash ∧ (∀ u ∈ seen, ∃ e ∈ sets, u ∈ e.2) ∧
      ∀ o, ∃ users, (∀ u, u ∈ users ↔ u ∈ (get sets o).getD []) ∧
        Names seen ((get msg.machineUsers o).getD []) users := by
  have hloop : ∀ entries : List (Bytes × List Bytes), (∀ e ∈ entries, get sets e.1 = some e.2) →
      ∃ seen, let r := entries.foldl (addMachineUser hash order) ({}, [])
      r.1.Lists hash seen ∧ (∀ u ∈ seen, ∃ e ∈ sets, u ∈ e.2) ∧ ∀ o, ∃ users,
        (∀ u, u ∈ users ↔ o ∈ entries.map Prod.fst ∧ u ∈ (get sets o).getD []) ∧
          Names seen ((get r.2 o).getD []) users := by
    intro entries
    induction entries using reverseRecOn with
    | nil => exact fun _ => ⟨[], ⟨rfl, fun _ => rfl⟩, by simp, fun o => ⟨[], by simp, rfl⟩⟩
    | append_singleton entries e ih =>
      intro hget
      obtain ⟨seen, hlists, hfrom, hnames⟩ := ih fun e he => hget e (mem_append_left _ he)
      have he := hget e (by simp)
      obtain ⟨t, new, indexes, hstep, ht, hnew, hnamed⟩ :=
        addUsers_spec hlists ((order e.1).order e.2)
      refine ⟨seen ++ new, ?_⟩
      rw [foldl_concat, addMachineUser, hstep]
      refine ⟨ht, fun u hu => ?_, fun o => ?_⟩
      · rcases mem_append.mp hu with hold | hadded
        · exact hfrom u hold
        · exact ⟨_, mem_of_get he, (order e.1).mem_order.mp (hnew hadded)⟩
      · by_cases ho : o = e.1
        · subst ho
          exact ⟨(order e.1).order e.2, fun u => by simp [he], by rw [get_set_self]; exact hnamed⟩
        · obtain ⟨users, hmem, hold⟩ := hnames o
          refine ⟨users, fun u => by rw [hmem]; simp [ho], ?_⟩
          rw [get_set_of_ne ho]
          exact hold.append new
  obtain ⟨seen, hlists, hfrom, hnames⟩ := hloop (range ord sets) fun e he => mem_range.mp he
  refine ⟨seen, hlists.hashed, hfrom, fun o => ?_⟩
  obtain ⟨users, hmem, hnamed⟩ := hnames o
  refine ⟨users, fun u => (hmem u).trans (and_iff_right_of_imp fun hu => ?_), hnamed⟩
  cases hget : get sets o with
  | none => simp [hget] at hu
  | some us => exact mem_map.mpr ⟨(o, us), mem_range.mpr hget, rfl⟩

end Loops

/-! ## Logins -/

/-- The sets allow a user to log in as an OS user. -/
def Allows (sets : List (Bytes × List Bytes)) (u o : Bytes) : Prop :=
  u ≠ [] ∧ (u ∈ (get sets o).getD [] ∨ u ∈ (get sets wildcard).getD [])

/-- The sets of the latest network map. -/
def latest (ps : List Push) : List (Bytes × List Bytes) :=
  (ps.getLast?.map Push.authorizedUsers).getD []

open Authorizer

section Logins

variable {hash}

theorem authorize_iff (a : Authorizer) (u o : Bytes) : (∃ g, a.authorize hash u o = .ok g) ↔
    u ≠ [] ∧ ∃ i, a.authorizedUsers.idxOf? (hash u) = some i ∧
      (i ∈ (get a.machineUsers o).getD [] ∨ i ∈ (get a.machineUsers wildcard).getD []) := by
  rw [authorize]
  split
  next hu =>
    simp [hu]
  next hu =>
    cases a.authorizedUsers.idxOf? (hash u) with
    | none => simp
    | some i =>
      dsimp only
      rw [checkMachineUserMapping]
      cases get a.machineUsers o with
      | none => split <;> simp_all
      | some allowed => by_cases h : i ∈ allowed <;> split <;> simp_all

theorem getD_machineUsers_update (config : SSHAuth) (o : Bytes) :
    (get (update config).machineUsers o).getD [] =
      (get config.machineUsers o).getD [] := by
  rw [update, get_mapEntries]
  cases get config.machineUsers o with
  | none => rfl
  | some indexes => by_cases h : indexes = [] <;> simp [h]

theorem authorizer_updateNetworkMap (e : Engine) (p : Push) :
    (e.updateNetworkMap hash p).authorizer =
      if (e.networkSerial > p.serial ∨ p.failed) ∨ p.remotePeersIsEmpty then e.authorizer
      else e.authorizer.updateSSHServerAuth
        (some (buildAuthorizedUsersProto hash p.ord p.order p.authorizedUsers)) := by
  rw [updateNetworkMap]
  by_cases hskip : e.networkSerial > p.serial ∨ p.failed
  · rw [if_pos hskip, if_pos (.inl hskip)]
  · simp [hskip]

variable {S : Set Bytes} (hlen : ∀ u ∈ S, (hash u).length = 16) (hinj : Set.InjOn hash S)

include hinj

theorem idxOf?_map {u : Bytes} (hu : u ∈ S) {seen : List Bytes} (hseen : ∀ v ∈ seen, v ∈ S) :
    (seen.map hash).idxOf? (hash u) = seen.idxOf? u := by
  induction seen with
  | nil => rfl
  | cons v seen ih =>
    have hv : hash v = hash u ↔ v = u := hinj.eq_iff (hseen v (by simp)) hu
    rw [map_cons, idxOf?_cons, idxOf?_cons, ih fun w hw => hseen w (mem_cons_of_mem _ hw)]
    simp only [beq_iff_eq, hv]

include hlen

/-- **One map.**  The client allows what the sets allow that it is handed. -/
theorem authorize_updateSSHServerAuth {p : Push} (hS : ∀ e ∈ p.authorizedUsers, ∀ u ∈ e.2, u ∈ S)
    (a : Authorizer) {u : Bytes} (hu : u ∈ S) (o : Bytes) :
    (∃ g, (a.updateSSHServerAuth (some (buildAuthorizedUsersProto hash p.ord p.order
      p.authorizedUsers))).authorize hash u o = .ok g) ↔ Allows p.authorizedUsers u o := by
  obtain ⟨seen, hhashed, hfrom, hnames⟩ := @build_spec hash p.ord p.order p.authorizedUsers
  have hseen : ∀ v ∈ seen, v ∈ S := by
    intro v hv
    obtain ⟨e, he, hve⟩ := hfrom v hv
    exact hS e he v hve
  have hside : ∀ o, u ∈ (get p.authorizedUsers o).getD [] ↔ ∃ i, seen.idxOf? u = some i ∧
      i ∈ (get (buildAuthorizedUsersProto hash p.ord p.order p.authorizedUsers).machineUsers
        o).getD [] := by
    intro o
    obtain ⟨users, hmem, hnamed⟩ := hnames o
    rw [← hmem]
    constructor
    · intro hin
      obtain ⟨i, hi, heq⟩ := mem_map.mp (hnamed ▸ mem_map_of_mem hin)
      exact ⟨i, heq.symm, hi⟩
    · rintro ⟨i, hi, hin⟩
      obtain ⟨v, hv, hvi⟩ := mem_map.mp (hnamed ▸ mem_map_of_mem (f := some) hin)
      obtain ⟨_, hui, -⟩ := findIdx?_eq_some_iff_getElem.mp hi
      obtain ⟨_, hvi, -⟩ := findIdx?_eq_some_iff_getElem.mp hvi
      rwa [← eq_of_beq hui, eq_of_beq hvi]
  rw [updateSSHServerAuth, if_pos, authorize_iff, Allows]
  · refine and_congr_right fun _ => ?_
    simp only [getD_machineUsers_update, hside, ← exists_or, ← and_or_left]
    show (∃ i, idxOf? _ _ = _ ∧ _) ↔ _
    simp only [update, hhashed, idxOf?_map hinj hu hseen]
  · rw [hhashed]
    simpa using fun v hv => hlen v (hseen v hv)

/-- **A client allows at all times what the latest map allows exactly if every map that it does
not hand to its SSH server allows what the one before allows.** -/
theorem authorized_by_latest_iff (ps : List Push)
    (hS : ∀ p ∈ ps, ∀ e ∈ p.authorizedUsers, ∀ u ∈ e.2, u ∈ S) :
    (∀ pre, pre <+: ps → ∀ u ∈ S, ∀ o,
      (∃ g, (run hash pre).authorizer.authorize hash u o = .ok g) ↔
        Allows (latest pre) u o) ↔
    ∀ pre p, pre ++ [p] <+: ps →
      ((run hash pre).networkSerial > p.serial ∨ p.failed) ∨ p.remotePeersIsEmpty →
      ∀ u ∈ S, ∀ o, Allows p.authorizedUsers u o ↔ Allows (latest pre) u o := by
  apply Transition.forall_prefix_iff
  · intro u _ o
    simp [run, latest, Allows, authorize_iff, get]
  · intro pre p hpre hlaw
    have hp : p ∈ ps := hpre.subset (by simp)
    have hlatest : latest (pre ++ [p]) = p.authorizedUsers := by simp [latest]
    have hrun : run hash (pre ++ [p]) = (run hash pre).updateNetworkMap hash p :=
      foldl_concat ..
    rw [hlatest, hrun, authorizer_updateNetworkMap]
    split
    next hskip =>
      rw [imp_iff_right hskip]
      refine forall₃_congr fun u hu o => ?_
      rw [hlaw u hu o]
      exact Iff.comm
    next happlied =>
      refine iff_of_true (fun u hu o => ?_) fun hskip => absurd hskip happlied
      exact authorize_updateSSHServerAuth hlen hinj (hS p hp) _ hu o

end Logins

/-- A stand-in for the hash: a short user id, filled up. -/
def padded (userID : Bytes) : Bytes := (userID ++ replicate 16 0).take 16

/-- A map that lets Alice log in as root, and one without remote peers that lets nobody log in. -/
def allowed : Push := ⟨1, false, false, [(ascii "root", [ascii "alice"])], .kept, fun _ => .kept⟩

/-- The map that follows. -/
def withdrawn : Push := ⟨2, true, false, [], .kept, fun _ => .kept⟩

/-- A client that is handed its map. -/
theorem authorized_by_only_map : (∃ g, (run padded [allowed]).authorizer.authorize padded
    (ascii "bob") (ascii "root") = .ok g) ↔
      Allows (latest [allowed]) (ascii "bob") (ascii "root") := by
  refine (authorized_by_latest_iff (S := { u | u ∈ [ascii "alice", ascii "bob"] }) ?_ ?_ [allowed]
    ?_).mpr ?_ [allowed] prefix_rfl (ascii "bob") (by simp) (ascii "root")
  · show ∀ u ∈ [ascii "alice", ascii "bob"], (padded u).length = 16
    decide
  · show ∀ u ∈ [ascii "alice", ascii "bob"], ∀ v ∈ [ascii "alice", ascii "bob"],
      padded u = padded v → u = v
    decide
  · show ∀ p ∈ [allowed], ∀ e ∈ p.authorizedUsers, ∀ u ∈ e.2, u ∈ [ascii "alice", ascii "bob"]
    decide
  · intro pre p hpre hskip
    obtain rfl : pre = [] := by
      have := hpre.length_le
      simpa using this
    obtain rfl : p = allowed := by simpa using hpre
    simp [run, allowed] at hskip

/-- Alice can still log in after the latest map has withdrawn it. -/
theorem withdrawn_login_succeeds :
    (run padded [allowed, withdrawn]).authorizer.authorize padded (ascii "alice")
      (ascii "root") = .ok (.mapped 0) ∧
    ¬ Allows (latest [allowed, withdrawn]) (ascii "alice") (ascii "root") :=
  ⟨by decide, by simp [Allows, latest, withdrawn, get]⟩

end SSHAuthorization
