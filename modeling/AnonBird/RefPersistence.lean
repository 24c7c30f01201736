/-
# Saved reference counters

Model of `MarshalJSON` and `UnmarshalJSON`
(`client/internal/routemanager/refcounter/refcounter.go`).  A counter comes back with its counts,
its outputs and the keys of its ids if and only if what it holds comes back from JSON; and it works
after any document that has both maps.
-/
import AnonBird.GoJSON
import AnonBird.RefDiscipline

open GoStrings GoJSON List

namespace RefCounter

variable {κ O J : Type} [DecidableEq κ]

/-- A counter in memory, whose maps may be nil. -/
structure Memory (κ O : Type) where
  refCountMap : Option (List (κ × Ref O))
  idMap : Option (List (Bytes × List κ))

/-- A reference in a document; the output may be missing or null. -/
structure SavedRef (J : Type) where
  count : ℤ
  out : Option J

/-- The members of a document that are read. -/
structure Document (J : Type) where
  refCountMap : Member (SavedRef J)
  idMap : Member (List Bytes)

/-- How the keys and the outputs of a counter are written and read. -/
structure Codec (κ O J : Type) where
  keys : KeyText κ
  save : O → J
  load : J → Except Bytes O

/-- The ids are strings. -/
def idText : KeyText Bytes := ⟨id, .ok⟩

theorem lawful_idText : idText.Lawful := by
  refine ⟨fun _ => rfl, fun k k' h => ?_⟩
  cases h
  rfl

namespace Codec

variable (c : Codec κ O J)

/-- A reference as it is saved. -/
def saveRef (ref : Ref O) : SavedRef J := ⟨ref.count, some (c.save ref.out)⟩

/-- Without an output the zero value is left. -/
def loadRef [Inhabited O] (ref : SavedRef J) : Except Bytes (Ref O) :=
  match ref.out with
  | none => .ok ⟨ref.count, default⟩
  | some out => (c.load out).map fun out => ⟨ref.count, out⟩

/-- Keys as they are saved. -/
def saveKeys (keys : List κ) : List Bytes := keys.map fun key => jsonString (c.keys.text key)

/-- Keys from their texts. -/
def loadKeys (keys : List Bytes) : Except Bytes (List κ) := keys.mapM c.keys.parse

/-- `MarshalJSON`. -/
def marshalJSON (rm : Memory κ O) : Document J :=
  ⟨encodeMap c.keys c.saveRef rm.refCountMap, encodeMap idText c.saveKeys rm.idMap⟩

/-- `UnmarshalJSON`; the maps for missing members are made in `temp`, after the counter took its
own from there. -/
def unmarshalJSON [Inhabited O] (data : Document J) : Except Bytes (Memory κ O) := do
  let refCountMap ← decodeMap c.keys c.loadRef data.refCountMap
  let idMap ← decodeMap idText c.loadKeys data.idMap
  return ⟨refCountMap, idMap⟩

omit [DecidableEq κ] in
/-- A reference comes back if its output does. -/
theorem loadRef_saveRef [Inhabited O] (ref : Ref O) :
    c.loadRef (c.saveRef ref) = .ok ref ↔ c.load (c.save ref.out) = .ok ref.out := by
  obtain ⟨count, out⟩ := ref
  cases h : c.load (c.save out) <;> simp [loadRef, saveRef, h, Except.map]

variable {c}

omit [DecidableEq κ] in
/-- The keys of an id come back if their texts are valid. -/
theorem loadKeys_saveKeys (hkeys : c.keys.Lawful) (keys : List κ) :
    c.loadKeys (c.saveKeys keys) = .ok keys ↔
      ∀ key ∈ keys, jsonString (c.keys.text key) = c.keys.text key := by
  unfold loadKeys saveKeys
  constructor
  · intro h key hkey
    obtain ⟨text, htext, hparse⟩ := (Except.mem_of_mapM h).mp hkey
    obtain ⟨key', -, rfl⟩ := mem_map.mp htext
    rw [hkeys.text_parse key' key hparse, jsonString_jsonString]
  · intro h
    induction keys with
    | nil => rfl
    | cons key keys ih =>
      rw [map_cons, mapM_cons, h key mem_cons_self, hkeys.parse_text,
        ih fun k hk => h k (mem_cons_of_mem _ hk)]
      rfl

end Codec

/-- The calls of a loaded counter, with what `AddFunc` and `RemoveFunc` return. -/
inductive Call (κ O : Type) where
  /-- `Increment`, or `IncrementWithID` with the id of the owner. -/
  | increment (owner : Option Bytes) (key : κ) (added : AddResult O)
  | decrement (key : κ) (removed : Bool)
  | decrementWithID (id : Bytes) (removed : κ → Bool)
  /-- `Flush` or `Clear`. -/
  | clear

namespace Memory

variable [Inhabited O] (m : Memory κ O)

/-- The counter as it reads; a nil map has no entries. -/
def counter : Counter κ O := ⟨m.refCountMap.getD [], m.idMap.getD []⟩

/-- The maps after a call that writes to no nil map. -/
def store (c : Counter κ O) : Memory κ O :=
  ⟨m.refCountMap.map fun _ => c.refCountMap, m.idMap.map fun _ => c.idMap⟩

/-- A call; a write to a nil map panics. -/
def call : Call κ O → Option (Memory κ O)
  | .increment owner key added =>
    if m.counter.takes key added && m.refCountMap.isNone then none
    else match owner with
      | none => some (m.store (m.counter.increment key added).2)
      | some id =>
        let (ref, c) := m.counter.incrementWithID id key added
        if ref.isSome && m.idMap.isNone then none else some (m.store c)
  | .decrement key removed => some (m.store (m.counter.decrement key removed).2)
  | .decrementWithID id removed => some (m.store (m.counter.decrementWithID id removed))
  | .clear => some (m.store {})

/-- Two counters have the same counts and outputs, and the same keys for every id. -/
def Same (m m' : Memory κ O) : Prop :=
  SameMap m.refCountMap m'.refCountMap ∧ SameMap m.idMap m'.idMap

/-- What the counter holds comes back from JSON: the texts of keys and ids are valid, and outputs
are read as they were written. -/
def Survives (c : Codec κ O J) (m : Memory κ O) : Prop :=
  (∀ key ref, m.refCountMap.bind (get · key) = some ref →
    jsonString (c.keys.text key) = c.keys.text key ∧ c.load (c.save ref.out) = .ok ref.out) ∧
  ∀ id keys, m.idMap.bind (get · id) = some keys →
    jsonString id = id ∧ ∀ key ∈ keys, jsonString (c.keys.text key) = c.keys.text key

/-- A call leaves no map nil that was not. -/
theorem call_eq_some (h : m.refCountMap.isSome ∧ m.idMap.isSome) (e : Call κ O) :
    ∃ m', m.call e = some m' ∧ m'.refCountMap.isSome ∧ m'.idMap.isSome := by
  obtain ⟨_ | refs, _ | ids⟩ := m <;> simp at h
  cases e with
  | increment owner => cases owner <;> simp [call, store]
  | decrement | decrementWithID | clear => simp [call, store]

end Memory

/-- An increment whose add succeeds is recorded for its id. -/
theorem Counter.isSome_incrementWithID [Inhabited O] (c : Counter κ O) (id : Bytes) (key : κ)
    (out : O) : (c.incrementWithID id key (.ok out)).1.isSome := by
  unfold incrementWithID increment
  dsimp only
  split_ifs <;> rfl

/-- A counter comes back exactly if what it holds does. -/
theorem same_unmarshalJSON_iff [Inhabited O] {c : Codec κ O J} (hkeys : c.keys.Lawful)
    (m : Memory κ O) : (∃ m', c.unmarshalJSON (c.marshalJSON m) = .ok m' ∧ m'.Same m) ↔
      m.Survives c := by
  have hrefs : (∃ m', decodeMap c.keys c.loadRef (encodeMap c.keys c.saveRef m.refCountMap) =
      .ok m' ∧ SameMap m' m.refCountMap) ↔ _ := decodeMap_encodeMap_iff hkeys m.refCountMap
  have hids : (∃ m', decodeMap idText c.loadKeys (encodeMap idText c.saveKeys m.idMap) = .ok m' ∧
      SameMap m' m.idMap) ↔ _ := decodeMap_encodeMap_iff lawful_idText m.idMap
  simp only [Codec.loadRef_saveRef, Codec.loadKeys_saveKeys hkeys] at hrefs hids
  rw [Memory.Survives]
  refine Iff.trans ?_ (and_congr hrefs hids)
  constructor
  · rintro ⟨m', hm', hsame⟩
    obtain ⟨refs, hrefs, hm'⟩ := Except.bind_eq_ok.mp hm'
    obtain ⟨ids, hids, hm'⟩ := Except.bind_eq_ok.mp hm'
    cases hm'
    exact ⟨⟨refs, hrefs, hsame.1⟩, ids, hids, hsame.2⟩
  · rintro ⟨⟨refs, hrefs, hsame⟩, ids, hids, hsame'⟩
    refine ⟨⟨refs, ids⟩, ?_, hsame, hsame'⟩
    exact Except.bind_eq_ok.mpr ⟨refs, hrefs, Except.bind_eq_ok.mpr ⟨ids, hids, rfl⟩⟩

/-- A member leaves a map if it is an object. -/
theorem isSome_decodeMap {κ ν α : Type} [DecidableEq κ] {keys : KeyText κ}
    {load : α → Except Bytes ν} {member : Member α} {m : Option (List (κ × ν))}
    (h : decodeMap keys load member = .ok m) : m.isSome ↔ ∃ entries, member = .object entries := by
  cases member with
  | missing | null =>
    cases h
    simp
  | object entries =>
    obtain ⟨decoded, -, hm⟩ := Except.bind_eq_ok.mp h
    cases hm
    simp

/-- A counter works if and only if it has both maps. -/
theorem forall_calls_iff [Inhabited κ] [Inhabited O] (m : Memory κ O) :
    (∀ calls : List (Call κ O), (calls.foldlM Memory.call m).isSome) ↔
      m.refCountMap.isSome ∧ m.idMap.isSome := by
  constructor
  · intro h
    have hcall := h [.increment (some []) default (.ok default)]
    obtain ⟨refs, ids⟩ := m
    cases refs <;> cases ids <;>
      simp [Memory.call, Counter.takes, (Memory.counter _).isSome_incrementWithID] at hcall ⊢
  · intro hstart calls
    induction calls generalizing m with
    | nil => rfl
    | cons e calls ih =>
      obtain ⟨m', hm', hsome⟩ := m.call_eq_some hstart e
      rw [foldlM_cons, hm']
      exact ih m' hsome

/-- **Saved counters.** A counter comes back if and only if what it holds survives JSON, and works
after a document that was accepted if and only if that has both maps. -/
theorem persistence_iff [Inhabited κ] [Inhabited O] (c : Codec κ O J) (hkeys : c.keys.Lawful) :
    (∀ m : Memory κ O,
      (∃ m', c.unmarshalJSON (c.marshalJSON m) = .ok m' ∧ m'.Same m) ↔ m.Survives c) ∧
    ∀ (data : Document J) (m : Memory κ O), c.unmarshalJSON data = .ok m →
      ((∀ calls : List (Call κ O), (calls.foldlM Memory.call m).isSome) ↔
        (∃ refs, data.refCountMap = .object refs) ∧ ∃ ids, data.idMap = .object ids) := by
  refine ⟨same_unmarshalJSON_iff hkeys, fun data m hm => ?_⟩
  obtain ⟨refs, hrefs, hm⟩ := Except.bind_eq_ok.mp hm
  obtain ⟨ids, hids, hm⟩ := Except.bind_eq_ok.mp hm
  cases hm
  rw [forall_calls_iff, isSome_decodeMap hrefs, isSome_decodeMap hids]

/-- Counters of sets by their names, without outputs. -/
def setCodec : Codec Bytes Unit Unit := ⟨idText, id, .ok⟩

/-- A counted set comes back with the id that it was counted for. -/
theorem counted_set_comes_back :
    let m : Memory Bytes Unit := ⟨some [(ascii "set", ⟨1, ()⟩)], some [(ascii "id", [ascii "set"])]⟩
    ∃ m', setCodec.unmarshalJSON (setCodec.marshalJSON m) = .ok m' ∧ m'.Same m := by
  refine ((persistence_iff setCodec lawful_idText).1 _).mpr ⟨?_, ?_⟩
  · intro key ref h
    cases GoMap.mem_of_get h with
    | head => exact ⟨by decide, rfl⟩
    | tail _ h => cases h
  · intro id keys h
    cases GoMap.mem_of_get h with
    | head => exact ⟨by decide, by decide⟩
    | tail _ h => cases h

/-- The first increment after loading an empty document panics. -/
theorem empty_document_panics :
    (setCodec.unmarshalJSON ⟨.missing, .missing⟩).map (fun m =>
      [Call.increment none (ascii "set") (.ok ())].foldlM Memory.call m) = .ok none := rfl

end RefCounter
