/-
# Strings and maps in JSON

What `encoding/json` makes of a string and of a map.  A string comes back with the bytes replaced
that are not valid UTF-8, and the entries of a map are written in the order of their keys and read
one after the other.  So a map comes back if and only if its keys are valid and its values come
back.
-/
import AnonBird.ExceptLoops
import AnonBird.GoMap
import AnonBird.GoRunes

open GoStrings GoText List

namespace GoJSON

export GoMap (get)

/-! ## Strings -/

/-- A string after it was written to JSON and read back: what is not valid UTF-8 is replaced. -/
def jsonString (s : Bytes) : Bytes := mapRunes id s

/-- The runes that have an encoding of their own. -/
def Scalar (r : ℕ) : Prop := r < 0xD800 ∨ 0xE000 ≤ r ∧ r < 0x110000

/-- Decoding yields scalars only; the replacement of invalid bytes is one. -/
theorem scalar_decodeRune (s : Bytes) : Scalar (decodeRune s).1 := by
  have h1 := (byteAt s 1).toNat_lt
  have h2 := (byteAt s 2).toNat_lt
  have h3 := (byteAt s 3).toNat_lt
  unfold decodeRune Scalar
  dsimp only
  split_ifs with hnil hb hcond hcond hcond
  · decide
  · dsimp only
    omega
  all_goals
    first
    | simp only [Bool.and_eq_true, Bool.or_eq_true, decide_eq_true_eq, isContinuation,
        UInt8.le_iff_toNat_le, UInt8.reduceToNat] at hcond
      dsimp only
      omega
    | decide

/-- What follows the encoding of a scalar does not matter for decoding it. -/
theorem decodeRune_encodeRune {r : ℕ} (hr : Scalar r) (t : Bytes) :
    decodeRune (encodeRune r ++ t) = (r, (encodeRune r).length) := by
  have hbyte : ∀ m < 256, (UInt8.ofNat m).toNat = m := by
    intro m hm
    rw [UInt8.toNat_ofNat', Nat.mod_eq_of_lt hm]
  unfold Scalar at hr
  unfold encodeRune
  -- one case for each width, in which the first byte rules out the shorter ones
  split_ifs with h1 h2 h3 h4
  · simp [decodeRune, byteAt, Nat.mod_eq_of_lt (show r < 256 by omega), h1]
  · simp only [decodeRune, byteAt, cons_append, nil_append, getD_cons_zero, getD_cons_succ,
      hbyte (0xC0 + r / 64) (by omega), hbyte (0x80 + r % 64) (by omega), isContinuation,
      UInt8.le_iff_toNat_le, UInt8.reduceToNat]
    rw [if_neg (by simp), if_neg (by omega), if_pos (by simp; omega)]
    simp
    omega
  · simp at h3
    omega
  · simp only [decodeRune, byteAt, cons_append, nil_append, getD_cons_zero, getD_cons_succ,
      hbyte (0xE0 + r / 4096) (by omega), hbyte (0x80 + r / 64 % 64) (by omega),
      hbyte (0x80 + r % 64) (by omega), isContinuation, UInt8.le_iff_toNat_le, UInt8.reduceToNat]
    rw [if_neg (by simp), if_neg (by omega), if_neg (by simp; omega), if_pos (by simp; omega)]
    simp
    omega
  · simp only [decodeRune, byteAt, cons_append, nil_append, getD_cons_zero, getD_cons_succ,
      hbyte (0xF0 + r / 262144) (by omega), hbyte (0x80 + r / 4096 % 64) (by omega),
      hbyte (0x80 + r / 64 % 64) (by omega), hbyte (0x80 + r % 64) (by omega), isContinuation,
      UInt8.le_iff_toNat_le, UInt8.reduceToNat]
    rw [if_neg (by simp), if_neg (by omega), if_neg (by simp; omega), if_neg (by simp; omega),
      if_pos (by simp; omega)]
    simp
    omega

theorem scalar_of_mem_runes {r : ℕ} {s : Bytes} (h : r ∈ runes s) : Scalar r := by
  induction s using runes_induction with
  | hnil => exact absurd h not_mem_nil
  | hcons b s ih =>
    rw [runes_cons] at h
    rcases mem_cons.mp h with rfl | h
    · exact scalar_decodeRune (b :: s)
    · exact ih h

/-- Encoded scalars are the runes of their encoding. -/
theorem runes_flatMap_encodeRune {rs : List ℕ} (h : ∀ r ∈ rs, Scalar r) :
    runes (rs.flatMap encodeRune) = rs := by
  induction rs with
  | nil => rfl
  | cons r rs ih =>
    have hdecode := decodeRune_encodeRune (h r mem_cons_self) (rs.flatMap encodeRune)
    rw [flatMap_cons]
    obtain ⟨b, t, hcons⟩ := exists_cons_of_ne_nil (encodeRune_ne_nil r)
    have hlist : encodeRune r ++ rs.flatMap encodeRune = b :: (t ++ rs.flatMap encodeRune) := by
      rw [hcons, cons_append]
    rw [hlist, runes_cons, ← hlist, hdecode, drop_left, ih fun r hr => h r (mem_cons_of_mem _ hr)]

/-- A string that came back from JSON comes back as it is. -/
theorem jsonString_jsonString (s : Bytes) : jsonString (jsonString s) = jsonString s := by
  have hrunes : runes (jsonString s) = runes s :=
    runes_flatMap_encodeRune fun r hr => scalar_of_mem_runes hr
  rw [jsonString, mapRunes, hrunes]
  rfl

/-! ## Maps -/

/-- A member of a document that is to be read into a map. -/
inductive Member (α : Type) where
  | missing
  | null
  | object (entries : List (Bytes × α))

/-- The texts of the keys of a map; a string is its own text. -/
structure KeyText (κ : Type) where
  text : κ → Bytes
  parse : Bytes → Except Bytes κ

variable {κ ν α : Type}

/-- A key is read back from its text, and a text that came back from JSON is the text of what is
read from it. -/
structure KeyText.Lawful (keys : KeyText κ) : Prop where
  parse_text : ∀ k, keys.parse (keys.text k) = .ok k
  text_parse : ∀ k k', keys.parse (jsonString (keys.text k)) = .ok k' →
    keys.text k' = jsonString (keys.text k)

variable [DecidableEq κ] (keys : KeyText κ)

open GoMap hiding get

/-- A map is written in the order of its keys, nil as null. -/
def encodeMap (save : ν → α) : Option (List (κ × ν)) → Member α
  | none => .null
  | some m =>
    let resolved := (entries m).map fun e => (keys.text e.1, save e.2)
    .object ((resolved.mergeSort fun a b => a.1 ≤ b.1).map fun e => (jsonString e.1, e.2))

/-- The entries are read in order, and a later one replaces an earlier one with its key; without an
object the map stays nil. -/
def decodeMap (load : α → Except Bytes ν) : Member α → Except Bytes (Option (List (κ × ν)))
  | .object entries => do
    let decoded ← entries.mapM fun e => do return (← keys.parse e.1, ← load e.2)
    return some (build Prod.fst Prod.snd decoded)
  | _ => .ok none

/-- Two maps that may be nil read the same. -/
def SameMap (m m' : Option (List (κ × ν))) : Prop :=
  m.isSome = m'.isSome ∧ ∀ k, m.bind (get · k) = m'.bind (get · k)

variable {keys} {save : ν → α} {load : α → Except Bytes ν} {m : List (κ × ν)}

/-- What is decoded of an encoded map comes from its entries. -/
theorem decodeMap_encodeMap {m' : Option (List (κ × ν))}
    (h : decodeMap keys load (encodeMap keys save (some m)) = .ok m') :
    ∃ decoded : List (κ × ν), m' = some (build Prod.fst Prod.snd decoded) ∧
      ∀ e, e ∈ decoded ↔ ∃ k v, get m k = some v ∧
        keys.parse (jsonString (keys.text k)) = .ok e.1 ∧ load (save v) = .ok e.2 := by
  obtain ⟨decoded, hdecoded, hm'⟩ := Except.bind_eq_ok.mp h
  cases hm'
  refine ⟨decoded, rfl, fun e => ?_⟩
  rw [Except.mem_of_mapM hdecoded]
  constructor
  · rintro ⟨x, hx, he⟩
    obtain ⟨y, hy, rfl⟩ := mem_map.mp hx
    obtain ⟨⟨k, v⟩, hkv, rfl⟩ := mem_map.mp (mem_mergeSort.mp hy)
    obtain ⟨k', hk', he⟩ := Except.bind_eq_ok.mp he
    obtain ⟨v', hv', he⟩ := Except.bind_eq_ok.mp he
    cases he
    exact ⟨k, v, mem_entries.mp hkv, hk', hv'⟩
  · rintro ⟨k, v, hkv, hk, hv⟩
    refine ⟨(jsonString (keys.text k), save v), ?_, ?_⟩
    · exact mem_map.mpr ⟨_, mem_mergeSort.mpr (mem_map.mpr ⟨(k, v), mem_entries.mpr hkv, rfl⟩), rfl⟩
    · exact Except.bind_eq_ok.mpr ⟨e.1, hk, Except.bind_eq_ok.mpr ⟨e.2, hv, rfl⟩⟩

/-- **A map comes back from JSON** if and only if its keys have valid texts and its values come
back. -/
theorem decodeMap_encodeMap_iff (hkeys : keys.Lawful) (m : Option (List (κ × ν))) :
    (∃ m', decodeMap keys load (encodeMap keys save m) = .ok m' ∧ SameMap m' m) ↔
      ∀ k v, m.bind (get · k) = some v →
        jsonString (keys.text k) = keys.text k ∧ load (save v) = .ok v := by
  cases m with
  | none => exact ⟨fun _ => nofun, fun _ => ⟨none, rfl, rfl, fun _ => rfl⟩⟩
  | some m =>
    constructor
    · rintro ⟨m', hm', -, hsame⟩
      obtain ⟨decoded, rfl, hdecoded⟩ := decodeMap_encodeMap hm'
      -- a key that comes back was read from a text that came back from JSON
      have hvalid : ∀ k v, get m k = some v → jsonString (keys.text k) = keys.text k := by
        intro k v hkv
        obtain ⟨e, he, rfl, -⟩ := exists_of_get_build ((hsame k).trans hkv)
        obtain ⟨k', v', -, hk', -⟩ := (hdecoded e).mp he
        rw [hkeys.text_parse k' e.1 hk', jsonString_jsonString]
      intro k v hkv
      obtain ⟨e, he, rfl, rfl⟩ := exists_of_get_build ((hsame k).trans hkv)
      obtain ⟨k', v', hget', hk', hv'⟩ := (hdecoded e).mp he
      rw [hvalid k' v' hget', hkeys.parse_text] at hk'
      cases hk'
      obtain rfl : v' = e.2 := Option.some.inj (hget'.symm.trans hkv)
      exact ⟨hvalid _ _ hkv, hv'⟩
    · intro h
      have hread : ∀ k v, get m k = some v →
          keys.parse (jsonString (keys.text k)) = .ok k ∧ load (save v) = .ok v := by
        intro k v hkv
        obtain ⟨hk, hv⟩ := h k v hkv
        rw [hk]
        exact ⟨hkeys.parse_text k, hv⟩
      obtain ⟨m', hm'⟩ : ∃ m', decodeMap keys load (encodeMap keys save (some m)) = .ok m' := by
        refine Except.bind_succeeds (Except.mapM_succeeds fun x hx => ?_) fun decoded => ⟨_, rfl⟩
        obtain ⟨y, hy, rfl⟩ := mem_map.mp hx
        obtain ⟨⟨k, v⟩, hkv, rfl⟩ := mem_map.mp (mem_mergeSort.mp hy)
        obtain ⟨hk, hv⟩ := hread k v (mem_entries.mp hkv)
        exact ⟨(k, v), Except.bind_eq_ok.mpr ⟨k, hk, Except.bind_eq_ok.mpr ⟨v, hv, rfl⟩⟩⟩
      refine ⟨m', hm', ?_⟩
      obtain ⟨decoded, rfl, hdecoded⟩ := decodeMap_encodeMap hm'
      have hentries : ∀ k v, (k, v) ∈ decoded ↔ get m k = some v := by
        intro k v
        rw [hdecoded]
        constructor
        · rintro ⟨k', v', hkv, hk, hv⟩
          obtain ⟨hk', hv'⟩ := hread k' v' hkv
          rw [hk'] at hk
          rw [hv'] at hv
          cases hk
          cases hv
          exact hkv
        · exact fun hkv => ⟨k, v, hkv, hread k v hkv⟩
      refine ⟨rfl, fun k => ?_⟩
      show get (build Prod.fst Prod.snd decoded) k = get m k
      cases hget : get m k with
      | none =>
        cases hbuilt : get (build Prod.fst Prod.snd decoded) k with
        | none => rfl
        | some v =>
          obtain ⟨e, he, rfl, rfl⟩ := exists_of_get_build hbuilt
          rw [(hentries _ _).mp he] at hget
          cases hget
      | some v =>
        refine get_build _ _ _ _ _ ⟨(k, v), (hentries k v).mpr hget, rfl⟩ ?_
        rintro ⟨k', v'⟩ he rfl
        rw [(hentries _ _).mp he] at hget
        exact Option.some.inj hget

end GoJSON
