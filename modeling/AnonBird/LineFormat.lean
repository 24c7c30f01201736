/-
# Lines of fields

A line protocol sends fields separated by blanks, ended by a newline and possibly
followed by a payload.  A value takes exactly one field when it has neither a blank nor a
newline; `isLine_iff` says that a line built from fields splits into these fields exactly
when all of them are such values.
-/
import AnonBird.GoStrings

open GoStrings List

namespace LineFormat

/-- A value without a blank and a newline. -/
def Word (v : Bytes) : Prop := 32 ∉ v ∧ 10 ∉ v

instance (v : Bytes) : Decidable (Word v) := inferInstanceAs (Decidable (_ ∧ _))

/-- One line before the payload, which splits into the fields. -/
def IsLine (packet payload : Bytes) (fields : List Bytes) : Prop :=
  ∃ body, packet = body ++ 10 :: payload ∧ 10 ∉ body ∧ body.splitOn 32 = fields

theorem word_append {u v : Bytes} : Word (u ++ v) ↔ Word u ∧ Word v := by
  simp only [Word, mem_append, not_or]
  tauto

theorem word_of_digits {v : Bytes} (h : v.all isDigit) : Word v := by
  rw [all_eq_true] at h
  constructor
  · intro hmem
    exact absurd (h 32 hmem) (by decide)
  · intro hmem
    exact absurd (h 10 hmem) (by decide)

theorem not_mem_of_mem_splitOn {sep : UInt8} {s piece : Bytes} (h : piece ∈ s.splitOn sep) :
    sep ∉ piece := by
  induction s generalizing piece with
  | nil =>
    rw [splitOn_nil, mem_singleton] at h
    rw [h]
    exact not_mem_nil
  | cons b s ih =>
    rw [splitOn_cons_eq_if_modifyHead] at h
    split at h
    · rcases mem_cons.mp h with rfl | h
      · exact not_mem_nil
      · exact ih h
    next hb =>
      obtain ⟨first, others, hsplit⟩ := exists_cons_of_ne_nil (splitOn_ne_nil sep s)
      rw [hsplit, modifyHead_cons] at h
      rcases mem_cons.mp h with rfl | h
      · have hfirst : sep ∉ first := ih (by rw [hsplit]; exact mem_cons_self)
        rw [mem_cons, not_or]
        exact ⟨fun hc => hb (by rw [hc]; exact BEq.rfl), hfirst⟩
      · exact ih (by rw [hsplit]; exact mem_cons_of_mem first h)

/-- The first field, and the others each with a blank in front. -/
theorem intercalate_cons (field : Bytes) (fields : List Bytes) :
    [32].intercalate (field :: fields) = field ++ fields.flatMap fun f => 32 :: f := by
  induction fields generalizing field with
  | nil => simp
  | cons f fields ih =>
    rw [intercalate_cons_cons, ih, flatMap_cons]
    simp

theorem mem_intercalate {b : UInt8} (hb : b ≠ 32) (fields : List Bytes) :
    b ∈ [32].intercalate fields ↔ ∃ f ∈ fields, b ∈ f := by
  cases fields with
  | nil => simp
  | cons field fields =>
    rw [intercalate_cons]
    simp [hb]

/-- **A line splits into its fields** exactly when each of them is a word. -/
theorem isLine_iff {fields : List Bytes} (hne : fields ≠ []) (payload : Bytes) :
    IsLine ([32].intercalate fields ++ 10 :: payload) payload fields ↔ ∀ f ∈ fields, Word f := by
  constructor
  · rintro ⟨body, hbody, hline, hsplit⟩ f hf
    have hbody' := append_cancel_right hbody
    refine ⟨not_mem_of_mem_splitOn (by rw [hsplit]; exact hf), fun hmem => hline ?_⟩
    rw [← hbody', mem_intercalate (by decide)]
    exact ⟨f, hf, hmem⟩
  · intro hwords
    refine ⟨_, rfl, ?_, splitOn_intercalate 32 (fun f hf => (hwords f hf).1) hne⟩
    rw [mem_intercalate (by decide)]
    rintro ⟨f, hf, hmem⟩
    exact (hwords f hf).2 hmem

end LineFormat
