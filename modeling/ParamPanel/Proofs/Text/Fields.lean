import Mathlib.Data.List.Basic
import ParamPanel.Proofs.Text.Lines
import ParamPanel.Text.Fields

/-!
# Fields and their separators

A text is cut at each of its separators and nowhere else, so its fields with one separator between
neighbours give it back, and pieces without separators are the fields of what they are joined to.
-/

namespace ParamPanel.Text

lemma fields_cons (separator c : Char) (text : List Char) :
    fields separator (c :: text) = if c = separator then [] :: fields separator text
      else match fields separator text with
        | [] => [[c]]
        | piece :: rest => (c :: piece) :: rest := rfl

/-- Cutting a text into fields is splitting a list at each place where an element stands. -/
lemma fields_eq_splitOn (separator : Char) (text : List Char) :
    fields separator text = text.splitOn separator := by
  induction text with
  | nil => rfl
  | cons c text ih =>
    rw [fields_cons, ih, List.splitOn_cons_eq_if_modifyHead]
    obtain ⟨piece, rest, pieces⟩ := List.exists_cons_of_ne_nil (List.splitOn_ne_nil separator text)
    simp only [pieces, beq_iff_eq, List.modifyHead_cons]

lemma fields_ne_nil (separator : Char) (text : List Char) : fields separator text ≠ [] := by
  rw [fields_eq_splitOn]
  exact List.splitOn_ne_nil separator text

/-- There is one piece more than there are separators. -/
lemma length_fields (separator : Char) (text : List Char) :
    (fields separator text).length = text.count separator + 1 := by
  induction text with
  | nil => rfl
  | cons c text ih =>
    obtain ⟨piece, rest, pieces⟩ := List.exists_cons_of_ne_nil (fields_ne_nil separator text)
    rw [fields_cons]
    split
    · rename_i same
      rw [same, List.length_cons, ih, List.count_cons_self]
    · rename_i other
      rw [List.count_cons_of_ne other, ← ih, pieces, List.length_cons, List.length_cons]

lemma not_mem_of_mem_fields {separator : Char} {text piece : List Char}
    (mem : piece ∈ fields separator text) : separator ∉ piece := by
  induction text generalizing piece with
  | nil =>
    cases List.mem_singleton.mp mem
    exact List.not_mem_nil
  | cons c text ih =>
    obtain ⟨first, rest, pieces⟩ := List.exists_cons_of_ne_nil (fields_ne_nil separator text)
    rw [fields_cons] at mem
    split at mem
    · rcases List.mem_cons.mp mem with rfl | later
      · exact List.not_mem_nil
      · exact ih later
    · rename_i other
      rw [pieces] at ih mem
      rcases List.mem_cons.mp mem with rfl | later
      · rw [List.mem_cons, not_or]
        exact ⟨Ne.symm other, ih List.mem_cons_self⟩
      · exact ih (List.mem_cons_of_mem first later)

/-- The fields with a separator between neighbours give the text back. -/
theorem intercalate_fields (separator : Char) (text : List Char) :
    [separator].intercalate (fields separator text) = text := by
  rw [fields_eq_splitOn]
  exact List.intercalate_splitOn separator

/-- Pieces without separators are the fields of the text that they are joined to. -/
theorem fields_intercalate {separator : Char} {pieces : List (List Char)}
    (free : ∀ piece ∈ pieces, separator ∉ piece) (ne : pieces ≠ []) :
    fields separator ([separator].intercalate pieces) = pieces := by
  rw [fields_eq_splitOn]
  exact List.splitOn_intercalate separator free ne

lemma fields_of_not_mem {separator : Char} {text : List Char} (free : separator ∉ text) :
    fields separator text = [text] := by
  rw [fields_eq_splitOn, List.splitOn_eq_singleton free]

lemma fields_append {separator : Char} {piece : List Char} (free : separator ∉ piece)
    (rest : List Char) :
    fields separator (piece ++ separator :: rest) = piece :: fields separator rest := by
  rw [fields_eq_splitOn, fields_eq_splitOn, List.splitOn_append_cons_self_of_not_mem free]

/-! ### The first separator -/

lemma splitFirst?_append {separator : Char} {front : List Char} (free : separator ∉ front)
    (rest : List Char) :
    splitFirst? separator (front ++ separator :: rest) = some (front, rest) := by
  have run := forall_bne_of_not_mem free
  have stops : ∀ c ∈ (separator :: rest).head?, (c != separator) = false :=
    forall_head?_cons (by simp) rest
  rw [splitFirst?, dropWhile_run run stops, takeWhile_run run stops]

lemma splitFirst?_of_not_mem {separator : Char} {text : List Char} (free : separator ∉ text) :
    splitFirst? separator text = none := by
  rw [splitFirst?, List.dropWhile_eq_nil_iff.mpr (forall_bne_of_not_mem free)]

end ParamPanel.Text
