import Mathlib.Data.List.Basic
import ParamPanel.Proofs.Script.Block

/-!
# Parameters line by line

A section can be read from its first line to its last. What is read further down depends on the text
above only through the description that the nearest line gives.
-/

namespace ParamPanel.Script

open Text

/-- The description that the last line of a text gives to what stands below the text. -/
def descriptionBelow (front : List Char) : Option String :=
  (rawLines front).getLast?.bind fun raw => description? (lineContent raw)

lemma descriptionAbove_eq_below {front : List Char} (hf : EndsLine front) (rest : List Char) :
    descriptionAbove (rawLines (front ++ rest)) (front.count '\n') = descriptionBelow front := by
  rw [rawLines_append hf, ← length_rawLines hf, descriptionBelow]
  cases h : (rawLines front).reverse with
  | nil =>
    rw [List.reverse_eq_nil_iff.mp h]
    rfl
  | cons raw above =>
    rw [← List.reverse_reverse (rawLines front), h, List.reverse_cons, List.append_assoc]
    simp [descriptionAbove]

lemma descriptionBelow_line {front line : List Char} (hf : EndsLine front) (free : '\n' ∉ line) :
    descriptionBelow (front ++ (line ++ ['\n'])) = description? line := by
  have last : rawLines (line ++ ['\n']) = [line ++ ['\n']] := rawLines_line free []
  rw [descriptionBelow, rawLines_append hf, last, List.getLast?_concat, Option.bind_some,
    lineContent_line free]

/-- A line describes what stands below it by the comment that it is, if that is not blank. -/
lemma description?_eq_some_iff {line : List Char} {description : String} :
    description? line = some description ↔ ∃ comment, trim line = lineComment ++ comment ∧
      trim comment ≠ [] ∧ String.ofList (trim comment) = description := by
  simp only [description?, Option.bind_eq_bind, Option.bind_eq_some_iff,
    List.isPrefixOf?_eq_some_iff_append_eq]
  constructor
  · rintro ⟨comment, marked, h⟩
    refine ⟨comment, marked.symm, ?_⟩
    split at h
    · cases h
    · rename_i filled
      exact ⟨by simpa using filled, by simpa using h⟩
  · rintro ⟨comment, marked, filled, rfl⟩
    refine ⟨comment, marked.symm, ?_⟩
    simp [filled]

/-- Only a line that starts with the mark of a comment describes what stands below it. -/
lemma description?_eq_none {line : List Char} (trimmed : ∀ c ∈ line.head?, isBlank c = false)
    (other : ¬ lineComment <+: line) : description? line = none := by
  rw [Option.eq_none_iff_forall_ne_some]
  intro description described
  obtain ⟨comment, marked, -⟩ := description?_eq_some_iff.mp described
  refine other (List.IsPrefix.trans ⟨comment, marked.symm⟩ ?_)
  rw [trim, trimStart_eq_self trimmed]
  exact trimEnd_prefix line

/-- The parameters of the assignments that a scan finds in a text that stands below `front`. -/
def parametersBelow (front code : List Char) (group : Option String) : List Parameter :=
  ((scan (.ofText code)).filterMap Finding.assignment?).map fun assignment =>
    (assignment.behind front).parameter (lines (front ++ code)).toArray group

lemma codeParameters_eq_below (label : Option (List Char)) (code : List Char) :
    codeParameters label code = parametersBelow [] code (label.map String.ofList) := by
  rw [codeParameters, Section.parameters, assignments_whole]
  rfl

lemma parametersBelow_nil (front : List Char) (group : Option String) :
    parametersBelow front [] group = [] := by
  rw [parametersBelow, scan_of_isAtEnd rfl]
  rfl

lemma behind_behind (front line : List Char) (assignment : Assignment) :
    (assignment.behind line).behind front = assignment.behind (front ++ line) := by
  simp only [Assignment.behind, byteLength_append, List.count_append, Nat.add_assoc,
    Nat.add_comm (byteLength line), Nat.add_comm (line.count '\n')]

/-- What a scan finds on one line is read first, and then what it finds below. -/
theorem parametersBelow_line {line rest : List Char} {found : List Finding}
    (first : scan (.ofText (line ++ '\n' :: rest)) =
      found ++ (scan (.ofText rest)).map (Finding.behind (line ++ ['\n'])))
    (front : List Char) (group : Option String) :
    parametersBelow front (line ++ '\n' :: rest) group =
      ((found.filterMap Finding.assignment?).map fun assignment =>
        (assignment.behind front).parameter (lines (front ++ (line ++ '\n' :: rest))).toArray
          group) ++
      parametersBelow (front ++ (line ++ ['\n'])) rest group := by
  have whole : front ++ (line ++ ['\n']) ++ rest = front ++ (line ++ '\n' :: rest) := by simp
  rw [parametersBelow, first, List.filterMap_append, filterMap_behind, List.map_append,
    List.map_map, parametersBelow, whole]
  congr 2
  funext assignment
  rw [Function.comp_apply, behind_behind]

lemma parametersBelow_nameless {line : List Char} (free : '\n' ∉ line)
    (nameless : ∀ c ∈ line.head?, isNameChar c = false) (front rest : List Char)
    (group : Option String) :
    parametersBelow front (line ++ '\n' :: rest) group =
      parametersBelow (front ++ (line ++ ['\n'])) rest group := by
  have skipped := scan_nameless_line free nameless rest
  exact parametersBelow_line (by rw [skipped, List.nil_append]) front group

end ParamPanel.Script
