import ParamPanel.Proofs.Parameter.LastOfEach
import ParamPanel.Proofs.Script.Block
import ParamPanel.Proofs.Script.Declarations
import ParamPanel.Proofs.Script.Extraction

/-!
# Scripts put together at a heading

A heading shuts off what stands above it. The parameters of two scripts, the second of which starts
with a heading, are those of the first and those of the second put into one table.
-/

namespace ParamPanel.Script

open Text

/-- The parameters that the blocks among raw lines make. -/
def blockParameters (raws : List (List Char)) : List Parameter :=
  (cut raws).2.flatMap fun block => codeParameters (some block.label) block.code

/-- A text in normal form declares all that stands in it, unless a line of it opens a definition. -/
lemma declared_eq_self {keywords : Keywords} {text : List Char} (normal : '\r' ∉ text)
    (plain : hasDefinition keywords text = false) :
    declared keywords (String.ofList text) = text := by
  rw [declared, String.toList_ofList, normalize_eq_self normal, declarations_eq_self plain]

/-- What two texts declare together is declared by the first or by the second. -/
lemma declaredParameters_append {keywords : Keywords} {front text : List Char} (hf : EndsLine front)
    (plain : hasDefinition keywords front = false) {raw label : List Char}
    (first : (rawLines text).head? = some raw)
    (heading : headingLabel? (lineContent raw) = some label) :
    declaredParameters (declarations keywords (front ++ text)) =
      blockParameters (rawLines front) ++ declaredParameters (declarations keywords text) := by
  obtain ⟨raws, h⟩ : ∃ raws, declaredLines keywords text = raw :: raws := by
    obtain ⟨rest, h⟩ := List.head?_eq_some_iff.mp first
    refine ⟨rest.takeWhile (!endsDeclarations keywords ·), ?_⟩
    have kept : (!endsDeclarations keywords raw) = true := by
      obtain ⟨c, start, nameless⟩ := head?_of_headingLabel? heading
      have closed : opensDefinition keywords (lineContent raw) = false := by
        apply opensDefinition_of_nameless
        rintro d h
        rw [start] at h
        cases h
        exact nameless
      rw [endsDeclarations, closed]
      rfl
    rw [declaredLines, h]
    exact List.takeWhile_cons_of_pos kept
  have lead : (cut (declaredLines keywords text)).1 = [] := by
    rw [h, cut_heading heading]
  have blocks : (cut (declaredLines keywords text)).2 ≠ [] := by
    rw [h, cut_heading heading]
    simp
  rw [declaredParameters_eq, declaredParameters_eq, rawLines_declarations, rawLines_declarations,
    declaredLines_append plain fun _ => hf, cut_append _ lead, if_neg blocks,
    if_neg (by simp [blocks]), List.flatMap_append]
  rfl

/-- A text whose first line is a heading does not start with a line break. -/
lemma head?_ne_of_heading {text : List Char} {raw label : List Char}
    (first : (rawLines (normalize text)).head? = some raw)
    (heading : headingLabel? (lineContent raw) = some label) : text.head? ≠ some '\n' := by
  intro h
  obtain ⟨rest, start⟩ := List.head?_eq_some_iff.mp (head?_normalize h)
  rw [start, rawLines_cons, if_pos rfl] at first
  cases first
  cases heading

/-- At a heading, extraction is put together from that of the two parts: nothing that stands above
the heading takes away or changes a parameter below it. -/
theorem parameters_append_heading (keywords : Keywords) (above below : String) {line : Line}
    {label : List Char} (closed : ∀ c ∈ above.toList.getLast?, c = '\n' ∨ c = '\r')
    (plain : hasDefinition keywords (normalize above.toList) = false)
    (first : (lines (normalize below.toList)).head? = some line)
    (heading : headingLabel? line.text = some label) :
    parameters keywords (above ++ below) =
        (if headings (normalize above.toList) = [] then parameters keywords below
        else ((Table.empty.insertAll (parameters keywords above)).insertAll
          (parameters keywords below)).toList) ∧
      ∀ parameter ∈ parameters keywords below,
        parameter ∈ parameters keywords (above ++ below) := by
  obtain ⟨raw, first_raw, content⟩ : ∃ raw, (rawLines (normalize below.toList)).head? = some raw ∧
      lineContent raw = line.text := by
    have h := congrArg List.head? (map_text_lines (normalize below.toList))
    rw [List.head?_map, List.head?_map, first] at h
    exact Option.map_eq_some_iff.mp h.symm
  rw [← content] at heading
  have whole : declaredParameters (declared keywords (above ++ below)) =
      blockParameters (rawLines (normalize above.toList)) ++
        declaredParameters (declared keywords below) := by
    rw [declared, declared, String.toList_append,
      normalize_append _ (head?_ne_of_heading first_raw heading),
      declaredParameters_append (endsLine_normalize closed) plain first_raw heading]
  constructor
  · rw [parameters_eq, whole]
    split
    · rename_i no_heading
      rw [blockParameters, headings_eq_nil_iff.mp no_heading, List.flatMap_nil, List.nil_append,
        parameters_eq]
    · rename_i some_heading
      rw [headings_eq_nil_iff] at some_heading
      have alone : declaredParameters (declared keywords above) =
          blockParameters (rawLines (normalize above.toList)) := by
        rw [declared, declarations_eq_self plain, declaredParameters_eq, if_neg some_heading]
        rfl
      rw [← Table.insertAll_append]
      change _ = (Table.ofList _).toList
      rw [Table.toList_ofList, parameters_eq, parameters_eq, lastOfEach_append_lastOfEach, alone]
  · intro parameter mem
    rw [parameters_eq, mem_lastOfEach_iff] at mem
    rw [parameters_eq, mem_lastOfEach_iff, whole, lastNamed?_append, mem]
    rfl

/-- An assignment that is left open above a heading, in a script whose names come up again below. -/
theorem parameters_below_open_assignment :
    parameters .standard ("/* [A] */\nx = 1;\ny = \"2\n" ++ "/* [B] */\r\ny = 3;\nx = 4;") =
      ((Table.empty.insertAll (parameters .standard "/* [A] */\nx = 1;\ny = \"2\n")).insertAll
        (parameters .standard "/* [B] */\r\ny = 3;\nx = 4;")).toList := by
  have first : (lines (normalize "/* [B] */\r\ny = 3;\nx = 4;".toList)).head? =
      some ⟨⟨0, 9⟩, "/* [B] */".toList⟩ := by decide
  have heading : headingLabel? "/* [B] */".toList = some ['B'] := by decide
  have closed : ∀ c ∈ "/* [A] */\nx = 1;\ny = \"2\n".toList.getLast?, c = '\n' ∨ c = '\r' := by
    have last : "/* [A] */\nx = 1;\ny = \"2\n".toList.getLast? = some '\n' := by decide
    rw [last]
    simp
  have parts := parameters_append_heading .standard "/* [A] */\nx = 1;\ny = \"2\n"
    "/* [B] */\r\ny = 3;\nx = 4;" closed (by decide) first heading
  rw [if_neg (by decide)] at parts
  exact parts.1

end ParamPanel.Script
