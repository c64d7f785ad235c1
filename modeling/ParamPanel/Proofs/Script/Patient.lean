import ParamPanel.Proofs.Script.Visit

/-!
# Patient scans

A scan gives up at the first line start behind which no semicolon is left. A patient scan skips that
line and tries every line start below it. The two find the same in every range, since nothing below
such a line start can be read.
-/

namespace ParamPanel.Text.Cursor

lemma rest_skipLine_suffix (cursor : Cursor) : cursor.skipLine.rest <:+ cursor.rest := by
  rw [skipLine, rest_advance, rest_dropWhile]
  exact (List.tail_suffix _).trans (List.dropWhile_suffix _)

end ParamPanel.Text.Cursor

namespace ParamPanel.Script

open Text

/-- Visits every line start from the cursor on that is not part of an assignment. -/
def patientScan (cursor : Cursor) : List Assignment :=
  if atEnd : cursor.isAtEnd = true then []
  else
    have skips := cursor.length_rest_skipLine_lt (by simpa using atEnd)
    if cursor.isAtLineStart then
      match read : readAssignment cursor with
      | .assigned assignment behind =>
        have := length_rest_of_readAssignment read
        assignment :: patientScan behind
      | .unterminated => patientScan cursor.skipLine
      | .absent => patientScan cursor.skipLine
    else patientScan cursor.skipLine
termination_by cursor.rest.length

/-- The assignments of a span of a text as a patient scan finds them. -/
def patientAssignments (text : List Char) (span : Span) : List Assignment :=
  match spanCursor? text span with
  | none => []
  | some cursor => patientScan cursor

/-- What comes of reading an assignment at a place of a text. -/
def attemptAt (place : List Char × List Char) : Attempt :=
  readAssignment (.between place.1.reverse place.2)

/-- An assignment takes a semicolon to read. -/
lemma statementEnd_mem_of_assigned {cursor next : Cursor} {record : Assignment}
    (read : readAssignment cursor = .assigned record next) : statementEnd ∈ cursor.rest := by
  obtain ⟨statement, tail, whole⟩ := exists_statement read
  rw [whole]
  exact List.mem_append_left tail statement.statementEnd_mem_text

/-- However patient a scan is, without a semicolon it finds nothing. -/
lemma patientScan_eq_nil {cursor : Cursor} (free : statementEnd ∉ cursor.rest) :
    patientScan cursor = [] := by
  have skipped (cursor : Cursor) (free : statementEnd ∉ cursor.rest) :
      statementEnd ∉ cursor.skipLine.rest := mt cursor.rest_skipLine_suffix.mem free
  fun_induction patientScan cursor with
  | case1 cursor atEnd => rfl
  | case2 cursor inside skips start record next read shorter ih =>
    exact absurd (statementEnd_mem_of_assigned read) free
  | case3 cursor inside skips start read ih => exact ih (skipped cursor free)
  | case4 cursor inside skips start read ih => exact ih (skipped cursor free)
  | case5 cursor inside skips start ih => exact ih (skipped cursor free)

/-- From any cursor on, a scan finds what a patient scan finds. -/
theorem filterMap_scan_eq (cursor : Cursor) :
    (scan cursor).filterMap Finding.assignment? = patientScan cursor := by
  fun_induction patientScan cursor with
  | case1 cursor atEnd =>
    rw [scan_of_isAtEnd atEnd]
    rfl
  | case2 cursor inside skips start record next read shorter ih =>
    rw [scan_of_assigned start read, ← ih]
    rfl
  | case3 cursor inside skips start read ih =>
    -- Here the scan stops, and below there is no semicolon that the patient scan could meet.
    have free := statementEnd_not_mem_of_unterminated read
    rw [scan_of_unterminated start read, patientScan_eq_nil (mt cursor.rest_skipLine_suffix.mem free)]
    rfl
  | case4 cursor inside skips start read ih => rw [scan_skipLine fun _ => read, ih]
  | case5 cursor inside skips start ih => rw [scan_skipLine fun here => absurd here start, ih]

/-- The line starts of a text come from front to back: each leaves the text of the later ones. -/
lemma pairwise_lineStarts (front text : List Char) :
    (lineStarts front text).Pairwise fun place later => later.2 <:+ place.2 := by
  induction text generalizing front with
  | nil => exact .nil
  | cons c text ih =>
    by_cases here : EndsLine front
    · rw [lineStarts_of_endsLine here]
      refine .cons ?_ (ih (front ++ [c]))
      intro later mem
      obtain ⟨-, -, passed, -, rfl⟩ := mem_lineStarts_iff.mp mem
      exact (List.suffix_append passed later.2).trans (List.suffix_cons c _)
    · rw [lineStarts_of_not_endsLine here]
      exact ih (front ++ [c])

/-- Giving up loses nothing: in every range a scan finds what a patient scan finds. For wherever an
assignment runs out of text before its semicolon, none can be read at a later line start of the range. -/
theorem assignments_eq_patientAssignments (text : List Char) (span : Span) :
    assignments text span = patientAssignments text span ∧
      ∀ cursor ∈ spanCursor? text span,
        (lineStarts cursor.before.reverse cursor.rest).Pairwise fun place later =>
          attemptAt place = .unterminated →
            ∀ record next, attemptAt later ≠ .assigned record next := by
  constructor
  · rw [assignments, findings, patientAssignments]
    cases spanCursor? text span with
    | none => rfl
    | some cursor => exact filterMap_scan_eq cursor
  · intro cursor _
    apply (pairwise_lineStarts _ _).imp
    intro place later behind unterminated record next read
    exact statementEnd_not_mem_of_unterminated unterminated
      (behind.mem (statementEnd_mem_of_assigned read))

-- The scan stops at the second line, which has a semicolon above it and none below.
example :
    findings "a = 1;\nb = 2\nc = 3\n".toList ⟨0, 19⟩ =
      [.assignment ⟨['a'], ['1'], none, ⟨0, 6⟩, 0⟩, .stopped 1] := by
  decide +kernel

end ParamPanel.Script
