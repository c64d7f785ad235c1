import ParamPanel.Proofs.Script.Block
import ParamPanel.Proofs.Script.Grammar

/-!
# Visiting line starts

The assignments of a part of a text are what a visit of its line starts records, from front to back,
where each record lets the visit go on at the first line start behind it. A scan leaves out the line
starts behind one at which no semicolon is left, and these have nothing to record.
-/

namespace ParamPanel.Script

open Text

/-- Whether a line starts behind a text. -/
def startsLine (front : List Char) : Bool := front.getLast?.all (· == '\n')

lemma startsLine_iff {front : List Char} : startsLine front = true ↔ EndsLine front := by
  rw [startsLine, EndsLine]
  cases front.getLast? <;> simp

/-- The places of a text behind `front` where a line starts, from front to back: what stands before
the place and what stands from there on. -/
def lineStarts (front : List Char) : List Char → List (List Char × List Char)
  | [] => []
  | c :: rest =>
    if startsLine front then (front, c :: rest) :: lineStarts (front ++ [c]) rest
    else lineStarts (front ++ [c]) rest

/-- A visit of places from front to back, and what it records. Places up to the end of what is
recorded are left out, and so are those where there is no statement. -/
inductive Visits : List (List Char × List Char) → List Assignment → Prop
  | done : Visits [] []
  | recorded {front rest : List Char} {places : List (List Char × List Char)} {record : Assignment}
      {found : List Assignment} (reads : ReadsAt front rest record)
      (later : Visits (places.dropWhile fun place => byteLength place.1 ≤ record.span.stop) found) :
      Visits ((front, rest) :: places) (record :: found)
  | passed {front rest : List Char} {places : List (List Char × List Char)}
      {found : List Assignment}
      (unread : ∀ (statement : Statement) (tail : List Char), rest ≠ statement.text ++ tail)
      (later : Visits places found) : Visits ((front, rest) :: places) found

lemma lineStarts_of_endsLine {front : List Char} (h : EndsLine front) (c : Char) (rest : List Char) :
    lineStarts front (c :: rest) = (front, c :: rest) :: lineStarts (front ++ [c]) rest := by
  rw [lineStarts, if_pos (startsLine_iff.mpr h)]

lemma lineStarts_of_not_endsLine {front : List Char} (h : ¬ EndsLine front) (c : Char)
    (rest : List Char) : lineStarts front (c :: rest) = lineStarts (front ++ [c]) rest := by
  rw [lineStarts, if_neg (mt startsLine_iff.mp h)]

/-- No line starts between the first character of a line and its end. -/
lemma lineStarts_inside (front : List Char) {c : Char} {line : List Char} (free : '\n' ∉ c :: line)
    (rest : List Char) :
    lineStarts (front ++ [c]) (line ++ rest) = lineStarts (front ++ c :: line) rest := by
  induction line generalizing front c with
  | nil => rfl
  | cons d line ih =>
    rw [List.mem_cons, not_or] at free
    obtain ⟨first, later⟩ := free
    have inside := not_endsLine_append front (List.cons_ne_nil c [])
      (by rwa [List.mem_singleton])
    rw [List.cons_append, lineStarts_of_not_endsLine inside, ih (front ++ [c]) later,
      List.append_assoc, List.singleton_append]

lemma mem_lineStarts_cons {front rest : List Char} {c : Char} {place : List Char × List Char} :
    place ∈ lineStarts front (c :: rest) ↔
      EndsLine front ∧ place = (front, c :: rest) ∨ place ∈ lineStarts (front ++ [c]) rest := by
  by_cases here : EndsLine front
  · simp [lineStarts_of_endsLine here, here]
  · simp [lineStarts_of_not_endsLine here, here]

/-- The places are the ways to part the text behind the front where a line starts and is not empty. -/
lemma mem_lineStarts_iff {front text : List Char} {place : List Char × List Char} :
    place ∈ lineStarts front text ↔ EndsLine place.1 ∧ place.2 ≠ [] ∧
      ∃ passed, place.1 = front ++ passed ∧ passed ++ place.2 = text := by
  induction text generalizing front with
  | nil =>
    simp only [lineStarts, List.not_mem_nil, List.append_eq_nil_iff, false_iff]
    rintro ⟨-, some_left, _, -, -, none_left⟩
    exact some_left none_left
  | cons c text ih =>
    rw [mem_lineStarts_cons, ih]
    constructor
    · rintro (⟨here, rfl⟩ | ⟨here, left, passed, before, rfl⟩)
      · exact ⟨here, List.cons_ne_nil _ _, [], by simp⟩
      · exact ⟨here, left, c :: passed, by simp [before]⟩
    · rintro ⟨here, left, passed, before, whole⟩
      cases passed with
      | nil =>
        rw [List.append_nil] at before
        exact .inl ⟨before ▸ here, Prod.ext before whole⟩
      | cons d passed =>
        obtain ⟨rfl, rfl⟩ := List.cons.inj whole
        exact .inr ⟨here, left, passed, by simp [before]⟩

/-- Of the line starts of a text, those behind a place in the middle of a line are those of the text
from there on. -/
lemma dropWhile_lineStarts {front inside : List Char} (h : ¬ EndsLine (front ++ inside))
    (after : List Char) :
    ((lineStarts front (inside ++ after)).dropWhile fun place =>
      byteLength place.1 ≤ byteLength (front ++ inside)) = lineStarts (front ++ inside) after := by
  induction inside generalizing front with
  | nil =>
    rw [List.append_nil] at h
    rw [List.append_nil, List.nil_append]
    cases after with
    | nil => rfl
    | cons c after =>
      rw [lineStarts_of_not_endsLine h]
      cases places : lineStarts (front ++ [c]) after with
      | nil => rfl
      | cons place later =>
        obtain ⟨-, -, inside, before, -⟩ := mem_lineStarts_iff.mp (places ▸ List.mem_cons_self)
        have wide := Char.utf8Size_pos c
        have behind : ¬ byteLength place.1 ≤ byteLength front := by
          rw [before]
          simp
          omega
        rw [List.dropWhile_cons_of_neg (by simpa using behind)]
  | cons c inside ih =>
    have step : front ++ c :: inside = front ++ [c] ++ inside := by simp
    rw [step] at h ⊢
    rw [List.cons_append, ← ih h]
    by_cases here : EndsLine front
    · rw [lineStarts_of_endsLine here, List.dropWhile_cons_of_pos (by simp)]
    · rw [lineStarts_of_not_endsLine here]

/-- Skipping a line leads from any place in it to where the next line starts. -/
lemma exists_skipLine (front : List Char) (c : Char) (rest : List Char) :
    ∃ line after,
      (Cursor.between front.reverse (c :: rest)).skipLine =
        .between (front ++ line).reverse after ∧
      lineStarts (front ++ [c]) rest = lineStarts (front ++ line) after := by
  by_cases closed : '\n' ∈ c :: rest
  · obtain ⟨line, after, whole, free⟩ := List.eq_append_cons_of_mem closed
    refine ⟨line ++ ['\n'], after, ?_, ?_⟩
    · rw [whole, Cursor.skipLine_between free, ← List.reverse_append]
    · cases line with
      | nil =>
        cases whole
        rfl
      | cons d line =>
        obtain ⟨rfl, rfl⟩ := List.cons.inj whole
        have inside := not_endsLine_append front (List.cons_ne_nil c line) free
        change lineStarts (front ++ [c]) (line ++ '\n' :: after) = _
        rw [lineStarts_inside front free, lineStarts_of_not_endsLine inside, List.append_assoc]
  · refine ⟨c :: rest, [], ?_, ?_⟩
    · rw [Cursor.skipLine_between_open closed, ← List.reverse_append]
    · rw [← lineStarts_inside front closed, List.append_nil]

lemma visits_nil {places : List (List Char × List Char)}
    (open_ended : ∀ place ∈ places, statementEnd ∉ place.2) : Visits places [] := by
  induction places with
  | nil => exact .done
  | cons place places ih =>
    rw [List.forall_mem_cons] at open_ended
    refine .passed ?_ (ih open_ended.2)
    intro statement tail whole
    apply open_ended.1
    rw [whole]
    exact List.mem_append_left tail statement.statementEnd_mem_text

/-- What a visit records is settled by the places. -/
theorem Visits.unique {places : List (List Char × List Char)} {found other : List Assignment}
    (h : Visits places found) (h' : Visits places other) : found = other := by
  induction h generalizing other with
  | done =>
    cases h'
    rfl
  | recorded reads _ ih =>
    cases h' with
    | recorded again later =>
      cases reads.unique again
      rw [ih later]
    | passed unread later =>
      cases reads
      exact absurd rfl (unread _ _)
  | passed unread _ ih =>
    cases h' with
    | recorded reads later =>
      cases reads
      exact absurd rfl (unread _ _)
    | passed _ later => exact ih later

/-- From any place on, a scan finds what a visit of the line starts records. -/
theorem visits_scan (cursor : Cursor) {front rest : List Char}
    (here : cursor = .between front.reverse rest) :
    Visits (lineStarts front rest) ((scan cursor).filterMap Finding.assignment?) := by
  fun_induction scan cursor generalizing front rest with
  | case1 cursor atEnd =>
    subst here
    have empty : rest = [] := List.isEmpty_iff.mp atEnd
    subst empty
    exact .done
  | case2 cursor inside skips start record next read shorter ih =>
    subst here
    rw [Cursor.isAtLineStart_between_iff, List.reverse_reverse] at start
    have reads := exists_readAssignment_iff.mp ⟨next, read⟩
    obtain ⟨passed, after, whole, not_ends, stop_eq, read'⟩ := reads.exists_next
    rw [read] at read'
    cases read'
    have later := ih rfl
    rw [← dropWhile_lineStarts not_ends, ← whole, ← stop_eq] at later
    cases rest with
    | nil => exact absurd rfl inside
    | cons c rest =>
      have passes : byteLength front ≤ record.span.stop := by
        rw [stop_eq, byteLength_append]
        omega
      rw [lineStarts_of_endsLine start, List.dropWhile_cons_of_pos (by simpa using passes)] at later
      rw [lineStarts_of_endsLine start]
      exact .recorded reads later
  | case3 cursor inside skips start read =>
    subst here
    have open_ended := statementEnd_not_mem_of_unterminated read
    apply visits_nil
    intro place mem
    obtain ⟨-, -, passed, -, rfl⟩ := mem_lineStarts_iff.mp mem
    rw [Cursor.rest_between, List.mem_append, not_or] at open_ended
    exact open_ended.2
  | case4 cursor inside skips start read ih =>
    subst here
    rw [Cursor.isAtLineStart_between_iff, List.reverse_reverse] at start
    cases rest with
    | nil => exact absurd rfl inside
    | cons c rest =>
      obtain ⟨line, after, skip, later⟩ := exists_skipLine front c rest
      rw [lineStarts_of_endsLine start, later]
      refine .passed ?_ (ih skip)
      intro statement tail whole
      obtain ⟨_, reads⟩ := exists_readsAt_iff.mpr ⟨statement, tail, whole⟩
      obtain ⟨_, assigned⟩ := exists_readAssignment_iff.mpr reads
      rw [read] at assigned
      cases assigned
  | case5 cursor inside skips start ih =>
    subst here
    rw [Cursor.isAtLineStart_between_iff, List.reverse_reverse] at start
    cases rest with
    | nil => exact absurd rfl inside
    | cons c rest =>
      obtain ⟨line, after, skip, later⟩ := exists_skipLine front c rest
      rw [lineStarts_of_not_endsLine start, later]
      exact ih skip

/-- A place is read as an assignment exactly when a statement stands there, which then has one
decomposition only, and what is recorded is told by its parts. The assignments of a part of a text
are those that a visit of the line starts of the part records. -/
theorem assignments_eq_iff_visits (before inside after : List Char) :
    (∀ front rest : List Char,
      ((∃ record next, readAssignment (.between front.reverse rest) = .assigned record next) ↔
        ∃ (statement : Statement) (tail : List Char), rest = statement.text ++ tail) ∧
      ∀ record, (∃ next, readAssignment (.between front.reverse rest) = .assigned record next) ↔
        ReadsAt front rest record) ∧
    (∀ (statement other : Statement) (tail more : List Char),
      statement.text ++ tail = other.text ++ more → statement = other ∧ tail = more) ∧
    ∀ found, found = assignments (before ++ inside ++ after)
        ⟨byteLength before, byteLength before + byteLength inside⟩ ↔
      Visits (lineStarts before inside) found := by
  refine ⟨fun front rest => ⟨?_, fun record => exists_readAssignment_iff⟩,
    fun _ _ _ _ => Statement.unique, fun found => ?_⟩
  · simp only [exists_readAssignment_iff]
    exact exists_readsAt_iff
  have visited : Visits (lineStarts before inside) (assignments (before ++ inside ++ after)
      ⟨byteLength before, byteLength before + byteLength inside⟩) := by
    rw [assignments, findings, spanCursor?_append]
    exact visits_scan _ rfl
  constructor
  · rintro rfl
    exact visited
  · exact fun visits => visits.unique visited

end ParamPanel.Script
