import ParamPanel.Proofs.Script.Scan

/-!
# The grammar of assignments

An assignment is a statement, which goes up to a semicolon, and what belongs to it behind that on the
same line. Reading at a place succeeds exactly where a statement stands, and what it records is told
by the parts of the statement and of what stands behind it.
-/

namespace ParamPanel.Text

/-- A text is parted in one way only into a run and a rest that does not go on with it. -/
lemma run_unique {p : Char → Bool} {run other rest more : List Char}
    (all : ∀ c ∈ run, p c = true) (stops : ∀ c ∈ rest.head?, p c = false)
    (all' : ∀ c ∈ other, p c = true) (stops' : ∀ c ∈ more.head?, p c = false)
    (same : run ++ rest = other ++ more) : run = other ∧ rest = more := by
  constructor
  · rw [← takeWhile_run all stops, same, takeWhile_run all' stops']
  · rw [← dropWhile_run all stops, same, dropWhile_run all' stops']

lemma not_mem_of_not_mem_dropWhile {p : Char → Bool} {text : List Char} {c : Char}
    (other : p c = false) (free : c ∉ text.dropWhile p) : c ∉ text := by
  rw [← List.takeWhile_append_dropWhile (p := p) (l := text), List.mem_append, not_or]
  refine ⟨fun mem => ?_, free⟩
  have run := List.mem_takeWhile_imp mem
  rw [other] at run
  cases run

lemma not_mem_of_head?_dropWhile_ne {c : Char} {text : List Char}
    (h : (text.dropWhile (· != c)).head? ≠ some c) : c ∉ text := by
  intro mem
  obtain ⟨front, rest, rfl, free⟩ := List.eq_append_cons_of_mem mem
  rw [dropWhile_run (forall_bne_of_not_mem free) (forall_head?_cons (by simp) rest)] at h
  exact h rfl

lemma Cursor.head?_rest_of_eat?_eq_none {cursor : Cursor} {c : Char}
    (refused : cursor.eat? c = none) : cursor.rest.head? ≠ some c := by
  intro first
  have next : cursor.peek? = some c := first
  rw [Cursor.eat?, if_pos next] at refused
  cases refused

lemma Cursor.rest_of_eat? {cursor next : Cursor} {c : Char} (eaten : cursor.eat? c = some next) :
    cursor.rest = c :: next.rest := by
  unfold Cursor.eat? at eaten
  split at eaten
  · rename_i first
    cases eaten
    obtain ⟨rest, h⟩ := List.head?_eq_some_iff.mp first
    rw [Cursor.rest_advance, h, List.tail_cons]
  · cases eaten

end ParamPanel.Text

namespace ParamPanel.Script

open Text

/-- The parts of an assignment up to its semicolon: a name, white space, an equals sign, and a body
that starts with no other equals sign and is not all white space. -/
structure Statement where
  name : List Char
  gap : List Char
  body : List Char
  name_ne_nil : name ≠ []
  isNameChar_name : ∀ c ∈ name, isNameChar c = true
  isBlank_gap : ∀ c ∈ gap, isBlank c = true
  single : body.head? ≠ some assignmentSign
  closed : statementEnd ∉ body
  filled : ¬ ∀ c ∈ body, isBlank c = true

namespace Statement

def text (statement : Statement) : List Char :=
  statement.name ++ (statement.gap ++ assignmentSign :: (statement.body ++ [statementEnd]))

lemma text_append (statement : Statement) (tail : List Char) :
    statement.text ++ tail = statement.name ++
      (statement.gap ++ assignmentSign :: (statement.body ++ statementEnd :: tail)) := by
  simp [text]

lemma statementEnd_mem_text (statement : Statement) : statementEnd ∈ statement.text := by
  simp [text]

lemma head?_behind_name (statement : Statement) (rest : List Char) :
    ∀ c ∈ (statement.gap ++ assignmentSign :: rest).head?, isNameChar c = false :=
  isNameChar_head?_gap statement.isBlank_gap rest

/-- A text has at most one statement at its start. -/
theorem unique {statement other : Statement} {tail more : List Char}
    (same : statement.text ++ tail = other.text ++ more) : statement = other ∧ tail = more := by
  rw [text_append, text_append] at same
  obtain ⟨name, same⟩ := run_unique statement.isNameChar_name (statement.head?_behind_name _)
    other.isNameChar_name (other.head?_behind_name _) same
  obtain ⟨gap, same⟩ := run_unique statement.isBlank_gap (forall_head?_cons rfl _)
    other.isBlank_gap (forall_head?_cons rfl _) same
  obtain ⟨body, ends⟩ := run_unique (forall_bne_of_not_mem statement.closed)
    (forall_head?_cons rfl _) (forall_bne_of_not_mem other.closed) (forall_head?_cons rfl _)
    (List.cons.inj same).2
  cases statement
  cases other
  cases name
  cases gap
  cases body
  exact ⟨rfl, (List.cons.inj ends).2⟩

end Statement

/-- What belongs to a statement behind its semicolon: blanks that end no line, and the comment behind
them, which runs to the end of its line, if there is one. -/
inductive Trailer (after : List Char) : Option (List Char) → List Char → Prop
  | comment {blanks comment : List Char} (inline : ∀ c ∈ blanks, isInlineBlank c = true)
      (marked : lineComment <+: comment) (single : '\n' ∉ comment)
      (ends : ∀ c ∈ after.head?, c = '\n') : Trailer after (some comment) (blanks ++ comment)
  | none {blanks : List Char} (inline : ∀ c ∈ blanks, isInlineBlank c = true)
      (ends : ∀ c ∈ after.head?, isInlineBlank c = false) (unmarked : ¬ lineComment <+: after) :
      Trailer after none blanks

section Trailer

variable {after passed : List Char} {comment : Option (List Char)}

lemma Trailer.not_mem (h : Trailer after comment passed) : '\n' ∉ passed := by
  have no_break {blanks : List Char} (inline : ∀ c ∈ blanks, isInlineBlank c = true) :
      '\n' ∉ blanks := fun mem => absurd (inline _ mem) (by decide)
  cases h with
  | comment inline _ single _ =>
    rw [List.mem_append, not_or]
    exact ⟨no_break inline, single⟩
  | none inline _ _ => exact no_break inline

/-- Reading a comment takes what belongs to the statement, and no more. -/
lemma Trailer.readComment_eq (h : Trailer after comment passed) (before : List Char) :
    readComment (.between before (passed ++ after)) =
      (comment, .between (passed.reverse ++ before) after) := by
  cases h with
  | @comment blanks comment inline marked single ends =>
    obtain ⟨words, rfl⟩ := marked
    have begins : ∀ c ∈ (lineComment ++ words ++ after).head?, isInlineBlank c = false :=
      forall_head?_cons rfl _
    have passes := forall_bne_of_not_mem single
    have stops : ∀ c ∈ after.head?, (c != '\n') = false := by
      intro c first
      rw [ends c first]
      rfl
    have starts : (Cursor.between (blanks.reverse ++ before)
        (lineComment ++ words ++ after)).startsWith lineComment = true := by
      rw [Cursor.startsWith, Cursor.rest_between, List.isPrefixOf_iff_prefix, List.append_assoc]
      exact List.prefix_append _ _
    rw [List.append_assoc, readComment, Cursor.dropWhile_between_append before inline begins,
      if_pos starts, Cursor.takeWhile_between_append _ passes stops,
      Cursor.dropWhile_between_append _ passes stops, ← List.append_assoc _ blanks.reverse,
      ← List.reverse_append]
  | none inline ends unmarked =>
    have begins : (Cursor.between (passed.reverse ++ before) after).startsWith lineComment =
        false := by
      rw [Cursor.startsWith, Cursor.rest_between, ← Bool.not_eq_true, List.isPrefixOf_iff_prefix]
      exact unmarked
    rw [readComment, Cursor.dropWhile_between_append before inline ends, begins,
      if_neg Bool.false_ne_true]

end Trailer

/-- Behind every statement there is one trailer or another, be it empty. -/
lemma exists_trailer (tail : List Char) :
    ∃ comment passed after, passed ++ after = tail ∧ Trailer after comment passed := by
  have inline : ∀ c ∈ tail.takeWhile isInlineBlank, isInlineBlank c = true :=
    fun c mem => List.mem_takeWhile_imp mem
  have whole : tail.takeWhile isInlineBlank ++ tail.dropWhile isInlineBlank = tail :=
    List.takeWhile_append_dropWhile
  by_cases marked : lineComment <+: tail.dropWhile isInlineBlank
  · obtain ⟨words, h⟩ := marked
    have line : words.takeWhile (· != '\n') ++ words.dropWhile (· != '\n') = words :=
      List.takeWhile_append_dropWhile
    have single : '\n' ∉ lineComment ++ words.takeWhile (· != '\n') := by
      rw [List.mem_append, not_or]
      exact ⟨by decide, fun mem => by simpa using List.mem_takeWhile_imp mem⟩
    have ends : ∀ c ∈ (words.dropWhile (· != '\n')).head?, c = '\n' := by
      intro c first
      simpa using head?_dropWhile_eq_false _ _ c first
    refine ⟨_, _, _, ?_, .comment inline (List.prefix_append _ _) single ends⟩
    rw [List.append_assoc, List.append_assoc, line, h, whole]
  · exact ⟨_, _, _, whole, .none inline (head?_dropWhile_eq_false _ _) marked⟩

/-- What is recorded of a text that stands behind `front`, when there is a statement at its start:
the parts of the statement, the comment that belongs to it, and the place of it all. -/
inductive ReadsAt (front : List Char) : List Char → Assignment → Prop
  | statement (statement : Statement) {passed after : List Char} {comment : Option (List Char)}
      (trailer : Trailer after comment passed) :
      ReadsAt front (statement.text ++ (passed ++ after))
        ⟨statement.name, trim statement.body, comment,
          ⟨byteLength front, byteLength (front ++ (statement.text ++ passed))⟩, front.count '\n'⟩

variable {front rest : List Char} {record : Assignment}

/-- Reading takes what the grammar allows, and goes on in the middle of a line. -/
lemma ReadsAt.exists_next (h : ReadsAt front rest record) :
    ∃ passed after, rest = passed ++ after ∧ ¬ EndsLine (front ++ passed) ∧
      record.span.stop = byteLength (front ++ passed) ∧
      readAssignment (.between front.reverse rest) =
        .assigned record (.between (front ++ passed).reverse after) := by
  cases h with
  | @statement statement passed after comment trailer =>
    refine ⟨statement.text ++ passed, after, by simp, ?_, rfl, ?_⟩
    · have line : front ++ (statement.text ++ passed) =
          (front ++ (statement.name ++ (statement.gap ++ assignmentSign :: statement.body))) ++
            statementEnd :: passed := by
        simp [Statement.text]
      rw [line]
      apply not_endsLine_append _ (List.cons_ne_nil _ _)
      rw [List.mem_cons, not_or]
      exact ⟨by decide, trailer.not_mem⟩
    · have filled : trim statement.body ≠ [] := fun blank =>
        statement.filled (trim_eq_nil_iff.mp blank)
      have written := readAssignment_written front.reverse (passed ++ after) statement.name_ne_nil
        statement.isNameChar_name statement.isBlank_gap statement.single statement.closed filled rfl
      have line : statementEnd :: (statement.body.reverse ++ assignmentSign ::
          (statement.gap.reverse ++ (statement.name.reverse ++ front.reverse))) =
          statement.text.reverse ++ front.reverse := by
        simp [Statement.text]
      have place : passed.reverse ++ (statement.text.reverse ++ front.reverse) =
          (front ++ (statement.text ++ passed)).reverse := by
        simp
      rw [line, trailer.readComment_eq, place] at written
      rw [Statement.text_append, written]
      simp only [Cursor.between, Position.ofBefore, byteLength_reverse, List.count_reverse]

/-- What was read was a statement. -/
lemma exists_statement {cursor next : Cursor} (read : readAssignment cursor = .assigned record next) :
    ∃ (statement : Statement) (tail : List Char), cursor.rest = statement.text ++ tail := by
  obtain ⟨sign, stop, named, signed, single, stopped, filled, -, -⟩ :=
    readAssignment_eq_assigned_iff.mp read
  have behind_name := Cursor.rest_of_eat? signed
  have behind_body := Cursor.rest_of_eat? stopped
  simp only [Cursor.rest_dropWhile] at behind_name behind_body
  have body_eq : sign.rest = sign.rest.takeWhile isBlank ++
      ((sign.rest.dropWhile isBlank).takeWhile (· != statementEnd) ++ statementEnd :: stop.rest) := by
    rw [← behind_body, List.takeWhile_append_dropWhile, List.takeWhile_append_dropWhile]
  generalize hb : sign.rest.takeWhile isBlank = blanks at body_eq
  generalize hw : (sign.rest.dropWhile isBlank).takeWhile (· != statementEnd) = words at body_eq
  have one_sign : (blanks ++ words).head? ≠ some assignmentSign := by
    intro first
    apply single
    rw [Cursor.peek?, body_eq, ← List.append_assoc, List.head?_append, first]
    rfl
  have closed : statementEnd ∉ blanks ++ words := by
    rw [List.mem_append, not_or, ← hb, ← hw]
    constructor
    · intro mem
      exact absurd (List.mem_takeWhile_imp mem) (by decide)
    · intro mem
      exact absurd (List.mem_takeWhile_imp mem) (by decide)
  have some_word : ¬ ∀ c ∈ blanks ++ words, isBlank c = true := by
    intro blank
    apply filled
    rw [Cursor.takeWhile, Cursor.rest_dropWhile, hw]
    exact trim_eq_nil fun c mem => blank c (List.mem_append_right blanks mem)
  refine ⟨⟨cursor.takeWhile isNameChar, (cursor.rest.dropWhile isNameChar).takeWhile isBlank,
    blanks ++ words, named, fun c mem => List.mem_takeWhile_imp mem,
    fun c mem => List.mem_takeWhile_imp mem, one_sign, closed, some_word⟩, stop.rest, ?_⟩
  rw [Statement.text_append]
  dsimp only
  rw [List.append_assoc blanks, ← body_eq, ← behind_name, List.takeWhile_append_dropWhile,
    Cursor.takeWhile, List.takeWhile_append_dropWhile]

/-- Reading succeeds where the grammar allows it, and records what the grammar says. -/
theorem exists_readAssignment_iff :
    (∃ next, readAssignment (.between front.reverse rest) = .assigned record next) ↔
      ReadsAt front rest record := by
  constructor
  · rintro ⟨next, read⟩
    obtain ⟨statement, tail, whole⟩ := exists_statement read
    obtain ⟨comment, passed, after, rfl, trailer⟩ := exists_trailer tail
    have reads : ReadsAt front _ _ := .statement statement trailer
    rw [Cursor.rest_between] at whole
    rw [← whole] at reads
    obtain ⟨_, _, -, -, -, again⟩ := reads.exists_next
    rw [read] at again
    cases again
    exact reads
  · intro reads
    obtain ⟨_, _, -, -, -, read⟩ := reads.exists_next
    exact ⟨_, read⟩

/-- Something is recorded of a text exactly when it starts with a statement. -/
lemma exists_readsAt_iff :
    (∃ record, ReadsAt front rest record) ↔
      ∃ (statement : Statement) (tail : List Char), rest = statement.text ++ tail := by
  constructor
  · rintro ⟨_, ⟨statement, _⟩⟩
    exact ⟨statement, _, rfl⟩
  · rintro ⟨statement, tail, rfl⟩
    obtain ⟨comment, passed, after, rfl, trailer⟩ := exists_trailer tail
    exact ⟨_, .statement statement trailer⟩

/-- At most one thing is recorded at a place. -/
lemma ReadsAt.unique {other : Assignment} (h : ReadsAt front rest record)
    (h' : ReadsAt front rest other) : record = other := by
  obtain ⟨_, read⟩ := exists_readAssignment_iff.mpr h
  obtain ⟨_, again⟩ := exists_readAssignment_iff.mpr h'
  rw [read] at again
  cases again
  rfl

/-- Reading gives up for good only when no semicolon is left. -/
lemma statementEnd_not_mem_of_unterminated {cursor : Cursor}
    (read : readAssignment cursor = .unterminated) : statementEnd ∉ cursor.rest := by
  unfold readAssignment readExpression at read
  dsimp only at read
  split at read
  · cases read
  split at read
  · cases read
  rename_i sign signed
  split at read
  · cases read
  split at read
  · -- The body is open to the end of the text, and nothing in front of it can be a semicolon.
    rename_i refused
    have body := not_mem_of_head?_dropWhile_ne (Cursor.head?_rest_of_eat?_eq_none refused)
    have behind_sign : statementEnd ∉ sign.rest := not_mem_of_not_mem_dropWhile rfl body
    have behind_gap : statementEnd ∉ assignmentSign :: sign.rest := by
      rw [List.mem_cons, not_or]
      exact ⟨by decide, behind_sign⟩
    rw [← Cursor.rest_of_eat? signed] at behind_gap
    exact not_mem_of_not_mem_dropWhile (by decide) (not_mem_of_not_mem_dropWhile rfl behind_gap)
  · split at read <;> cases read

end ParamPanel.Script
