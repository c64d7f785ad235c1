import Mathlib.Data.List.Basic
import ParamPanel.Script.Assignment
import ParamPanel.Proofs.Text.Cursor
import ParamPanel.Proofs.Text.Trim

/-!
# Scans

What a scan finds does not depend on the text that the cursor has passed: behind more text that ends
its last line, it finds the same with larger offsets and line numbers. A line that starts with no
name is skipped, and an assignment written out in its parts is read back as those parts.
-/

namespace ParamPanel.Script

open Text

lemma isBlank_of_isNameChar {c : Char} (h : isNameChar c = true) : isBlank c = false := by
  delta isNameChar isWordChar Char.isAlphanum Char.isAlpha Char.isUpper Char.isLower
    Char.isDigit at h
  simp only [Bool.or_eq_true, Bool.and_eq_true, decide_eq_true_eq, beq_iff_eq,
    UInt32.le_iff_toNat_le, ge_iff_le] at h
  change (((((65 ≤ c.toNat ∧ c.toNat ≤ 90) ∨ (97 ≤ c.toNat ∧ c.toNat ≤ 122)) ∨
    (48 ≤ c.toNat ∧ c.toNat ≤ 57)) ∨ c = '_') ∨ c = '$') at h
  rcases h with (h | rfl) | rfl
  · simp only [isBlank, Bool.or_eq_false_iff, beq_eq_false_iff_ne, Bool.and_eq_false_iff,
      decide_eq_false_iff_not]
    omega
  · decide
  · decide

/-- An assignment as it is found when more text stands in front. -/
def Assignment.behind (front : List Char) (assignment : Assignment) : Assignment :=
  { assignment with
    span := ⟨assignment.span.start + byteLength front, assignment.span.stop + byteLength front⟩
    line := assignment.line + front.count '\n' }

def Attempt.behind (front : List Char) : Attempt → Attempt
  | assigned assignment next => .assigned (assignment.behind front) (next.behind front)
  | absent => .absent
  | unterminated => .unterminated

def Finding.behind (front : List Char) : Finding → Finding
  | assignment found => .assignment (found.behind front)
  | stopped line => .stopped (line + front.count '\n')

/-- An assignment is read when there is a name, a single equals sign behind it, a semicolon, and an
expression between the two; and then it holds what was passed on the way. -/
theorem readAssignment_eq_assigned_iff {cursor next : Cursor} {assignment : Assignment} :
    readAssignment cursor = .assigned assignment next ↔
      ∃ sign stop, cursor.takeWhile isNameChar ≠ [] ∧
        ((cursor.dropWhile isNameChar).dropWhile isBlank).eat? assignmentSign = some sign ∧
        sign.peek? ≠ some assignmentSign ∧
        ((sign.dropWhile isBlank).dropWhile (· != statementEnd)).eat? statementEnd = some stop ∧
        trim ((sign.dropWhile isBlank).takeWhile (· != statementEnd)) ≠ [] ∧
        next = (readComment stop).2 ∧
        assignment = ⟨cursor.takeWhile isNameChar,
          trim ((sign.dropWhile isBlank).takeWhile (· != statementEnd)), (readComment stop).1,
          ⟨cursor.position.byte, (readComment stop).2.position.byte⟩, cursor.position.line⟩ := by
  constructor
  · intro read
    unfold readAssignment readExpression at read
    dsimp only at read
    split at read
    · cases read
    rename_i named
    split at read
    · cases read
    rename_i sign signed
    split at read
    · cases read
    rename_i single
    split at read
    · cases read
    rename_i stop stopped
    split at read
    · cases read
    rename_i filled
    cases read
    exact ⟨sign, stop, by simpa using named, signed, single, stopped, by simpa using filled,
      rfl, rfl⟩
  · rintro ⟨sign, stop, named, signed, single, stopped, filled, rfl, rfl⟩
    unfold readAssignment readExpression
    simp [named, signed, single, stopped, filled]

lemma isNameChar_head?_gap {gap : List Char} (blank : ∀ c ∈ gap, isBlank c = true)
    (rest : List Char) : ∀ c ∈ (gap ++ assignmentSign :: rest).head?, isNameChar c = false := by
  intro c first
  cases gap with
  | nil => exact forall_head?_cons rfl rest c first
  | cons d gap =>
    cases first
    by_contra name
    have other := isBlank_of_isNameChar (by simpa using name)
    rw [blank c List.mem_cons_self] at other
    cases other

/-- An assignment written out is read back in its parts, whatever follows its semicolon. -/
theorem readAssignment_written (before rest : List Char) {name gap body : List Char}
    (named : name ≠ []) (hn : ∀ c ∈ name, isNameChar c = true) (hg : ∀ c ∈ gap, isBlank c = true)
    (single : body.head? ≠ some assignmentSign) (hb : statementEnd ∉ body)
    (filled : trim body ≠ []) {stop : Cursor}
    (at_stop : stop = .between (statementEnd :: (body.reverse ++ assignmentSign ::
      (gap.reverse ++ (name.reverse ++ before)))) rest) :
    readAssignment
        (.between before (name ++ (gap ++ assignmentSign :: (body ++ statementEnd :: rest)))) =
      .assigned ⟨name, trim body, (readComment stop).1,
        ⟨byteLength before, (readComment stop).2.position.byte⟩, before.count '\n'⟩
        (readComment stop).2 := by
  -- The blanks behind the equals sign belong to the body, but the scan passes them on their own.
  obtain ⟨lead, core, rfl, hl, hc, core_trim⟩ := exists_lead body
  have core_free : ∀ c ∈ core, (c != statementEnd) = true :=
    forall_bne_of_not_mem fun mem => hb (List.mem_append_right lead mem)
  have ends_name := isNameChar_head?_gap hg (lead ++ core ++ statementEnd :: rest)
  have ends_gap : ∀ c ∈ (assignmentSign :: (lead ++ core ++ statementEnd :: rest)).head?,
      isBlank c = false := forall_head?_cons rfl _
  have ends_lead : ∀ c ∈ (core ++ statementEnd :: rest).head?, isBlank c = false := by
    intro c first
    cases core with
    | nil => exact forall_head?_cons rfl rest c first
    | cons d core => exact hc c first
  have ends_core : ∀ c ∈ (statementEnd :: rest).head?, (c != statementEnd) = false :=
    forall_head?_cons rfl rest
  have one_sign : (lead ++ (core ++ statementEnd :: rest)).head? ≠ some assignmentSign := by
    rw [← List.append_assoc]
    cases body : lead ++ core with
    | nil =>
      intro h
      cases h
    | cons c more =>
      rw [body] at single
      exact single
  rw [readAssignment_eq_assigned_iff]
  refine ⟨.between (assignmentSign :: (gap.reverse ++ (name.reverse ++ before)))
    (lead ++ core ++ statementEnd :: rest), stop, ?_⟩
  rw [Cursor.takeWhile_between_append before hn ends_name,
    Cursor.dropWhile_between_append before hn ends_name,
    Cursor.dropWhile_between_append _ hg ends_gap, Cursor.eat?_between, List.append_assoc,
    Cursor.dropWhile_between_append _ hl ends_lead,
    Cursor.takeWhile_between_append _ core_free ends_core,
    Cursor.dropWhile_between_append _ core_free ends_core, Cursor.eat?_between, ← core_trim]
  refine ⟨named, rfl, ?_, ?_, filled, rfl, rfl⟩
  · exact one_sign
  · rw [at_stop, List.reverse_append, List.append_assoc]

lemma readComment_behind (front : List Char) (cursor : Cursor) :
    readComment (cursor.behind front) =
      ((readComment cursor).1, (readComment cursor).2.behind front) := by
  unfold readComment
  rw [Cursor.dropWhile_behind]
  by_cases h : (cursor.dropWhile isInlineBlank).startsWith lineComment
  · rw [if_pos h]
    change (if (cursor.dropWhile isInlineBlank).startsWith lineComment then _ else _) = _
    rw [if_pos h, Cursor.dropWhile_behind]
    rfl
  · rw [if_neg h]
    change (if (cursor.dropWhile isInlineBlank).startsWith lineComment then _ else _) = _
    rw [if_neg h]

lemma readExpression_behind (front : List Char) (start : Position) (name : List Char)
    (cursor : Cursor) :
    readExpression (start.shift (byteLength front) (front.count '\n')) name (cursor.behind front) =
      (readExpression start name cursor).behind front := by
  unfold readExpression
  dsimp only
  rw [Cursor.dropWhile_behind, Cursor.dropWhile_behind, Cursor.eat?_behind]
  change (if cursor.peek? = some assignmentSign then _ else _) = _
  split
  · rfl
  cases h : ((cursor.dropWhile isBlank).dropWhile (· != statementEnd)).eat? statementEnd with
  | none => rfl
  | some next =>
    dsimp only [Option.map_some]
    change (if (trim ((cursor.dropWhile isBlank).takeWhile (· != statementEnd))).isEmpty then _
      else _) = _
    split
    · rfl
    · rw [readComment_behind]
      rfl

lemma readAssignment_behind (front : List Char) (cursor : Cursor) :
    readAssignment (cursor.behind front) = (readAssignment cursor).behind front := by
  unfold readAssignment
  dsimp only
  rw [Cursor.dropWhile_behind, Cursor.dropWhile_behind, Cursor.eat?_behind]
  change (if (cursor.takeWhile isNameChar).isEmpty then _ else _) = _
  split
  · rfl
  cases h : ((cursor.dropWhile isNameChar).dropWhile isBlank).eat? assignmentSign with
  | none => rfl
  | some next => exact readExpression_behind front cursor.position _ next

lemma isAtEnd_behind (front : List Char) (cursor : Cursor) :
    (cursor.behind front).isAtEnd = cursor.isAtEnd := rfl

lemma scan_of_isAtEnd {cursor : Cursor} (h : cursor.isAtEnd = true) : scan cursor = [] := by
  rw [scan, dif_pos h]

lemma not_isAtEnd_of_readAssignment (cursor : Cursor) (h : readAssignment cursor ≠ .absent) :
    ¬ cursor.isAtEnd = true := by
  intro atEnd
  rcases cursor with ⟨before, _ | ⟨c, rest⟩, position⟩
  · exact h rfl
  · simp [Cursor.isAtEnd] at atEnd

lemma scan_of_assigned {cursor next : Cursor} {assignment : Assignment}
    (start : cursor.isAtLineStart = true) (h : readAssignment cursor = .assigned assignment next) :
    scan cursor = .assignment assignment :: scan next := by
  have inside := not_isAtEnd_of_readAssignment cursor (by simp [h])
  rw [scan, dif_neg inside, if_pos start]
  split <;> simp_all

lemma scan_of_unterminated {cursor : Cursor} (start : cursor.isAtLineStart = true)
    (h : readAssignment cursor = .unterminated) :
    scan cursor = [.stopped cursor.position.line] := by
  have inside := not_isAtEnd_of_readAssignment cursor (by simp [h])
  rw [scan, dif_neg inside, if_pos start]
  split <;> simp_all

lemma scan_skipLine {cursor : Cursor}
    (h : cursor.isAtLineStart = true → readAssignment cursor = .absent) :
    scan cursor = scan cursor.skipLine := by
  by_cases atEnd : cursor.isAtEnd = true
  · rcases cursor with ⟨before, _ | ⟨c, rest⟩, position⟩
    · rfl
    · simp [Cursor.isAtEnd] at atEnd
  · rw [scan, dif_neg atEnd]
    split
    · rename_i start
      have absent := h start
      split <;> simp_all
    · rfl

/-- Behind more text that ends its last line, a scan finds the same further down. -/
theorem scan_behind {front : List Char} (hf : EndsLine front) (cursor : Cursor) :
    scan (cursor.behind front) = (scan cursor).map (Finding.behind front) := by
  have start (cursor : Cursor) := Cursor.isAtLineStart_behind hf cursor
  have attempt (cursor : Cursor) := readAssignment_behind front cursor
  fun_induction scan cursor with
  | case1 cursor atEnd => exact scan_of_isAtEnd ((isAtEnd_behind front cursor).trans atEnd)
  | case2 cursor inside skips here assignment next read shorter ih =>
    rw [scan_of_assigned ((start cursor).trans here) (by rw [attempt, read]; rfl), ih]
    rfl
  | case3 cursor inside skips here read =>
    rw [scan_of_unterminated ((start cursor).trans here) (by rw [attempt, read]; rfl)]
    rfl
  | case4 cursor inside skips here read ih =>
    rw [scan_skipLine (fun _ => by rw [attempt, read]; rfl), Cursor.skipLine_behind, ih]
  | case5 cursor inside skips here ih =>
    rw [scan_skipLine (fun h => absurd ((start cursor).symm.trans h) here),
      Cursor.skipLine_behind, ih]

lemma isOn_readComment {text : List Char} {cursor : Cursor} (h : cursor.IsOn text) :
    (readComment cursor).2.IsOn text := by
  unfold readComment
  dsimp only
  split
  · exact (h.dropWhile _).dropWhile _
  · exact h.dropWhile _

lemma isOn_readAssignment {text : List Char} {cursor next : Cursor} {assignment : Assignment}
    (h : cursor.IsOn text) (read : readAssignment cursor = .assigned assignment next) :
    next.IsOn text := by
  obtain ⟨sign, stop, -, signed, -, stopped, -, rfl, -⟩ := readAssignment_eq_assigned_iff.mp read
  have on_sign := ((h.dropWhile isNameChar).dropWhile isBlank).eat? signed
  have on_stop := ((on_sign.dropWhile isBlank).dropWhile (· != statementEnd)).eat? stopped
  exact isOn_readComment on_stop

/-- An assignment stands between two parts of a text, at the start of a line. -/
structure Assignment.Stands (assignment : Assignment) (before inside : List Char) : Prop where
  endsLine : EndsLine before
  nonempty : inside ≠ []
  span_eq : assignment.span = ⟨byteLength before, byteLength before + byteLength inside⟩
  line_eq : assignment.line = before.count '\n'

lemma stands_of_readAssignment {before rest : List Char} {next : Cursor} {assignment : Assignment}
    (start : EndsLine before.reverse)
    (read : readAssignment (.between before rest) = .assigned assignment next) :
    ∃ inside after, inside ++ after = rest ∧ assignment.Stands before.reverse inside := by
  have shorter := length_rest_of_readAssignment read
  have on_text := isOn_readAssignment ⟨before, rest, rfl, rfl⟩ read
  obtain ⟨sign, stop, -, -, -, -, -, at_next, rfl⟩ := readAssignment_eq_assigned_iff.mp read
  obtain ⟨inside, after, rfl, rfl⟩ := on_text.exists_between shorter.le
  refine ⟨inside, after, rfl, start, ?_, ?_, ?_⟩
  · rintro rfl
    simp at shorter
  · rw [← at_next]
    simp [Cursor.between, Position.ofBefore, Nat.add_comm]
  · simp [Cursor.between, Position.ofBefore]

/-- Whatever a scan finds was read somewhere behind its cursor, at the start of a line. -/
theorem exists_read_of_mem_scan {text : List Char} {cursor : Cursor} (h : cursor.IsOn text)
    {assignment : Assignment} (mem : .assignment assignment ∈ scan cursor) :
    ∃ start next, start.IsOn text ∧ start.rest.length ≤ cursor.rest.length ∧
      start.isAtLineStart = true ∧ readAssignment start = .assigned assignment next := by
  fun_induction scan cursor with
  | case1 cursor atEnd => cases mem
  | case2 cursor inside skips here found next read shorter ih =>
    rcases List.mem_cons.mp mem with first | later
    · cases first
      exact ⟨cursor, next, h, le_rfl, here, read⟩
    · obtain ⟨start, stop, on_text, behind, found⟩ := ih (isOn_readAssignment h read) later
      exact ⟨start, stop, on_text, behind.trans shorter.le, found⟩
  | case3 cursor inside skips here read => simp at mem
  | case4 cursor inside skips here read ih =>
    obtain ⟨start, stop, on_text, behind, found⟩ := ih h.skipLine mem
    exact ⟨start, stop, on_text, behind.trans skips.le, found⟩
  | case5 cursor inside skips here ih =>
    obtain ⟨start, stop, on_text, behind, found⟩ := ih h.skipLine mem
    exact ⟨start, stop, on_text, behind.trans skips.le, found⟩

/-- Whatever a scan finds stands in the text that was left to it. -/
lemma stands_of_mem_scan {before rest : List Char} {assignment : Assignment}
    (mem : .assignment assignment ∈ scan (.between before rest)) :
    ∃ passed inside after, passed ++ inside ++ after = rest ∧
      assignment.Stands (before.reverse ++ passed) inside := by
  obtain ⟨start, next, on_text, behind, here, read⟩ :=
    exists_read_of_mem_scan ⟨before, rest, rfl, rfl⟩ mem
  obtain ⟨passed, left, rfl, rfl⟩ := on_text.exists_between behind
  obtain ⟨inside, after, rfl, stands⟩ :=
    stands_of_readAssignment (Cursor.isAtLineStart_between_iff.mp here) read
  rw [List.reverse_append, List.reverse_reverse] at stands
  exact ⟨passed, inside, after, List.append_assoc _ _ _, stands⟩

/-- An assignment starts on a line of the text. -/
lemma line_le_of_mem_scan {text : List Char} {assignment : Assignment}
    (mem : .assignment assignment ∈ scan (.ofText text)) : assignment.line ≤ text.count '\n' := by
  rw [Cursor.ofText_eq_between] at mem
  obtain ⟨passed, inside, after, rfl, stands⟩ := stands_of_mem_scan mem
  rw [stands.line_eq, List.reverse_nil, List.nil_append, List.count_append, List.count_append]
  omega

lemma readAssignment_of_nameless {cursor : Cursor}
    (h : ∀ c ∈ cursor.rest.head?, isNameChar c = false) : readAssignment cursor = .absent := by
  have name : cursor.takeWhile isNameChar = [] := by
    rcases cursor with ⟨before, _ | ⟨c, rest⟩, position⟩
    · rfl
    · have first : isNameChar c = false := h c rfl
      simp [Cursor.takeWhile, first]
  rw [readAssignment]
  simp [name]

/-- A line that starts with no name is skipped. -/
theorem scan_nameless_line {line : List Char} (free : '\n' ∉ line)
    (nameless : ∀ c ∈ line.head?, isNameChar c = false) (rest : List Char) :
    scan (.ofText (line ++ '\n' :: rest)) =
      (scan (.ofText rest)).map (Finding.behind (line ++ ['\n'])) := by
  have whole := endsLine_concat line
  have absent : readAssignment (.ofText (line ++ '\n' :: rest)) = .absent := by
    apply readAssignment_of_nameless
    cases line with
    | nil => exact forall_head?_cons rfl rest
    | cons c line => exact nameless
  rw [scan_skipLine (fun _ => absent), Cursor.ofText_eq_between, Cursor.skipLine_between free,
    List.append_nil, ← scan_behind whole, Cursor.ofText_eq_between,
    Cursor.behind_between whole, List.nil_append]

/-- A cursor at the end of a line goes on to the next one. -/
lemma scan_lineEnd (before rest : List Char) :
    scan (.between before ('\n' :: rest)) = scan (.between ('\n' :: before) rest) := by
  have absent : readAssignment (.between before ('\n' :: rest)) = .absent := by
    apply readAssignment_of_nameless
    exact forall_head?_cons rfl rest
  have skip := Cursor.skipLine_between (List.not_mem_nil : '\n' ∉ []) before rest
  rw [List.nil_append] at skip
  rw [scan_skipLine fun _ => absent, skip]
  rfl

/-- An assignment with a line to itself is found, and the scan goes on below it. What stands behind
its semicolon is read as its comment. -/
theorem scan_written_line {name gap body trailer rest : List Char} {comment : Option (List Char)}
    (named : name ≠ []) (hn : ∀ c ∈ name, isNameChar c = true) (hg : ∀ c ∈ gap, isBlank c = true)
    (single : body.head? ≠ some assignmentSign) (hb : statementEnd ∉ body)
    (filled : trim body ≠ [])
    (read : ∀ before, readComment (.between before (trailer ++ '\n' :: rest)) =
      (comment, .between (trailer.reverse ++ before) ('\n' :: rest))) :
    let line := name ++ (gap ++ assignmentSign :: (body ++ statementEnd :: trailer))
    ∃ span, scan (.ofText (line ++ '\n' :: rest)) =
      .assignment ⟨name, trim body, comment, span, 0⟩ ::
        (scan (.ofText rest)).map (Finding.behind (line ++ ['\n'])) := by
  intro line
  have whole : EndsLine (line ++ ['\n']) := endsLine_concat line
  have attempt := readAssignment_written [] (trailer ++ '\n' :: rest) named hn hg single hb filled
    rfl
  rw [read] at attempt
  dsimp only at attempt
  have split : line ++ '\n' :: rest = name ++
      (gap ++ assignmentSign :: (body ++ statementEnd :: (trailer ++ '\n' :: rest))) := by
    simp [line]
  have below : '\n' :: (trailer.reverse ++ statementEnd ::
      (body.reverse ++ assignmentSign :: (gap.reverse ++ (name.reverse ++ [])))) =
      (line ++ ['\n']).reverse := by
    simp [line]
  have found := scan_of_assigned rfl attempt
  rw [scan_lineEnd, below] at found
  rw [split, ← scan_behind whole, Cursor.ofText_eq_between, Cursor.ofText_eq_between,
    Cursor.behind_between whole]
  exact ⟨_, found⟩

lemma scan_nameless_open {line : List Char} (free : '\n' ∉ line)
    (nameless : ∀ c ∈ line.head?, isNameChar c = false) : scan (.ofText line) = [] := by
  have atEnd : (Cursor.ofText line).skipLine.isAtEnd = true := by
    rw [Cursor.ofText_eq_between, Cursor.skipLine_between_open free]
    rfl
  rw [scan_skipLine (fun _ => readAssignment_of_nameless nameless), scan_of_isAtEnd atEnd]

end ParamPanel.Script
