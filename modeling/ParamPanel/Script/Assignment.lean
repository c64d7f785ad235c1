import ParamPanel.Text.Cursor
import ParamPanel.Text.Trim
import ParamPanel.Script.Markers

/-!
# Assignments

An assignment starts at the first column with a name and an equals sign, and its expression runs to
the next semicolon, over as many lines as it takes. A comment behind the semicolon on the same line
belongs to it. `findings` visits the line starts of a span from front to back and says what it met.
-/

namespace ParamPanel.Script

open Text

structure Assignment where
  name : List Char
  /-- What stands between the equals sign and the semicolon, trimmed. -/
  expression : List Char
  /-- The comment behind it, with its marker. -/
  comment : Option (List Char)
  /-- From the start of its line to the end of its comment or of the blanks behind it. -/
  span : Span
  line : Nat
deriving DecidableEq, Repr

/-- What comes of reading an assignment at a place. -/
inductive Attempt where
  /-- There is one, and reading goes on at the cursor behind it. -/
  | assigned (assignment : Assignment) (behind : Cursor)
  | absent
  /-- There is none because no semicolon is left, so there is none further down either. -/
  | unterminated
deriving DecidableEq, Repr

/-- The comment that follows on the same line, if one does, and the cursor behind it. -/
def readComment (cursor : Cursor) : Option (List Char) × Cursor :=
  let gap := cursor.dropWhile isInlineBlank
  if gap.startsWith lineComment then
    (some (gap.takeWhile (· != '\n')), gap.dropWhile (· != '\n'))
  else (none, gap)

/-- Reads the expression of an assignment, with the cursor behind its equals sign. -/
def readExpression (start : Position) (name : List Char) (cursor : Cursor) : Attempt :=
  if cursor.peek? = some assignmentSign then .absent
  else
    let bodyStart := cursor.dropWhile isBlank
    let expression := trim (bodyStart.takeWhile (· != statementEnd))
    match (bodyStart.dropWhile (· != statementEnd)).eat? statementEnd with
    | none => .unterminated
    | some behind =>
      if expression.isEmpty then .absent
      else
        let (comment, stop) := readComment behind
        .assigned ⟨name, expression, comment, ⟨start.byte, stop.position.byte⟩, start.line⟩ stop

def readAssignment (cursor : Cursor) : Attempt :=
  let name := cursor.takeWhile isNameChar
  if name.isEmpty then .absent
  else match ((cursor.dropWhile isNameChar).dropWhile isBlank).eat? assignmentSign with
    | none => .absent
    | some behind => readExpression cursor.position name behind

theorem length_rest_readComment_le (cursor : Cursor) :
    (readComment cursor).2.rest.length ≤ cursor.rest.length := by
  have gap := cursor.length_rest_dropWhile_le isInlineBlank
  have comment := (cursor.dropWhile isInlineBlank).length_rest_dropWhile_le (· != '\n')
  unfold readComment
  dsimp only
  split <;> simp only <;> omega

theorem length_rest_of_readExpression {start : Position} {name : List Char}
    {cursor behind : Cursor} {assignment : Assignment}
    (h : readExpression start name cursor = .assigned assignment behind) :
    behind.rest.length ≤ cursor.rest.length := by
  have blank := cursor.length_rest_dropWhile_le isBlank
  have body := (cursor.dropWhile isBlank).length_rest_dropWhile_le (· != statementEnd)
  unfold readExpression at h
  dsimp only at h
  split at h
  · cases h
  split at h
  · cases h
  rename_i next eaten
  have eat := Cursor.length_rest_eat?_lt eaten
  have comment := length_rest_readComment_le next
  split at h
  · cases h
  injection h with _ stop_eq
  subst stop_eq
  omega

theorem length_rest_of_readAssignment {cursor behind : Cursor} {assignment : Assignment}
    (h : readAssignment cursor = .assigned assignment behind) :
    behind.rest.length < cursor.rest.length := by
  have name := cursor.length_rest_dropWhile_le isNameChar
  have blank := (cursor.dropWhile isNameChar).length_rest_dropWhile_le isBlank
  unfold readAssignment at h
  dsimp only at h
  split at h
  · cases h
  split at h
  · cases h
  rename_i next eaten
  have eat := Cursor.length_rest_eat?_lt eaten
  have body := length_rest_of_readExpression h
  omega

inductive Finding where
  | assignment (found : Assignment)
  /-- The scan stopped at this line: an assignment starts there and no semicolon is left. -/
  | stopped (line : Nat)
deriving DecidableEq, Repr

/-- Visits the line starts from the cursor on. Behind an assignment the scan goes on at the next
line start. -/
def scan (cursor : Cursor) : List Finding :=
  if atEnd : cursor.isAtEnd = true then []
  else
    have skips := cursor.length_rest_skipLine_lt (by simpa using atEnd)
    if cursor.isAtLineStart then
      match read : readAssignment cursor with
      | .assigned assignment behind =>
        have := length_rest_of_readAssignment read
        .assignment assignment :: scan behind
      | .unterminated => [.stopped cursor.position.line]
      | .absent => scan cursor.skipLine
    else scan cursor.skipLine
termination_by cursor.rest.length

/-- A cursor at the start of a span with no more text in front of it than the span holds. A span
that stops at no good offset runs to the end of the text. There is no cursor when the start is no
good offset or lies behind the stop. -/
def spanCursor? (text : List Char) (span : Span) : Option Cursor :=
  match seek? text span.start with
  | none => none
  | some (before, rest) =>
    let position : Position :=
      ⟨span.start, before.count '\n', (before.takeWhile (· != '\n')).length⟩
    if span.start ≤ span.stop then
      match seek? rest span.length with
      | some (inside, _) => some ⟨before, inside.reverse, position⟩
      | none => some ⟨before, rest, position⟩
    else if (seek? text span.stop).isSome then none
    else some ⟨before, rest, position⟩

def findings (text : List Char) (span : Span) : List Finding :=
  match spanCursor? text span with
  | none => []
  | some cursor => scan cursor

def Finding.assignment? : Finding → Option Assignment
  | assignment found => some found
  | stopped _ => none

/-- The assignments that start in a span of a text. -/
def assignments (text : List Char) (span : Span) : List Assignment :=
  (findings text span).filterMap Finding.assignment?

end ParamPanel.Script
