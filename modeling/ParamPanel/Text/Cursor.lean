import ParamPanel.Text.Offset

/-!
# Cursors

A cursor reads a text from front to back and counts where it is. It holds the text it has passed,
nearest character first, and the text that is left, so no step ever cuts inside a character.
-/

namespace ParamPanel.Text

/-- A place in a text together with the text on either side of it. -/
structure Cursor where
  /-- The text already passed, nearest character first. -/
  before : List Char
  rest : List Char
  position : Position
deriving DecidableEq, Repr

namespace Cursor

/-- A cursor in front of a text. -/
def ofText (text : List Char) : Cursor := ⟨[], text, .start⟩

/-- A cursor at a position. An offset past the end counts as the end; the line and the column are
taken as they are given. There is no cursor inside a character. -/
def at? (text : List Char) (position : Position) : Option Cursor :=
  let byte := min position.byte (byteLength text)
  (seek? text byte).map fun (before, rest) => ⟨before, rest, { position with byte }⟩

def isAtEnd (cursor : Cursor) : Bool := cursor.rest.isEmpty

/-- Whether the cursor stands at the start of the text or right behind a line feed. -/
def isAtLineStart (cursor : Cursor) : Bool :=
  match cursor.before with
  | [] => true
  | c :: _ => c == '\n'

def peek? (cursor : Cursor) : Option Char := cursor.rest.head?

/-- Whether the text that is left starts with `text`. -/
def startsWith (cursor : Cursor) (text : List Char) : Bool := text.isPrefixOf cursor.rest

/-- The cursor behind the next character, or the same cursor at the end. -/
def advance (cursor : Cursor) : Cursor :=
  match cursor.rest with
  | [] => cursor
  | c :: rest => ⟨c :: cursor.before, rest, cursor.position.past c⟩

/-- The cursor behind the next character if that character is `c`. -/
def eat? (cursor : Cursor) (c : Char) : Option Cursor :=
  if cursor.peek? = some c then some cursor.advance else none

/-- The longest run of characters from here on that satisfy `p`. -/
def takeWhile (cursor : Cursor) (p : Char → Bool) : List Char := cursor.rest.takeWhile p

/-- The cursor behind the longest run of characters that satisfy `p`. -/
def dropWhile (cursor : Cursor) (p : Char → Bool) : Cursor :=
  let run := cursor.takeWhile p
  ⟨run.reverse ++ cursor.before, cursor.rest.dropWhile p, cursor.position.pastAll run⟩

/-- The cursor at the start of the next line, or at the end when there is none. -/
def skipLine (cursor : Cursor) : Cursor := (cursor.dropWhile (· != '\n')).advance

@[simp] theorem rest_advance (cursor : Cursor) : cursor.advance.rest = cursor.rest.tail := by
  unfold advance
  split <;> simp_all

@[simp] theorem rest_dropWhile (cursor : Cursor) (p : Char → Bool) :
    (cursor.dropWhile p).rest = cursor.rest.dropWhile p := rfl

theorem length_rest_eat?_lt {cursor next : Cursor} {c : Char} (h : cursor.eat? c = some next) :
    next.rest.length < cursor.rest.length := by
  unfold eat? at h
  split at h
  · cases h
    rcases cursor with ⟨before, _ | ⟨d, rest⟩, position⟩ <;> simp_all [peek?]
  · cases h

theorem length_rest_dropWhile_le (cursor : Cursor) (p : Char → Bool) :
    (cursor.dropWhile p).rest.length ≤ cursor.rest.length :=
  (List.dropWhile_sublist p).length_le

/-- Skipping a line gets nearer to the end. -/
theorem length_rest_skipLine_lt (cursor : Cursor) (h : cursor.isAtEnd = false) :
    cursor.skipLine.rest.length < cursor.rest.length := by
  have step := cursor.length_rest_dropWhile_le (· != '\n')
  have left : 0 < cursor.rest.length := by
    rcases cursor with ⟨before, _ | ⟨c, rest⟩, position⟩ <;> simp_all [isAtEnd]
  simp only [skipLine, rest_advance, List.length_tail]
  omega

end Cursor

end ParamPanel.Text
