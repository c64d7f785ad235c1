import ParamPanel.Text.Offset

/-!
# Lines

A text as the list of its lines. `rawLines` keeps the line feeds, so that joining the lines gives
the text back; `lines` leaves them out and says where each line stands; `precedingLine?` looks up
the one line that ends right before an offset.
-/

namespace ParamPanel.Text

/-- The lines of a text with their line feeds; a line feed at the end of the text opens no line. -/
def rawLines (text : List Char) : List (List Char) :=
  text.foldr (fun c lines =>
    if c = '\n' then [c] :: lines
    else match lines with
      | [] => [[c]]
      | line :: rest => (c :: line) :: rest) []

@[simp] theorem flatten_rawLines (text : List Char) : (rawLines text).flatten = text := by
  induction text with
  | nil => rfl
  | cons c text ih =>
    have step : rawLines (c :: text) = if c = '\n' then [c] :: rawLines text
      else match rawLines text with
        | [] => [[c]]
        | line :: rest => (c :: line) :: rest := rfl
    rw [step]
    split
    · simp [ih]
    · split
      · rename_i none_left
        simp [none_left] at ih
        simp [← ih]
      · rename_i line rest lines_eq
        rw [lines_eq] at ih
        simpa using ih

def lineContent (raw : List Char) : List Char := raw.takeWhile (· != '\n')

/-- A line of a text, without its line feed, and where it stands. -/
structure Line where
  span : Span
  text : List Char
deriving DecidableEq, Repr

/-- The lines that raw lines make when the first of them stands at `offset`. -/
def linesFrom (offset : Nat) : List (List Char) → List Line
  | [] => []
  | raw :: rest =>
    ⟨⟨offset, offset + byteLength (lineContent raw)⟩, lineContent raw⟩ ::
      linesFrom (offset + byteLength raw) rest

def lines (text : List Char) : List Line := linesFrom 0 (rawLines text)

/-- The line whose line feed stands right before an offset, if one does. -/
def precedingLine? (text : List Char) (offset : Nat) : Option (List Char) :=
  match seek? text offset with
  | some ('\n' :: before, _) => some (before.takeWhile (· != '\n')).reverse
  | _ => none

end ParamPanel.Text
