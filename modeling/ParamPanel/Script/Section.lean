import ParamPanel.Text.Lines
import ParamPanel.Text.Trim
import ParamPanel.Script.Markers

/-!
# Sections

Heading comments such as `/* [Size] */` cut the declarations into sections, each of which runs to
the next heading. What stands before the first heading belongs to no section. Declarations without
headings are one section that has no label.
-/

namespace ParamPanel.Script

open Text

/-- The label of a heading: a line with nothing on it but a block comment, and nothing in that but
a label in brackets. The label is trimmed, is not empty and holds no bracket. -/
def headingLabel? (line : List Char) : Option (List Char) := do
  let commented ← blockOpen.isPrefixOf? (trim line)
  let comment ← blockClose.isSuffixOf? commented
  let bracketed ← [bracketOpen].isPrefixOf? (trim comment)
  let inner ← [bracketClose].isSuffixOf? bracketed
  if inner.contains bracketOpen || inner.contains bracketClose then none
  else
    let label := trim inner
    if label.isEmpty then none else some label

/-- A part of the declarations under one heading. -/
structure Section where
  /-- The heading as it is written, trimmed; no text when there is no heading. -/
  heading : List Char
  label : Option (List Char)
  span : Span
deriving DecidableEq, Repr

def Section.code (part : Section) (text : List Char) : List Char := part.span.slice text

/-- A heading found in a text: where its line starts, the line trimmed, and its label. -/
structure Heading where
  start : Nat
  text : List Char
  label : List Char
deriving DecidableEq, Repr

def Heading.ofLine? (line : Line) : Option Heading :=
  (headingLabel? line.text).map fun label => ⟨line.span.start, trim line.text, label⟩

def headings (text : List Char) : List Heading := (lines text).filterMap Heading.ofLine?

/-- Sections from headings: each stops where the next one starts, the last one at `stop`. -/
def sectionsOf (stop : Nat) : List Heading → List Section
  | [] => []
  | heading :: rest =>
    let next := (rest.head?.map Heading.start).getD stop
    ⟨heading.text, some heading.label, ⟨heading.start, next⟩⟩ :: sectionsOf stop rest

/-- The sections of a text; there is always one. -/
def sections (text : List Char) : List Section :=
  match headings text with
  | [] => [⟨[], none, ⟨0, byteLength text⟩⟩]
  | found => sectionsOf (byteLength text) found

end ParamPanel.Script
