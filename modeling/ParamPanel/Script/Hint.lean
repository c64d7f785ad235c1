import ParamPanel.Decimal.Literal
import ParamPanel.Parameter.Basic
import ParamPanel.Script.Markers
import ParamPanel.Text.Fields
import ParamPanel.Text.Trim

/-!
# Hints

The comment behind an assignment may hint at how its parameter is to be shown: a single number
bounds it, a bracketed list with commas names its choices, two or three numbers between colons give
it a range. Any other comment is a remark and hints at nothing.
-/

namespace ParamPanel.Script

open Text

/-- An entry of a list of choices as it is written. -/
structure Entry where
  value : List Char
  label : List Char
deriving DecidableEq, Repr

inductive Hint where
  | bound (limit : Float)
  | choices (entries : List Entry)
  | range (range : Range)
  | remark
deriving DecidableEq

/-- The entry that one item of a list writes: a value and a label around the first colon, or one
text that serves as both. -/
def Entry.ofItem (item : List Char) : Entry :=
  match splitFirst? labelSeparator item with
  | some (value, label) => ⟨trim value, trim label⟩
  | none => ⟨item, item⟩

/-- The text inside brackets. Each end may lack its bracket and loses one at most. -/
def withoutBrackets (text : List Char) : List Char :=
  trim (withoutTrailing [bracketClose] (withoutLeading [bracketOpen] text))

def entries (inner : List Char) : List Entry :=
  (fields choiceSeparator inner).map fun item => Entry.ofItem (trim item)

/-- The range that two or three numbers write: both ends, with the step between them. -/
def rangeOf? (inner : List Char) : Option Range := do
  let numbers ← (fields rangeSeparator inner).mapM fun field => Decimal.finite? (trim field)
  match numbers with
  | [lower, upper] => some ⟨some lower, some upper, none⟩
  | [lower, step, upper] => some ⟨some lower, some upper, some step⟩
  | _ => none

/-- What a comment says once it is trimmed, its marker taken off, and trimmed again. -/
def commentText (comment : List Char) : List Char :=
  trim (withoutLeading lineComment (trim comment))

/-- The hint of a comment, which may be given with or without its marker. -/
def Hint.ofComment (comment : List Char) : Hint :=
  let text := commentText comment
  let inner := withoutBrackets text
  match Decimal.finite? text with
  | some limit => .bound limit
  | none =>
    if text.head? = some bracketOpen ∧ inner.contains choiceSeparator then .choices (entries inner)
    else match rangeOf? inner with
      | some found => .range found
      | none => .remark

/-- The value of an entry: a number where numbers are wanted and it writes one, else a string. -/
def Entry.valueFor (entry : Entry) (kind : Kind) : Value :=
  if kind = .number then
    match Decimal.finite? entry.value with
    | some x => .number x
    | none => .string (String.ofList entry.value)
  else .string (String.ofList entry.value)

/-- A string has no range to slide in. -/
def Hint.isLostOn (hint : Hint) (kind : Kind) : Bool :=
  match hint with
  | .range _ => kind = .string
  | _ => false

/-- A parameter with a hint taken. A bound is the greatest length of a string and the step of
anything else. -/
def Hint.apply (hint : Hint) (parameter : Parameter) : Parameter :=
  match hint with
  | .bound limit =>
    if parameter.kind = .string then { parameter with maxLength := some limit }
    else { parameter with range := some ⟨none, none, some limit⟩ }
  | .choices entries =>
    { parameter with choices := some (entries.map fun entry =>
        ⟨entry.valueFor parameter.kind, String.ofList entry.label⟩) }
  | .range found =>
    if parameter.kind = .string then parameter else { parameter with range := some found }
  | .remark => parameter

end ParamPanel.Script
