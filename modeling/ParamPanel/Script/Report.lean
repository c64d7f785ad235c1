import ParamPanel.Script.Extraction
import ParamPanel.LogLevel

/-!
# Reports

What an extraction would tell a log: how far the declarations reach, how many sections they have,
what each section assigns, and how many parameters came out. A section is scanned to its end before
the parameters of its assignments are made, and its records come in that order.
-/

namespace ParamPanel.Script

open Text

/-- Something that an extraction takes note of. -/
inductive Record where
  /-- The declarations end at a definition. -/
  | declarationsEnd (byte : Nat)
  /-- There is one section because there is no heading. -/
  | noHeadings
  | headings (count : Nat)
  | assignment (name : String) (line : Nat)
  /-- No semicolon is left behind the start of an assignment. -/
  | noStatementEnd (line : Nat)
  | rangeIgnored (name : String)
  | extracted (count : Nat)
deriving DecidableEq, Repr

namespace Record

/-- What is noted of single lines and sections is for tracing. -/
def level : Record → LogLevel
  | declarationsEnd _ | rangeIgnored _ | extracted _ => .debug
  | noHeadings | headings _ | assignment _ _ | noStatementEnd _ => .trace

/-- The text of a record; lines are counted from one. -/
def message : Record → String
  | declarationsEnd byte => "declaration prefix ends at byte " ++ toString byte
  | noHeadings => "no group headings, using one ungrouped section"
  | headings count => "found " ++ toString count ++ " group sections"
  | assignment name line => "assignment '" ++ name ++ "' on line " ++ toString (line + 1)
  | noStatementEnd line => "no `;` left after line " ++ toString (line + 1)
  | rangeIgnored name => "ignoring range on string parameter '" ++ name ++ "'"
  | extracted count => "extracted " ++ toString count ++ " parameters"

def ofFinding : Finding → Record
  | .assignment found => assignment (String.ofList found.name) found.line
  | .stopped line => noStatementEnd line

/-- The record of the hint of an assignment, when it is lost on the parameter. -/
def ofHint? (found : Assignment) : Option Record :=
  let parameter := found.bareParameter
  if found.hint.isLostOn parameter.kind then some (rangeIgnored parameter.name) else none

end Record

/-- What a section of a text gives to note: first its findings, then its parameters. -/
def Section.report (part : Section) (text : List Char) : List Record :=
  (findings text part.span).map Record.ofFinding ++
    (assignments text part.span).filterMap Record.ofHint?

/-- What the cutting of a text into sections gives to note. -/
def headingsRecord (text : List Char) : Record :=
  match (headings text).length with
  | 0 => .noHeadings
  | count + 1 => .headings (count + 1)

/-- What the extraction of a script gives to note, in order. -/
def report (keywords : Keywords) (script : String) : List Record :=
  let text := declared keywords script
  let ending :=
    if hasDefinition keywords (normalize script.toList) then [.declarationsEnd (byteLength text)]
    else []
  ending ++ headingsRecord text :: (sections text).flatMap (·.report text) ++
    [.extracted (parameterTable keywords script).size]

end ParamPanel.Script
