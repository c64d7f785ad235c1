import ParamPanel.Parameter.Table
import ParamPanel.Script.Assignment
import ParamPanel.Script.Declarations
import ParamPanel.Script.Expression
import ParamPanel.Script.Hint
import ParamPanel.Script.Section
import ParamPanel.Text.LineEnding

/-!
# Extraction

The parameters of a script. Its line endings are normalised, its declarations are cut into sections,
and every assignment in them makes a parameter: the value from its expression, the description from
the line above it, the group from its section, the rest from the comment behind it. A name that is
assigned again keeps its place and takes the last assignment. No script is refused.
-/

namespace ParamPanel.Script

open Text

/-- The part of a script that declares parameters, with its line endings normalised. -/
def declared (keywords : Keywords) (script : String) : List Char :=
  declarations keywords (normalize script.toList)

/-- The description that a line gives to what stands below it: a comment that is not blank. -/
def description? (line : List Char) : Option String := do
  let comment ← lineComment.isPrefixOf? (trim line)
  let text := trim comment
  if text.isEmpty then none else some (String.ofList text)

def Assignment.description? (assignment : Assignment) (lines : Array Line) : Option String :=
  match assignment.line with
  | 0 => none
  | above + 1 => lines[above]?.bind fun line => Script.description? line.text

/-- The parameter of an assignment before its hint is taken. -/
def Assignment.bareParameter (assignment : Assignment) : Parameter :=
  .ofValue (String.ofList assignment.name) (valueOf assignment.expression)

/-- The hint of an assignment; without a comment there is nothing to take. -/
def Assignment.hint (assignment : Assignment) : Hint :=
  match assignment.comment with
  | some comment => .ofComment comment
  | none => .remark

/-- The parameter that an assignment makes in a group, given the lines of the text around it. -/
def Assignment.parameter (assignment : Assignment) (lines : Array Line) (group : Option String) :
    Parameter :=
  { assignment.hint.apply assignment.bareParameter with
    description := assignment.description? lines
    group := group }

def Section.group (part : Section) : Option String := part.label.map String.ofList

/-- The parameters of one section of a text, one for each assignment. -/
def Section.parameters (part : Section) (text : List Char) (lines : Array Line) : List Parameter :=
  (assignments text part.span).map fun assignment => assignment.parameter lines part.group

/-- The parameters that declarations make, one for each assignment, in order. -/
def declaredParameters (text : List Char) : List Parameter :=
  let textLines := (lines text).toArray
  (sections text).flatMap fun part => part.parameters text textLines

def parameterTable (keywords : Keywords) (script : String) : Table :=
  .ofList (declaredParameters (declared keywords script))

/-- The parameters of a script in the order in which their names first came up. -/
def parameters (keywords : Keywords) (script : String) : List Parameter :=
  (parameterTable keywords script).toList

end ParamPanel.Script
