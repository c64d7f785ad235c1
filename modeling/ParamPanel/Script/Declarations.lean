import ParamPanel.Text.Lines
import ParamPanel.Script.Keywords

/-!
# Declarations

A script declares its parameters before it defines anything. The declarations are the longest run
of whole lines from the start in which no line opens a definition.
-/

namespace ParamPanel.Script

open Text

/-- A line opens a definition when its leading name is a keyword and white space follows it. -/
def opensDefinition (keywords : Keywords) (line : List Char) : Bool :=
  (line.dropWhile isNameChar).head?.any isBlank &&
    keywords.contains (String.ofList (line.takeWhile isNameChar))

/-- Whether a raw line opens a definition; its line feed is not part of what follows the name. -/
def endsDeclarations (keywords : Keywords) (raw : List Char) : Bool :=
  opensDefinition keywords (lineContent raw)

/-- The text in front of the first line that opens a definition. -/
def declarations (keywords : Keywords) (script : List Char) : List Char :=
  ((rawLines script).takeWhile (!endsDeclarations keywords ·)).flatten

def hasDefinition (keywords : Keywords) (script : List Char) : Bool :=
  (rawLines script).any (endsDeclarations keywords)

end ParamPanel.Script
