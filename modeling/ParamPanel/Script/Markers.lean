/-!
# Markers

The characters and words that carry meaning in a script, each written once.
-/

namespace ParamPanel.Script

def lineComment : List Char := ['/', '/']

def blockOpen : List Char := ['/', '*']

def blockClose : List Char := ['*', '/']

/-- What opens the label of a heading or a list of choices. -/
def bracketOpen : Char := '['

/-- What closes the label of a heading or a list of choices. -/
def bracketClose : Char := ']'

def choiceSeparator : Char := ','

def labelSeparator : Char := ':'

def rangeSeparator : Char := ':'

def assignmentSign : Char := '='

def statementEnd : Char := ';'

end ParamPanel.Script
