import ParamPanel.Decimal.Literal
import ParamPanel.Parameter.Basic
import ParamPanel.Text.Trim

/-!
# Expressions

The value that an assignment gives its parameter. A plain number is a number and the two truth
words are booleans; everything else is a string, a computation included, since nothing is evaluated.
-/

namespace ParamPanel.Script

open Text

/-- A text on one line without the quotes around it, if it has them at both ends. -/
def withoutQuotes (text : List Char) : List Char :=
  if text.contains '\n' then text
  else ((['"'].isPrefixOf? text).bind (['"'].isSuffixOf? ·)).getD text

/-- The value of an expression. A number too large for a double is infinite. -/
def valueOf (expression : List Char) : Value :=
  let text := trim expression
  match Decimal.Literal.plain? text with
  | some literal => .number literal.toFloat
  | none =>
    if text = ['t', 'r', 'u', 'e'] then .boolean true
    else if text = ['f', 'a', 'l', 's', 'e'] then .boolean false
    else .string (String.ofList (withoutQuotes text))

end ParamPanel.Script
