/-!
# Character classes

Which characters separate words, which do so without ending a line, and which make up a name.
-/

namespace ParamPanel.Text

/-- White space is the twenty-five characters of the Unicode property of that name. -/
def isBlank (c : Char) : Bool :=
  let n := c.toNat
  (0x09 ≤ n && n ≤ 0x0d) || n == 0x20 || n == 0x85 || n == 0xa0 || n == 0x1680 ||
    (0x2000 ≤ n && n ≤ 0x200a) || n == 0x2028 || n == 0x2029 || n == 0x202f || n == 0x205f ||
    n == 0x3000

/-- Inline white space is a space, a tab, a vertical tab or a form feed: it ends no line. -/
def isInlineBlank (c : Char) : Bool :=
  c == ' ' || c == '\t' || c == '\x0b' || c == '\x0c'

/-- Keywords are written in ASCII letters, digits and underscores. -/
def isWordChar (c : Char) : Bool := c.isAlphanum || c == '_'

/-- Names may also hold a dollar sign, which marks the variables that scripts reserve. -/
def isNameChar (c : Char) : Bool := isWordChar c || c == '$'

theorem isNameChar_of_isWordChar {c : Char} (h : isWordChar c = true) : isNameChar c = true := by
  simp [isNameChar, h]

end ParamPanel.Text
