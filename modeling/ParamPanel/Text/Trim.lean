import ParamPanel.Text.CharClass

/-!
# Trimming

White space taken off the ends of a text, in the sense of `isBlank`.
-/

namespace ParamPanel.Text

/-- The text from its first character that is not blank. -/
def trimStart (text : List Char) : List Char := text.dropWhile isBlank

/-- The text up to its last character that is not blank. -/
def trimEnd (text : List Char) : List Char := (text.reverse.dropWhile isBlank).reverse

/-- The text without the white space at either end. -/
def trim (text : List Char) : List Char := trimEnd (trimStart text)

/-- The text without one leading `mark`, or the text itself when it does not start with `mark`. -/
def withoutLeading (mark text : List Char) : List Char := (mark.isPrefixOf? text).getD text

/-- The text without one trailing `mark`, or the text itself when it does not end with `mark`. -/
def withoutTrailing (mark text : List Char) : List Char := (mark.isSuffixOf? text).getD text

end ParamPanel.Text
