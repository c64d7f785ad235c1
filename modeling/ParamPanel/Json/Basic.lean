import ParamPanel.Decimal.Layout

/-!
# JSON values

JSON values and the text they are written as: on one line, without blanks, members in the order in
which they are given.
-/

namespace ParamPanel

inductive Json where
  | null
  | bool (flag : Bool)
  | number (number : Float)
  | string (text : String)
  | array (items : List Json)
  | object (members : List (String × Json))

namespace Json

/-- Numbers have all places down to the fifth behind the point and up to the sixteenth in front of
it, and a point even when they are whole; others have a power of ten with its sign. -/
def numberLayout : Decimal.Layout where
  plainFrom := -5
  plainTo := 15
  wholeEnd := ".0"
  upMark := "e+"
  downMark := "e-"

def hexDigit (n : Nat) : Char := Nat.digitChar (n % 16)

/-- The character that an escape of one letter stands for is written as that letter. -/
def letterEscapes : List (Char × Char) :=
  [('"', '"'), ('\\', '\\'), ('\x08', 'b'), ('\x0c', 'f'), ('\n', 'n'), ('\r', 'r'), ('\t', 't')]

/-- One character inside a string. Only control characters, quotes and backslashes are escaped. -/
def charText (c : Char) : List Char :=
  match letterEscapes.lookup c with
  | some letter => ['\\', letter]
  | none =>
    if c.toNat < 0x20 then ['\\', 'u', '0', '0', hexDigit (c.toNat / 16), hexDigit c.toNat] else [c]

def stringText (text : String) : List Char := '"' :: text.toList.flatMap charText ++ ['"']

/-- A number; JSON has no word for those that are not finite. -/
def numberText (x : Float) : List Char :=
  if x.isFinite then numberLayout.write x else ['n', 'u', 'l', 'l']

mutual

def text : Json → List Char
  | null => ['n', 'u', 'l', 'l']
  | bool true => ['t', 'r', 'u', 'e']
  | bool false => ['f', 'a', 'l', 's', 'e']
  | number x => numberText x
  | string s => stringText s
  | array items => '[' :: itemsText items ++ [']']
  | object members => '{' :: membersText members ++ ['}']

def itemsText : List Json → List Char
  | [] => []
  | [item] => item.text
  | item :: rest => item.text ++ ',' :: itemsText rest

def membersText : List (String × Json) → List Char
  | [] => []
  | [(key, value)] => stringText key ++ ':' :: value.text
  | (key, value) :: rest => stringText key ++ ':' :: value.text ++ ',' :: membersText rest

end

end Json

end ParamPanel
