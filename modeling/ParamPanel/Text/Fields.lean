/-!
# Fields

A text cut at a separator character. No piece of `fields` holds the separator, and putting one
separator between neighbours gives the text back.
-/

namespace ParamPanel.Text

/-- The pieces between the separators, in order; there is always one more piece than separators. -/
def fields (separator : Char) (text : List Char) : List (List Char) :=
  text.foldr (fun c pieces =>
    if c = separator then [] :: pieces
    else match pieces with
      | [] => [[c]]
      | piece :: rest => (c :: piece) :: rest) [[]]

/-- The text before and the text after the first separator. -/
def splitFirst? (separator : Char) (text : List Char) : Option (List Char × List Char) :=
  match text.dropWhile (· != separator) with
  | [] => none
  | _ :: rest => some (text.takeWhile (· != separator), rest)

end ParamPanel.Text
