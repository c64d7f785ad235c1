import ParamPanel.Json.Reading
import ParamPanel.Text.Quoted

/-!
# JSON failures

Why a text does not decode: it is not JSON, or it is JSON of the wrong shape. A text can be both,
and then the fault that stands first counts.
-/

namespace ParamPanel.Json

/-- What stands where something else was wanted. -/
inductive Found where
  | null
  | bool (flag : Bool)
  | integer (n : Int)
  | real (x : Float)
  | string (text : String)
  | array
  | object
deriving DecidableEq

inductive Wanted where
  | string
  | number
  | array
  | unit
  | variant
  | parameter
  | range
  | choice
deriving DecidableEq, Repr

/-- How a value can have the wrong shape. -/
inductive Mismatch where
  | wrongType (found : Found) (wanted : Wanted)
  /-- An array that stands for a record has too few items. -/
  | tooShort (length : Nat) (wanted : Wanted)
  | missingField (name : String)
  | duplicateField (name : String)
  | unknownKind (name : String)
  /-- A value is neither a boolean nor a number nor a string. -/
  | notAValue
deriving DecidableEq

/-- Why a text does not decode. -/
inductive Failure where
  | notJson
  | mismatch (cause : Mismatch)
deriving DecidableEq

abbrev Decoded := Except Failure

def Found.message : Found → String
  | null => "null"
  | bool flag => "boolean `" ++ toString flag ++ "`"
  | integer n => "integer `" ++ toString n ++ "`"
  | real x => "floating point `" ++ String.ofList (numberText x) ++ "`"
  | string text => "string " ++ Text.quoted text
  | array => "sequence"
  | object => "map"

def Wanted.message : Wanted → String
  | string => "a string"
  | number => "f64"
  | array => "a sequence"
  | unit => "unit"
  | variant => "variant identifier"
  | parameter => "struct Parameter"
  | range => "struct ParameterRange"
  | choice => "struct ParameterOption"

def Wanted.fieldCount : Wanted → Nat
  | parameter => 8
  | range => 3
  | choice => 2
  | _ => 0

def Mismatch.message : Mismatch → String
  | wrongType found wanted => "invalid type: " ++ found.message ++ ", expected " ++ wanted.message
  | tooShort length wanted =>
    "invalid length " ++ toString length ++ ", expected " ++ wanted.message ++ " with " ++
      toString wanted.fieldCount ++ " elements"
  | missingField name => "missing field `" ++ name ++ "`"
  | duplicateField name => "duplicate field `" ++ name ++ "`"
  | unknownKind name =>
    "unknown variant `" ++ name ++ "`, expected one of `string`, `number`, `boolean`"
  | notAValue => "data did not match any variant of untagged enum ParameterValue"

def Found.ofNumeral : Numeral → Found
  | .integer n => integer n
  | .real x => real x

/-- What a reading is reported as. A container counts from its first character on, a string or a
number only as a whole. -/
def Reading.found : Reading → Decoded Found
  | null => .ok .null
  | bool flag => .ok (.bool flag)
  | number (some n) => .ok (.ofNumeral n)
  | string (some s) => .ok (.string s)
  | array _ _ => .ok .array
  | object _ _ => .ok .object
  | missing | number none | string none => .error .notJson

/-- What a token that ends an object too early is reported as. -/
def Token.found : Token → Decoded Found
  | null => .ok .null
  | bool flag => .ok (.bool flag)
  | number (some n) => .ok (.ofNumeral n)
  | string (some s) => .ok (.string s)
  | arrayOpen => .ok .array
  | objectOpen => .ok .object
  | _ => .error .notJson

def wrongType {α : Type} (found : Decoded Found) (wanted : Wanted) : Decoded α :=
  found.bind fun thing => .error (.mismatch (.wrongType thing wanted))

end ParamPanel.Json
