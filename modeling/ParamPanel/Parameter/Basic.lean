/-!
# Parameters

What a script lets its user choose: a named value with its kind, and what a panel needs to show it.
-/

namespace ParamPanel

/-- What sort of value a parameter takes. -/
inductive Kind where
  | string
  | number
  | boolean
deriving DecidableEq, Repr

def Kind.name : Kind → String
  | string => "string"
  | number => "number"
  | boolean => "boolean"

def Kind.ofName? (name : String) : Option Kind :=
  [Kind.string, .number, .boolean].find? (·.name = name)

theorem Kind.ofName?_name (kind : Kind) : Kind.ofName? kind.name = some kind := by
  cases kind <;> decide

inductive Value where
  | boolean (flag : Bool)
  | number (number : Float)
  | string (text : String)
deriving DecidableEq

def Value.kind : Value → Kind
  | boolean _ => .boolean
  | number _ => .number
  | string _ => .string

/-- Every value but an infinite or undefined number is finite. -/
def Value.isFinite : Value → Bool
  | number x => x.isFinite
  | _ => true

/-- The bounds and the step of a slider; each may be left open. -/
structure Range where
  lower : Option Float
  upper : Option Float
  step : Option Float
deriving DecidableEq

/-- An entry of a list to choose from: the value it stands for and the text it shows. -/
structure Choice where
  value : Value
  label : String
deriving DecidableEq

/-- A value that the user of a script may choose. -/
structure Parameter where
  name : String
  kind : Kind
  /-- The value chosen, at first the script's own. -/
  value : Value
  description : Option String
  group : Option String
  range : Option Range
  choices : Option (List Choice)
  maxLength : Option Float
deriving DecidableEq

/-- A parameter of the value's kind with nothing else known about it. -/
def Parameter.ofValue (name : String) (value : Value) : Parameter :=
  ⟨name, value.kind, value, none, none, none, none, none⟩

end ParamPanel
