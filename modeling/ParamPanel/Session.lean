import ParamPanel.Parameter.Values
import ParamPanel.Script.Extraction

/-!
# Sessions

A session follows one script while it is edited. Each version of the script brings fresh parameters;
values that were chosen are carried over where name and kind still fit. A value is chosen by name,
and can be taken back to what the script says.
-/

namespace ParamPanel

/-- Why a value is not set or taken back. -/
inductive EditError where
  | unknownParameter (name : String)
  | kindMismatch (name : String) (expected found : Kind)
  | notFinite (name : String)
deriving DecidableEq, Repr

def EditError.message : EditError → String
  | unknownParameter name => "Unknown parameter: " ++ name
  | kindMismatch name expected found =>
    "Type mismatch for " ++ name ++ ": expected " ++ expected.name ++ ", got " ++ found.name
  | notFinite name => "Invalid number for " ++ name ++ ": value must be finite"

/-- The parameters of the current script with the values chosen so far. -/
structure Session where
  keywords : Script.Keywords
  parameters : List Parameter
  /-- The values that the current script gives. -/
  defaults : Values

namespace Session

/-- A session that has seen no script. -/
def new (keywords : Script.Keywords) : Session := ⟨keywords, [], ∅⟩

def update (session : Session) (script : String) : Session :=
  let fresh := Script.parameters session.keywords script
  { session with
    parameters := carryOver session.parameters fresh
    defaults := .ofParameters fresh }

def hasParameters (session : Session) : Bool := !session.parameters.isEmpty

def get? (session : Session) (name : String) : Option Parameter :=
  session.parameters.find? (·.name = name)

/-- The session with another value for one name. -/
def put (session : Session) (name : String) (value : Value) : Session :=
  { session with
    parameters := session.parameters.map fun parameter =>
      if parameter.name = name then { parameter with value } else parameter }

/-- Chooses a value. It has to be of its parameter's kind, and a number has to be finite. -/
def set (session : Session) (name : String) (value : Value) : Except EditError Session :=
  match session.get? name with
  | none => .error (.unknownParameter name)
  | some parameter =>
    if value.kind ≠ parameter.kind then .error (.kindMismatch name parameter.kind value.kind)
    else if value.isFinite then .ok (session.put name value)
    else .error (.notFinite name)

/-- Takes the value of one parameter back to what the script says. -/
def reset (session : Session) (name : String) : Except EditError Session :=
  match session.defaults[name]? with
  | none => .error (.unknownParameter name)
  | some value => .ok (session.put name value)

/-- Takes every value back to what the script says. -/
def resetAll (session : Session) : Session :=
  { session with
    parameters := session.parameters.map fun parameter =>
      { parameter with value := (session.defaults[parameter.name]?).getD parameter.value } }

def overrides (session : Session) : Values := .ofParameters session.parameters

end Session

end ParamPanel
