import ParamPanel.Json.Parameter
import ParamPanel.Session

/-!
# Exchange

Extraction and sessions for a caller who knows JSON only: parameters and values go out as JSON text,
and come in as JSON text.
-/

namespace ParamPanel

/-- Why a call is refused. -/
inductive ExchangeError where
  | json (failure : Json.Failure)
  | edit (error : EditError)
deriving DecidableEq

def ExchangeError.message : ExchangeError → String
  | json .notJson => "JSON error"
  | json (.mismatch cause) => "JSON error: " ++ cause.message
  | edit error => error.message

namespace Exchange

def parametersText (parameters : List Parameter) : String :=
  String.ofList (parametersJson parameters).text

def extract (script : String) : String :=
  parametersText (Script.parameters .standard script)

/-- The parameters that an earlier call gave. A text of white space stands for none. -/
def previousParameters (previous : String) : Json.Decoded (List Parameter) :=
  if (Text.trim previous.toList).isEmpty then .ok [] else parametersOfJsonText previous.toList

/-- The parameters of a script with the values that an earlier call's parameters had. -/
def merge (previous script : String) : Except ExchangeError String :=
  match previousParameters previous with
  | .ok parameters =>
    .ok (parametersText (carryOver parameters (Script.parameters .standard script)))
  | .error failure => .error (.json failure)

end Exchange

namespace Session

/-- Chooses a value given as JSON text. The text is decoded before the name is looked up. -/
def setJson (session : Session) (name text : String) : Except ExchangeError Session :=
  match Value.ofJsonText text.toList with
  | .error failure => .error (.json failure)
  | .ok value => (session.set name value).mapError .edit

def parametersText (session : Session) : String := Exchange.parametersText session.parameters

def overridesText (session : Session) : String := String.ofList session.overrides.toJson.text

end Session

end ParamPanel
