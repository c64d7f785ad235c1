import ParamPanel.Json.Decoder
import ParamPanel.Parameter.Values

/-!
# Parameters as JSON

The JSON form of parameters and of values by name, and the way back. Fields that are not known are
left out when written, and may be left out or null when read.
-/

namespace ParamPanel

open Json

/-- A member that is written only when it is known. -/
def Json.optionalMember {α : Type} (key : String) (encode : α → Json) :
    Option α → List (String × Json)
  | some value => [(key, encode value)]
  | none => []

def Value.toJson : Value → Json
  | boolean flag => .bool flag
  | number x => .number x
  | string text => .string text

def Range.toJson (range : Range) : Json :=
  .object (optionalMember "min" .number range.lower ++ optionalMember "max" .number range.upper ++
    optionalMember "step" .number range.step)

def Choice.toJson (choice : Choice) : Json :=
  .object [("value", choice.value.toJson), ("label", .string choice.label)]

def Parameter.toJson (parameter : Parameter) : Json :=
  .object ([("name", .string parameter.name), ("type", .string parameter.kind.name),
      ("value", parameter.value.toJson)] ++
    optionalMember "description" .string parameter.description ++
    optionalMember "group" .string parameter.group ++
    optionalMember "range" Range.toJson parameter.range ++
    optionalMember "options" (fun choices => .array (choices.map Choice.toJson))
      parameter.choices ++
    optionalMember "maxLength" .number parameter.maxLength)

def parametersJson (parameters : List Parameter) : Json := .array (parameters.map Parameter.toJson)

/-- Values by name as JSON, in the order of the names. -/
def Values.toJson (values : Values) : Json :=
  .object (values.toList.map fun (name, value) => (name, value.toJson))

namespace Json.Decoder

def kindNamed (name : String) : Decoded Kind :=
  match Kind.ofName? name with
  | some kind => .ok kind
  | none => .error (.mismatch (.unknownKind name))

/-- A kind: its word, or an object with the word as its only key and null as its value. -/
def kind : Decoder Kind
  | .string (some name) => kindNamed name
  | .object [] (.brokenOff token) => wrongType token.found .variant
  | .object ((some name, value) :: rest) ending => do
    let kind ← kindNamed name
    match value with
    | .null => if rest.isEmpty && ending.isClosed then return kind else .error .notJson
    | _ => wrongType value.found .unit
  | _ => .error .notJson

/-- A value inside `outside` containers. All of it is read before its kind is looked at. At most 127
containers may be open at a time. -/
def value (outside : Nat) : Decoder Value := fun reading =>
  if reading.isWhole true (127 - outside) then
    match reading with
    | .bool flag => .ok (.boolean flag)
    | .number (some n) => .ok (.number n.toFloat)
    | .string (some s) => .ok (.string s)
    | _ => .error (.mismatch .notAValue)
  else .error .notJson

/-- The fields of a range met so far; a field that is null is met too. -/
structure RangeFields where
  lower : Option (Option Float)
  upper : Option (Option Float)
  step : Option (Option Float)

def RangeFields.take (fields : RangeFields) (name : String) : Decoder RangeFields := fun reading =>
  if name = "min" then
    (once name fields.lower (optional number) reading).map ({ fields with lower := · })
  else if name = "max" then
    (once name fields.upper (optional number) reading).map ({ fields with upper := · })
  else if name = "step" then
    (once name fields.step (optional number) reading).map ({ fields with step := · })
  else (ignored reading).map fun _ => fields

/-- A range; any of its fields may be missing. -/
def range : Decoder Range
  | .object fields ending => do
    let found ← members RangeFields.take ⟨none, none, none⟩ fields ending
    return ⟨found.lower.join, found.upper.join, found.step.join⟩
  | .array items ending => do
    let (lower, items) ← next? (optional number) ending items
    let (upper, items) ← next? (optional number) ending items
    let (step, items) ← next? (optional number) ending items
    lastItem ending items
    return ⟨lower.join, upper.join, step.join⟩
  | reading => wrongType reading.found .range

structure ChoiceFields where
  value : Option Value
  label : Option String

def ChoiceFields.take (outside : Nat) (fields : ChoiceFields) (name : String) :
    Decoder ChoiceFields := fun reading =>
  if name = "value" then
    (once name fields.value (Decoder.value (outside + 1)) reading).map ({ fields with value := · })
  else if name = "label" then
    (once name fields.label string reading).map ({ fields with label := · })
  else (ignored reading).map fun _ => fields

def choice (outside : Nat) : Decoder Choice
  | .object fields ending => do
    let found ← members (ChoiceFields.take outside) ⟨none, none⟩ fields ending
    let value ← required "value" found.value
    let label ← required "label" found.label
    return ⟨value, label⟩
  | .array items ending => do
    let (value, items) ← item (value (outside + 1)) ending 0 .choice items
    let (label, items) ← item string ending 1 .choice items
    lastItem ending items
    return ⟨value, label⟩
  | reading => wrongType reading.found .choice

/-- The fields of a parameter met so far; a field that is null is met too. -/
structure ParameterFields where
  name : Option String
  kind : Option Kind
  value : Option Value
  description : Option (Option String)
  group : Option (Option String)
  range : Option (Option Range)
  choices : Option (Option (List Choice))
  maxLength : Option (Option Float)

def ParameterFields.take (outside : Nat) (fields : ParameterFields) (name : String) :
    Decoder ParameterFields := fun reading =>
  if name = "name" then
    (once name fields.name string reading).map ({ fields with name := · })
  else if name = "type" then
    (once name fields.kind Decoder.kind reading).map ({ fields with kind := · })
  else if name = "value" then
    (once name fields.value (Decoder.value (outside + 1)) reading).map ({ fields with value := · })
  else if name = "description" then
    (once name fields.description (optional string) reading).map
      ({ fields with description := · })
  else if name = "group" then
    (once name fields.group (optional string) reading).map ({ fields with group := · })
  else if name = "range" then
    (once name fields.range (optional Decoder.range) reading).map ({ fields with range := · })
  else if name = "options" then
    (once name fields.choices (optional (list (choice (outside + 2)))) reading).map
      ({ fields with choices := · })
  else if name = "maxLength" then
    (once name fields.maxLength (optional number) reading).map ({ fields with maxLength := · })
  else (ignored reading).map fun _ => fields

/-- A parameter inside `outside` containers. Its value need not be of its kind. -/
def parameter (outside : Nat) : Decoder Parameter
  | .object fields ending => do
    let start : ParameterFields := ⟨none, none, none, none, none, none, none, none⟩
    let found ← members (ParameterFields.take outside) start fields ending
    let name ← required "name" found.name
    let kind ← required "type" found.kind
    let value ← required "value" found.value
    return ⟨name, kind, value, found.description.join, found.group.join, found.range.join,
      found.choices.join, found.maxLength.join⟩
  | .array items ending => do
    let (name, items) ← item string ending 0 .parameter items
    let (kind, items) ← item kind ending 1 .parameter items
    let (value, items) ← item (value (outside + 1)) ending 2 .parameter items
    let (description, items) ← next? (optional string) ending items
    let (group, items) ← next? (optional string) ending items
    let (range, items) ← next? (optional range) ending items
    let (choices, items) ← next? (optional (list (choice (outside + 2)))) ending items
    let (maxLength, items) ← next? (optional number) ending items
    lastItem ending items
    return ⟨name, kind, value, description.join, group.join, range.join, choices.join,
      maxLength.join⟩
  | reading => wrongType reading.found .parameter

end Json.Decoder

def Value.ofJsonText (text : List Char) : Decoded Value := (Decoder.value 0).decode text

def Parameter.ofJsonText (text : List Char) : Decoded Parameter := (Decoder.parameter 0).decode text

def parametersOfJsonText (text : List Char) : Decoded (List Parameter) :=
  (Decoder.list (Decoder.parameter 1)).decode text

end ParamPanel
