import ParamPanel.Json.Failure

/-!
# Decoders

What records are decoded with. A decoder takes a reading apart from front to back and fails at the
first fault. A record is an object with its fields as members in any order, or an array of its
fields in their own order.
-/

namespace ParamPanel.Json

/-- Something made from a reading. -/
abbrev Decoder (α : Type) := Reading → Decoded α

/-- An end that is as it should be. -/
def Ending.check : Ending → Decoded Unit
  | closed => .ok ()
  | brokenOff _ => .error .notJson

namespace Decoder

variable {α β : Type}

def string : Decoder String
  | .string (some s) => .ok s
  | reading => wrongType reading.found .string

def number : Decoder Float
  | .number (some n) => .ok n.toFloat
  | reading => wrongType reading.found .number

/-- Null, or what `decoder` decodes. -/
def optional (decoder : Decoder α) : Decoder (Option α)
  | .null => .ok none
  | reading => (decoder reading).map some

def list (decoder : Decoder α) : Decoder (List α)
  | .array items ending => do
    let values ← items.mapM decoder
    ending.check
    return values
  | reading => wrongType reading.found .array

/-- Any value, whatever it is, as long as all of it is there. -/
def ignored : Decoder Unit := fun reading =>
  if reading.isWhole false 0 then .ok () else .error .notJson

/-- A field that may be set once. -/
def once (name : String) (field : Option α) (decoder : Decoder α) : Decoder (Option α) :=
  fun reading =>
    if field.isSome then .error (.mismatch (.duplicateField name)) else (decoder reading).map some

/-- A field that has to be there at the end of an object. -/
def required (name : String) : Option α → Decoded α
  | some value => .ok value
  | none => .error (.mismatch (.missingField name))

/-- An object: its members are taken in one after another, and its end is checked after them. -/
def members (take : β → String → Decoder β) (start : β) (fields : List (Option String × Reading))
    (ending : Ending) : Decoded β := do
  let taken ← fields.foldlM (fun fields (key, value) =>
    match key with
    | none => .error .notJson
    | some name => take fields name value) start
  ending.check
  return taken

/-- The next item of an array, or none at its end. -/
def next? (decoder : Decoder α) (ending : Ending) :
    List Reading → Decoded (Option α × List Reading)
  | [] => ending.check.map fun _ => (none, [])
  | item :: items => (decoder item).map fun value => (some value, items)

/-- The next item of an array that stands for a record, at a place that has to be filled. -/
def item (decoder : Decoder α) (ending : Ending) (place : Nat) (wanted : Wanted)
    (items : List Reading) : Decoded (α × List Reading) := do
  match ← next? decoder ending items with
  | (some value, items) => return (value, items)
  | (none, _) => .error (.mismatch (.tooShort place wanted))

/-- The end of an array that stands for a record; there are no items beyond its fields. -/
def lastItem (ending : Ending) (items : List Reading) : Decoded Unit :=
  if items.isEmpty then ending.check else .error .notJson

/-- Decodes a text that holds one value and nothing else. -/
def decode (decoder : Decoder α) (text : List Char) : Decoded α := do
  let (reading, clean) := Reading.ofText text
  let value ← decoder reading
  if clean then return value else .error .notJson

end Decoder

end ParamPanel.Json
