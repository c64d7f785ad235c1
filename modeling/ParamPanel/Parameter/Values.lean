import Std.Data.TreeMap
import ParamPanel.Parameter.Basic

/-!
# Values by name

The values of a list of parameters as a map from names, and their transfer from one list of
parameters to another.
-/

namespace ParamPanel

/-- Values by name, in the order of their names. -/
abbrev Values := Std.TreeMap String Value

/-- The value of each name in a list; of several parameters of one name the last counts. -/
def Values.ofParameters (parameters : List Parameter) : Values :=
  parameters.foldl (fun values parameter => values.insert parameter.name parameter.value) ∅

/-- A parameter with the value held under its name, if that is of the parameter's kind. -/
def Parameter.adopt (parameter : Parameter) (values : Values) : Parameter :=
  match values[parameter.name]? with
  | none => parameter
  | some value => if value.kind = parameter.kind then { parameter with value } else parameter

/-- The fresh parameters with the values that the previous ones of the same names had. All else
about them is fresh, and where the kind has changed so is the value. -/
def carryOver (previous fresh : List Parameter) : List Parameter :=
  fresh.map (·.adopt (.ofParameters previous))

end ParamPanel
