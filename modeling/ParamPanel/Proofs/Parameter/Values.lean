import ParamPanel.Parameter.Values
import ParamPanel.Proofs.Parameter.LastOfEach

/-!
# Values of coherent parameters

Parameters are coherent when their names are distinct and their values are of their kinds. What is
looked up under a name is then the value of the one parameter that has it, and values that are
carried over keep parameters coherent.
-/

namespace ParamPanel

/-- The names are distinct, and each value is of its parameter's kind. -/
structure IsCoherent (parameters : List Parameter) : Prop where
  nodup_names : (parameters.map Parameter.name).Nodup
  kind_eq : ∀ parameter ∈ parameters, parameter.value.kind = parameter.kind

lemma isCoherent_nil : IsCoherent [] := by
  constructor
  · exact List.nodup_nil
  · intro parameter mem
    cases mem

lemma IsCoherent.eq_of_name_eq {parameters : List Parameter} (h : IsCoherent parameters)
    {parameter other : Parameter} (mem : parameter ∈ parameters) (inside : other ∈ parameters)
    (same : parameter.name = other.name) : parameter = other :=
  List.inj_on_of_nodup_map h.nodup_names mem inside same

lemma IsCoherent.lastNamed?_eq_some_iff {parameters : List Parameter} (h : IsCoherent parameters)
    {name : String} {parameter : Parameter} :
    lastNamed? parameters name = some parameter ↔
      parameter ∈ parameters ∧ parameter.name = name := by
  constructor
  · intro found
    exact ⟨mem_of_lastNamed? found, name_of_lastNamed? found⟩
  · rintro ⟨mem, rfl⟩
    exact lastNamed?_eq_some_of_mem h.nodup_names mem

/-- Of several parameters with one name, the last one's value is looked up. -/
lemma getElem?_ofParameters (parameters : List Parameter) (name : String) :
    (Values.ofParameters parameters)[name]? = (lastNamed? parameters name).map Parameter.value := by
  induction parameters using List.reverseRecOn with
  | nil => simp [Values.ofParameters, lastNamed?]
  | append_singleton parameters parameter ih =>
    have last : Values.ofParameters (parameters ++ [parameter]) =
        (Values.ofParameters parameters).insert parameter.name parameter.value := by
      rw [Values.ofParameters, List.foldl_append]
      rfl
    rw [last, Std.TreeMap.getElem?_insert, ih, lastNamed?_append, lastNamed?_singleton]
    by_cases h : parameter.name = name <;> simp [h]

lemma IsCoherent.getElem?_ofParameters {parameters : List Parameter} (h : IsCoherent parameters)
    {parameter : Parameter} (mem : parameter ∈ parameters) :
    (Values.ofParameters parameters)[parameter.name]? = some parameter.value := by
  rw [ParamPanel.getElem?_ofParameters, lastNamed?_eq_some_of_mem h.nodup_names mem]
  rfl

lemma mem_ofParameters_iff {parameters : List Parameter} {name : String} :
    name ∈ Values.ofParameters parameters ↔ name ∈ parameters.map Parameter.name := by
  rw [Std.TreeMap.mem_iff_isSome_getElem?, getElem?_ofParameters, Option.isSome_map]
  cases h : lastNamed? parameters name with
  | none => simpa using lastNamed?_eq_none_iff.mp h
  | some parameter =>
    have named := name_of_lastNamed? h
    have mem := List.mem_map_of_mem (f := Parameter.name) (mem_of_lastNamed? h)
    rw [named] at mem
    simpa using mem

/-- Other values of the same kinds leave parameters coherent. -/
lemma IsCoherent.map_value {parameters : List Parameter} (h : IsCoherent parameters)
    {chosen : Parameter → Value}
    (kind : ∀ parameter ∈ parameters, (chosen parameter).kind = parameter.kind) :
    IsCoherent (parameters.map fun parameter => { parameter with value := chosen parameter }) := by
  constructor
  · rw [List.map_map]
    exact h.nodup_names
  · intro parameter mem
    obtain ⟨fresh, inside, rfl⟩ := List.mem_map.mp mem
    exact kind fresh inside

/-- A parameter stays as it is or takes a value of its kind. -/
lemma adopt_cases (parameter : Parameter) (values : Values) :
    parameter.adopt values = parameter ∨
      ∃ value : Value, value.kind = parameter.kind ∧
        parameter.adopt values = { parameter with value } := by
  cases held : values[parameter.name]? with
  | none =>
    refine .inl ?_
    rw [Parameter.adopt, held]
  | some value =>
    rw [Parameter.adopt, held]
    by_cases kind : value.kind = parameter.kind
    · exact .inr ⟨value, kind, if_pos kind⟩
    · exact .inl (if_neg kind)

lemma adopt_eq (parameter : Parameter) (values : Values) :
    parameter.adopt values = { parameter with value := (parameter.adopt values).value } := by
  rcases adopt_cases parameter values with own | ⟨value, -, taken⟩
  · rw [own]
  · rw [taken]

lemma kind_value_adopt {parameter : Parameter} (h : parameter.value.kind = parameter.kind)
    (values : Values) : (parameter.adopt values).value.kind = parameter.kind := by
  rcases adopt_cases parameter values with own | ⟨value, kind, taken⟩
  · rw [own]
    exact h
  · rw [taken]
    exact kind

/-- A parameter takes the value of the last one of its name, if that is of its kind. -/
lemma adopt_of_lastNamed? {previous : List Parameter} {parameter last : Parameter}
    (found : lastNamed? previous parameter.name = some last) :
    parameter.adopt (.ofParameters previous) =
      if last.value.kind = parameter.kind then { parameter with value := last.value }
      else parameter := by
  rw [Parameter.adopt, getElem?_ofParameters, found]
  rfl

lemma adopt_of_lastNamed?_eq_none {previous : List Parameter} {parameter : Parameter}
    (missing : lastNamed? previous parameter.name = none) :
    parameter.adopt (.ofParameters previous) = parameter := by
  rw [Parameter.adopt, getElem?_ofParameters, missing]
  rfl

end ParamPanel
