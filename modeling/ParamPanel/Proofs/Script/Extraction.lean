import ParamPanel.Script.Extraction
import ParamPanel.Proofs.Parameter.LastOfEach
import ParamPanel.Proofs.Parameter.Values

/-!
# Extracted parameters

Extraction keeps the last parameter of each name. A hint decorates a parameter without touching its
kind or its value, so the parameters of any script are coherent.
-/

namespace ParamPanel.Script

lemma parameters_eq (keywords : Keywords) (script : String) :
    parameters keywords script = lastOfEach (declaredParameters (declared keywords script)) :=
  Table.toList_ofList _

/-- A hint only decorates. -/
lemma Hint.apply_eq (hint : Hint) (parameter : Parameter) :
    hint.apply parameter =
      { parameter with
        range := (hint.apply parameter).range
        choices := (hint.apply parameter).choices
        maxLength := (hint.apply parameter).maxLength } := by
  unfold Hint.apply
  split
  · split <;> rfl
  · rfl
  · split <;> rfl
  · rfl

lemma Hint.name_apply (hint : Hint) (parameter : Parameter) :
    (hint.apply parameter).name = parameter.name := by
  rw [Hint.apply_eq]

lemma Hint.kind_apply (hint : Hint) (parameter : Parameter) :
    (hint.apply parameter).kind = parameter.kind := by
  rw [Hint.apply_eq]

lemma Hint.value_apply (hint : Hint) (parameter : Parameter) :
    (hint.apply parameter).value = parameter.value := by
  rw [Hint.apply_eq]

lemma Assignment.kind_parameter (assignment : Assignment) (lines : Array Text.Line)
    (group : Option String) :
    (assignment.parameter lines group).value.kind = (assignment.parameter lines group).kind := by
  change (assignment.hint.apply assignment.bareParameter).value.kind =
    (assignment.hint.apply assignment.bareParameter).kind
  rw [Hint.value_apply, Hint.kind_apply]
  rfl

lemma kind_of_mem_declaredParameters {text : List Char} {parameter : Parameter}
    (mem : parameter ∈ declaredParameters text) : parameter.value.kind = parameter.kind := by
  obtain ⟨part, -, mem⟩ := List.mem_flatMap.mp mem
  obtain ⟨assignment, -, rfl⟩ := List.mem_map.mp mem
  exact assignment.kind_parameter _ _

/-- The parameters of a script have distinct names and values of their kinds. -/
theorem isCoherent_parameters (keywords : Keywords) (script : String) :
    IsCoherent (parameters keywords script) := by
  constructor
  · rw [parameters_eq]
    exact nodup_names_lastOfEach _
  · intro parameter mem
    rw [parameters_eq, mem_lastOfEach_iff] at mem
    exact kind_of_mem_declaredParameters (mem_of_lastNamed? mem)

end ParamPanel.Script
