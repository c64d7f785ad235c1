import ParamPanel.Proofs.Parameter.Values

/-!
# Carrying values over

The fresh parameters keep their order and all their fields but one: a value comes from the last
previous parameter of the name, if that value is of the kind that the fresh parameter has. Neither
list need be coherent. Carrying over a second time changes nothing.
-/

namespace ParamPanel

lemma name_adopt (parameter : Parameter) (values : Values) :
    (parameter.adopt values).name = parameter.name := by
  rw [adopt_eq]

lemma map_name_carryOver (previous fresh : List Parameter) :
    (carryOver previous fresh).map Parameter.name = fresh.map Parameter.name := by
  rw [carryOver, List.map_map]
  exact List.map_congr_left fun parameter _ => name_adopt parameter _

/-- What a parameter has taken it takes again. -/
lemma adopt_adopt (parameter : Parameter) (values : Values) :
    (parameter.adopt values).adopt values = parameter.adopt values := by
  cases held : values[parameter.name]? with
  | none => simp [Parameter.adopt, held]
  | some value =>
    by_cases kind : value.kind = parameter.kind
    · simp [Parameter.adopt, held, kind]
    · simp [Parameter.adopt, held, kind]

/-- The value that a parameter ends up with leads it there again: either it was taken before, and is
of the right kind, or it is the parameter's own. -/
lemma adopt_of_getElem? {parameter : Parameter} {values later : Values}
    (held : later[parameter.name]? = some (parameter.adopt values).value) :
    parameter.adopt later = parameter.adopt values := by
  rcases adopt_cases parameter values with own | ⟨value, kind, taken⟩
  · rw [own] at held ⊢
    rw [Parameter.adopt, held]
    dsimp only
    split <;> rfl
  · rw [taken] at held ⊢
    rw [Parameter.adopt, held]
    exact if_pos kind

lemma carryOver_nil (fresh : List Parameter) : carryOver [] fresh = fresh := by
  rw [carryOver]
  conv_rhs => rw [← List.map_id fresh]
  exact List.map_congr_left fun parameter _ => adopt_of_lastNamed?_eq_none rfl

lemma carryOver_carryOver (previous fresh : List Parameter) :
    carryOver previous (carryOver previous fresh) = carryOver previous fresh := by
  simp only [carryOver, List.map_map]
  exact List.map_congr_left fun parameter _ => adopt_adopt parameter _

/-- Parameters with distinct names that get back what was carried over to them stay as they are. -/
lemma carryOver_self_of_nodup {fresh : List Parameter}
    (distinct : (fresh.map Parameter.name).Nodup) (previous : List Parameter) :
    carryOver (carryOver previous fresh) fresh = carryOver previous fresh := by
  have distinct' : ((carryOver previous fresh).map Parameter.name).Nodup := by
    rw [map_name_carryOver]
    exact distinct
  apply List.map_congr_left
  intro parameter mem
  have held := lastNamed?_eq_some_of_mem distinct' (List.mem_map_of_mem mem)
  rw [name_adopt] at held
  apply adopt_of_getElem?
  rw [getElem?_ofParameters, held]
  rfl

/-- Which values are carried over, for parameters of any sort: those of the last ones of each name,
where they are of the right kinds. All else is fresh, and no value is lost or moved when the same
parameters are carried over once more. -/
theorem carryOver_last (previous fresh : List Parameter) :
    let merged := carryOver previous fresh
    merged.length = fresh.length ∧
      (∀ (i : Nat) (parameter : Parameter), fresh[i]? = some parameter → ∃ value,
        merged[i]? = some { parameter with value } ∧
        (parameter.name ∉ previous.map Parameter.name → value = parameter.value) ∧
        ∀ earlier last later, previous = earlier ++ last :: later → last.name = parameter.name →
          (∀ other ∈ later, other.name ≠ parameter.name) →
            value = if last.value.kind = parameter.kind then last.value else parameter.value) ∧
      carryOver [] fresh = fresh ∧
      carryOver previous merged = merged ∧
      ((fresh.map Parameter.name).Nodup →
        carryOver merged fresh = merged ∧ carryOver fresh fresh = fresh) := by
  intro merged
  refine ⟨List.length_map _, ?_, carryOver_nil fresh, carryOver_carryOver previous fresh, ?_⟩
  · intro i parameter placed
    refine ⟨(parameter.adopt (.ofParameters previous)).value, ?_, ?_, ?_⟩
    · rw [← adopt_eq]
      unfold merged carryOver
      rw [List.getElem?_map, placed]
      rfl
    · intro unknown
      rw [adopt_of_lastNamed?_eq_none (lastNamed?_eq_none_iff.mpr unknown)]
    · rintro earlier last later rfl named others
      rw [← named] at others
      have found := lastNamed?_of_split earlier others
      rw [named] at found
      rw [adopt_of_lastNamed? found]
      split <;> rfl
  · intro distinct
    have again := carryOver_self_of_nodup distinct []
    rw [carryOver_nil] at again
    exact ⟨carryOver_self_of_nodup distinct previous, again⟩

/-- The last value of a name is of another kind, so an earlier one that would fit is not carried over
either, and the parameter keeps its own. -/
theorem carryOver_last_of_other_kind :
    let previous : List Parameter :=
      [.ofValue "a" (.boolean true), .ofValue "a" (.string "x"), .ofValue "b" (.string "y")]
    let fresh : List Parameter := [.ofValue "b" (.string "z"), .ofValue "a" (.boolean false)]
    (carryOver previous fresh)[1]? = some (.ofValue "a" (.boolean false)) ∧
      carryOver (carryOver previous fresh) fresh = carryOver previous fresh := by
  intro previous fresh
  obtain ⟨-, values, -, -, again⟩ := carryOver_last previous fresh
  obtain ⟨value, placed, -, carried⟩ := values 1 (.ofValue "a" (.boolean false)) rfl
  have own : value = .boolean false :=
    carried [.ofValue "a" (.boolean true)] (.ofValue "a" (.string "x"))
      [.ofValue "b" (.string "y")] rfl rfl (List.forall_mem_singleton.mpr (by decide))
  have distinct : (fresh.map Parameter.name).Nodup := by decide
  refine ⟨?_, (again distinct).1⟩
  rw [placed, own]
  rfl

end ParamPanel
