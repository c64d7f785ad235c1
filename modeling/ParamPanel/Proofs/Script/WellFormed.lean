import ParamPanel.Proofs.Script.Expression
import ParamPanel.Proofs.Script.Hint
import ParamPanel.Proofs.Script.Provenance

/-!
# What extracted parameters look like

Whatever a script says, its parameters are well formed: each stage that a field goes through leaves
it in the shape that a panel counts on.
-/

namespace ParamPanel

open Text

/-- A parameter as a script declares it. -/
structure Parameter.IsWellFormed (parameter : Parameter) : Prop where
  name_ne : parameter.name ≠ ""
  name_chars : ∀ c ∈ parameter.name.toList, isNameChar c = true
  kind_eq : parameter.kind = parameter.value.kind
  one_decoration : [parameter.range.isSome, parameter.choices.isSome,
    parameter.maxLength.isSome].count true ≤ 1
  string_of_maxLength : parameter.maxLength ≠ none → parameter.kind = .string
  not_string_of_range : parameter.range ≠ none → parameter.kind = .number ∨
    parameter.kind = .boolean
  range_shape : ∀ range ∈ parameter.range,
    range.lower = none ∧ range.upper = none ∧ range.step ≠ none ∨
      range.lower ≠ none ∧ range.upper ≠ none
  two_choices : ∀ choices ∈ parameter.choices, 2 ≤ choices.length
  choice_kind : ∀ choices ∈ parameter.choices, ∀ choice ∈ choices,
    choice.value.kind = .string ∨ choice.value.kind = .number ∧ parameter.kind = .number
  group_label : ∀ group ∈ parameter.group, group ≠ "" ∧ trim group.toList = group.toList ∧
    Script.bracketOpen ∉ group.toList ∧ Script.bracketClose ∉ group.toList
  description_line : ∀ description ∈ parameter.description, description ≠ "" ∧
    trim description.toList = description.toList ∧ IsSingleLine description.toList
  value_statement : ∀ text, parameter.value = .string text → Script.statementEnd ∉ text.toList

namespace Script

/-- The name and the expression of an assignment, as they are read. -/
structure Assignment.IsRead (assignment : Assignment) : Prop where
  name_ne : assignment.name ≠ []
  name_chars : ∀ c ∈ assignment.name, isNameChar c = true
  unended : statementEnd ∉ assignment.expression

lemma isRead_of_mem_declaredAssignments {text : List Char} {assignment : Assignment}
    (mem : assignment ∈ declaredAssignments text) : assignment.IsRead := by
  obtain ⟨part, inside, found⟩ := List.mem_flatMap.mp mem
  obtain ⟨front, code, post, rfl, stands⟩ := stands_of_mem_sections inside
  rw [stands.span_eq, assignments_append stands.endsLine_front] at found
  obtain ⟨own, own_mem, rfl⟩ := List.mem_map.mp found
  obtain ⟨start, next, -, -, -, read⟩ :=
    exists_read_of_mem_scan (Cursor.isOn_ofText code) (mem_scan_of_mem_assignments own_mem)
  obtain ⟨sign, stop, named, -, -, -, -, -, rfl⟩ := readAssignment_eq_assigned_iff.mp read
  refine ⟨named, fun c mem => List.mem_takeWhile_imp mem, fun mem => ?_⟩
  have passed := List.mem_takeWhile_imp (mem_of_mem_trim mem)
  simp at passed

/-- What a parameter of a script comes from: an assignment and lines above it. -/
lemma exists_accountsFor {keywords : Keywords} {script : String} {parameter : Parameter}
    (mem : parameter ∈ parameters keywords script) :
    ∃ assignment ∈ declaredAssignments (declared keywords script),
      parameter.name = String.ofList assignment.name ∧
      ∃ above, (∀ line ∈ above, line ∈ lines (declared keywords script)) ∧
        assignment.AccountsFor above parameter := by
  rw [parameters_eq, mem_lastOfEach_iff] at mem
  have declared_mem := mem_of_lastNamed? mem
  rw [declaredParameters_eq_map] at declared_mem
  obtain ⟨assignment, inside, rfl⟩ := List.mem_map.mp declared_mem
  obtain ⟨part, -, before, own, rest, post, whole, stands⟩ := exists_standsUnder inside
  refine ⟨assignment, inside, name_parameterIn assignment _, lines before, ?_,
    accountsFor_parameterIn (by rw [← whole, List.append_assoc]) stands.toStands⟩
  intro line above
  rw [← whole, List.append_assoc, lines_append stands.endsLine]
  exact List.mem_append_left _ above

lemma isSingleLine_of_mem_lines {keywords : Keywords} {script : String} {line : Line}
    (mem : line ∈ lines (declared keywords script)) : IsSingleLine line.text := by
  have text_mem := List.mem_map_of_mem (f := Line.text) mem
  rw [map_text_lines] at text_mem
  obtain ⟨raw, raw_mem, same⟩ := List.mem_map.mp text_mem
  rw [← same]
  constructor
  · intro inside
    simpa using List.mem_takeWhile_imp inside
  · intro inside
    apply not_mem_declared keywords script
    rw [← flatten_rawLines (declared keywords script)]
    exact List.mem_flatten.mpr ⟨raw, raw_mem, (List.takeWhile_prefix _).subset inside⟩

lemma isSound_hint (assignment : Assignment) : assignment.hint.IsSound := by
  unfold Assignment.hint
  split
  · exact isSound_ofComment _
  · trivial

lemma Assignment.AccountsFor.decorates {assignment : Assignment} {above : List Line}
    {parameter : Parameter} (h : assignment.AccountsFor above parameter) :
    assignment.hint.Decorates parameter.value.kind parameter.range parameter.choices
      parameter.maxLength := by
  have shown := assignment.hint.decorates_apply (String.ofList assignment.name)
    (valueOf assignment.expression)
  have range_eq := congrArg Parameter.range h.decorated
  have choices_eq := congrArg Parameter.choices h.decorated
  have maxLength_eq := congrArg Parameter.maxLength h.decorated
  dsimp only at range_eq choices_eq maxLength_eq
  rwa [h.value_eq, range_eq, choices_eq, maxLength_eq]

lemma label_shape {line label : List Char} (h : headingLabel? line = some label) :
    label ≠ [] ∧ trim label = label ∧ bracketOpen ∉ label ∧ bracketClose ∉ label := by
  obtain ⟨comment, inner, -, -, no_open, no_close, filled, rfl⟩ := headingLabel?_eq_some_iff.mp h
  exact ⟨filled, trim_trim inner, fun mem => no_open (mem_of_mem_trim mem),
    fun mem => no_close (mem_of_mem_trim mem)⟩

lemma Assignment.AccountsFor.group_label {assignment : Assignment} {above : List Line}
    {parameter : Parameter} (h : assignment.AccountsFor above parameter) :
    ∀ group ∈ parameter.group, group ≠ "" ∧ trim group.toList = group.toList ∧
      bracketOpen ∉ group.toList ∧ bracketClose ∉ group.toList := by
  intro group given
  rw [h.group_eq, Option.mem_def, Option.map_eq_some_iff] at given
  obtain ⟨label, last, rfl⟩ := given
  obtain ⟨line, -, heading⟩ := List.mem_filterMap.mp (List.mem_of_getLast? last)
  obtain ⟨filled, shape⟩ := label_shape heading
  rw [String.toList_ofList]
  exact ⟨by simpa using filled, shape⟩

lemma Assignment.AccountsFor.description_line {assignment : Assignment} {above : List Line}
    {parameter : Parameter} (h : assignment.AccountsFor above parameter)
    (single : ∀ line ∈ above, IsSingleLine line.text) :
    ∀ description ∈ parameter.description, description ≠ "" ∧
      trim description.toList = description.toList ∧ IsSingleLine description.toList := by
  intro description given
  obtain ⟨line, last, comment, marked, filled, rfl⟩ := (h.description_iff description).mp given
  have inside : ∀ c ∈ trim comment, c ∈ line.text := by
    intro c mem
    apply mem_of_mem_trim
    rw [marked]
    exact List.mem_append_right _ (mem_of_mem_trim mem)
  have free := single line (List.mem_of_getLast? last)
  rw [String.toList_ofList]
  exact ⟨by simpa using filled, trim_trim comment, fun mem => free.1 (inside _ mem),
    fun mem => free.2 (inside _ mem)⟩

/-- The parameters of every script are well formed, and no two of them have one name. -/
theorem parameters_wellFormed (keywords : Keywords) (script : String) :
    (∀ parameter ∈ parameters keywords script, parameter.IsWellFormed) ∧
      ((parameters keywords script).map Parameter.name).Nodup := by
  refine ⟨?_, (isCoherent_parameters keywords script).nodup_names⟩
  intro parameter mem
  obtain ⟨assignment, inside, name_eq, above, lines_of, accounts⟩ := exists_accountsFor mem
  have read := isRead_of_mem_declaredAssignments inside
  have sound := isSound_hint assignment
  have kind_eq : parameter.value.kind = parameter.kind :=
    (isCoherent_parameters keywords script).kind_eq parameter mem
  have decorates := accounts.decorates
  rw [kind_eq] at decorates
  exact {
    name_ne := by
      rw [name_eq]
      simpa using read.name_ne
    name_chars := by
      rw [name_eq, String.toList_ofList]
      exact read.name_chars
    kind_eq := kind_eq.symm
    one_decoration := decorates.count_le
    string_of_maxLength := decorates.string_of_maxLength
    not_string_of_range := by
      intro given
      have other := decorates.not_string_of_range given
      cases kind : parameter.kind with
      | string => exact absurd kind other
      | number => exact .inl rfl
      | boolean => exact .inr rfl
    range_shape := decorates.range_shape sound
    two_choices := decorates.two_le_length_choices sound
    choice_kind := fun choices given choice mem =>
      (decorates.choice_cases choices given choice mem).2
    group_label := accounts.group_label
    description_line := accounts.description_line fun line mem =>
      isSingleLine_of_mem_lines (lines_of line mem)
    value_statement := by
      intro text value_eq mem
      rw [accounts.value_eq] at value_eq
      exact read.unended (mem_of_valueOf_eq_string value_eq _ mem) }

/-- A number with choices in a labelled group, one of which is not a number. -/
theorem wellFormed_of_choices :
    let script := "/* [Size] */\n// how far\nwidth = 1.5; // [2, b : none]\n"
    let parameter : Parameter := ⟨"width", .number, .number (Float.ofScientific 15 true 1),
      some "how far", some "Size", none,
      some [⟨.number (Float.ofNat 2), "2"⟩, ⟨.string "b", "none"⟩], none⟩
    parameter ∈ parameters .standard script ∧ parameter.IsWellFormed := by
  intro script parameter
  have mem : parameter ∈ parameters .standard script := by decide +kernel
  exact ⟨mem, (parameters_wellFormed .standard script).1 parameter mem⟩

end Script

end ParamPanel
