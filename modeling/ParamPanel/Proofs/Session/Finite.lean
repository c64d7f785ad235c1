import ParamPanel.Proofs.Json.Content
import ParamPanel.Proofs.Script.WellFormed
import ParamPanel.Proofs.Session.Calls
import ParamPanel.Proofs.Session.History

/-!
# Finite numbers

Numbers come from assignments, from comments and from what is set, and they go out as JSON. All of
them are finite but for one way in: nothing checks the literal of an assignment, and one beyond the
doubles is infinite, which JSON has no word for.
-/

namespace ParamPanel

open Json
open Script (Keywords)

namespace Script

/-- An assignment of the script writes the value of a name as a plain number beyond the doubles. -/
def WritesBeyond (keywords : Keywords) (script name : String) (value : Value) : Prop :=
  ∃ assignment ∈ declaredAssignments (declared keywords script),
    String.ofList assignment.name = name ∧ ∃ literal,
      Decimal.Literal.plain? (Text.trim assignment.expression) = some literal ∧
        literal.toFloat.isFinite = false ∧ value = .number literal.toFloat

lemma exists_literal_of_not_isFinite {expression : List Char}
    (h : (valueOf expression).isFinite = false) :
    ∃ literal, Decimal.Literal.plain? (Text.trim expression) = some literal ∧
      literal.toFloat.isFinite = false ∧ valueOf expression = .number literal.toFloat := by
  cases read : valueOf expression with
  | number x =>
    obtain ⟨literal, written, rfl⟩ := valueOf_eq_number_iff.mp read
    rw [read] at h
    exact ⟨literal, Decimal.Literal.plain?_eq_some_iff.mpr written, h, rfl⟩
  | boolean flag =>
    rw [read] at h
    cases h
  | string text =>
    rw [read] at h
    cases h

lemma IsClosedRange.isFinite {range : Range} (h : IsClosedRange range) :
    ∀ x ∈ range.numbers, x.isFinite = true := by
  obtain ⟨lower, lower_eq, lower_finite⟩ := h.lower
  obtain ⟨upper, upper_eq, upper_finite⟩ := h.upper
  intro x mem
  simp only [Range.numbers, lower_eq, upper_eq, Option.toList_some, List.mem_append,
    List.mem_singleton, Option.mem_toList] at mem
  rcases mem with (rfl | rfl) | given
  · exact lower_finite
  · exact upper_finite
  · exact h.step x given

namespace Hint.Decorates

variable {kind : Kind} {hint : Hint} {range : Option Range} {choices : Option (List Choice)}
  {maxLength : Option Float}

lemma isFinite_range (h : hint.Decorates kind range choices maxLength) (sound : hint.IsSound) :
    ∀ found ∈ range, ∀ x ∈ found.numbers, x.isFinite = true := by
  intro found given x mem
  cases h with
  | step limit _ =>
    cases given
    rw [List.mem_singleton.mp mem]
    exact sound
  | range closed _ =>
    cases given
    exact IsClosedRange.isFinite sound x mem
  | _ => cases given

lemma isFinite_maxLength (h : hint.Decorates kind range choices maxLength) (sound : hint.IsSound) :
    ∀ limit ∈ maxLength, limit.isFinite = true := by
  intro limit given
  cases h with
  | maxLength bound _ =>
    cases given
    exact sound
  | _ => cases given

end Hint.Decorates

variable {keywords : Keywords} {script : String} {parameter : Parameter}

lemma isFinite_decoration (mem : parameter ∈ parameters keywords script) :
    ∀ x ∈ parameter.decorationNumbers, x.isFinite = true := by
  obtain ⟨assignment, -, -, above, -, accounts⟩ := exists_accountsFor mem
  have sound := isSound_hint assignment
  simp only [Parameter.decorationNumbers, List.forall_mem_append, List.forall_mem_flatMap,
    Option.mem_toList]
  refine ⟨⟨accounts.decorates.isFinite_range sound, ?_⟩,
    accounts.decorates.isFinite_maxLength sound⟩
  intro choices given choice inside
  rw [← Value.isFinite_iff]
  exact (accounts.decorates.choice_cases choices given choice inside).1

lemma isFinite_or_writesBeyond (mem : parameter ∈ parameters keywords script) :
    parameter.value.isFinite = true ∨
      WritesBeyond keywords script parameter.name parameter.value := by
  obtain ⟨assignment, inside, named, above, -, accounts⟩ := exists_accountsFor mem
  cases finite : parameter.value.isFinite with
  | true => exact .inl rfl
  | false =>
    rw [accounts.value_eq] at finite
    obtain ⟨literal, plain, beyond, value⟩ := exists_literal_of_not_isFinite finite
    exact .inr ⟨assignment, inside, named.symm, literal, plain, beyond,
      accounts.value_eq.trans value⟩

end Script

namespace Session

variable {keywords : Keywords} {edits : List Edit}

/-- An edit writes a finite value or one that the latest script gives. -/
lemma written?_cases {edit : Edit} {name : String} {value : Value}
    (h : written? keywords edits name edit = some value) :
    value.isFinite = true ∨ ∃ script ∈ edits.filterMap Edit.script?,
      ∃ parameter ∈ Script.parameters keywords script,
        parameter.name = name ∧ parameter.value = value := by
  have given (h : default? keywords edits name = some value) :
      ∃ script ∈ edits.filterMap Edit.script?, ∃ parameter ∈ Script.parameters keywords script,
        parameter.name = name ∧ parameter.value = value := by
    obtain ⟨parameter, found, same⟩ := Option.map_eq_some_iff.mp h
    obtain ⟨script, brought, mem⟩ := exists_script_of_mem_extraction (mem_of_lastNamed? found)
    exact ⟨script, brought, parameter, mem, name_of_lastNamed? found, same⟩
  cases edit with
  | update script => cases h
  | set other chosen =>
    simp only [written?] at h
    split at h
    · rename_i taken
      cases h
      obtain ⟨next, result⟩ : ∃ next, (after keywords edits).set other value = .ok next := by
        cases result : (after keywords edits).set other value with
        | error error => simp [result, Except.isOk, Except.toBool] at taken
        | ok next => exact ⟨next, rfl⟩
      obtain ⟨_, follows⟩ := follows_after keywords edits
      exact .inl (follows.set_eq_ok_iff.mp result).2.1
    · cases h
  | reset other =>
    simp only [written?] at h
    split at h
    · exact .inr (given h)
    · cases h
  | resetAll => exact .inr (given h)

/-- What holds of finite values and of those that scripts give holds of all values of a session. -/
theorem value_after (holds : String → Value → Prop)
    (finite : ∀ name value, value.isFinite = true → holds name value)
    (given : ∀ script ∈ edits.filterMap Edit.script?,
      ∀ parameter ∈ Script.parameters keywords script, holds parameter.name parameter.value) :
    ∀ parameter ∈ (after keywords edits).parameters, holds parameter.name parameter.value := by
  induction edits using List.reverseRecOn with
  | nil =>
    intro parameter mem
    cases mem
  | append_singleton edits edit ih =>
    have earlier : ∀ script ∈ edits.filterMap Edit.script?,
        ∀ parameter ∈ Script.parameters keywords script, holds parameter.name parameter.value := by
      intro script mem
      apply given
      rw [List.filterMap_append]
      exact List.mem_append_left _ mem
    intro parameter mem
    rcases value_concat mem with
      ⟨old, held, named, -, value⟩ | ⟨script, rfl, ⟨first, inside, named, value⟩, -⟩
    · rw [value]
      cases wrote : written? keywords edits parameter.name edit with
      | none => exact named ▸ ih earlier old held
      | some other =>
        rcases written?_cases wrote with checked | ⟨script, brought, source, inside, same, rfl⟩
        · exact finite _ _ checked
        · exact same ▸ earlier script brought source inside
    · rw [← named, ← value]
      refine given script ?_ first inside
      rw [List.filterMap_append]
      exact List.mem_append_right _ (List.mem_singleton.mpr rfl)

lemma isFinite_decoration_after : ∀ parameter ∈ (after keywords edits).parameters,
    ∀ x ∈ parameter.decorationNumbers, x.isFinite = true := by
  obtain ⟨chosen, h⟩ := follows_after keywords edits
  intro parameter mem
  obtain ⟨given, inside, rfl⟩ := h.exists_of_mem_parameters mem
  obtain ⟨script, -, declares⟩ := exists_script_of_mem_extraction inside
  have finite := Script.isFinite_decoration declares
  exact finite

lemma isFreeOfNull_parametersJson_iff {parameters : List Parameter}
    (decorated : ∀ parameter ∈ parameters, ∀ x ∈ parameter.decorationNumbers, x.isFinite = true) :
    (parametersJson parameters).IsFreeOfNull ↔
      ∀ parameter ∈ parameters, parameter.value.isFinite = true := by
  unfold IsFreeOfNull
  simp only [all_parametersJson_iff isNumeric_ne_null, text_number_ne_null_iff, Parameter.numbers,
    List.forall_mem_append, ← Value.isFinite_iff]
  exact ⟨fun all parameter mem => (all parameter mem).1,
    fun all parameter mem => ⟨all parameter mem, decorated parameter mem⟩⟩

lemma isFreeOfNull_overrides_iff {session : Session} (coherent : IsCoherent session.parameters) :
    session.overrides.toJson.IsFreeOfNull ↔
      ∀ parameter ∈ session.parameters, parameter.value.isFinite = true := by
  unfold IsFreeOfNull overrides
  simp only [Values.all_toJson_iff isNumeric_ne_null, text_number_ne_null_iff,
    ← Value.isFinite_iff]
  constructor
  · intro all parameter mem
    exact all _ _ (coherent.getElem?_ofParameters mem)
  · intro all name value found
    rw [getElem?_ofParameters] at found
    obtain ⟨parameter, last, rfl⟩ := Option.map_eq_some_iff.mp found
    exact all parameter (mem_of_lastNamed? last)

/-- Every number that a session hands out is finite, unless a script has written it as the value of
that name and beyond the doubles; without such a value nothing is handed out as null. -/
theorem finite_after (keywords : Keywords) (edits : List Edit) :
    let session := after keywords edits
    (∀ parameter ∈ session.parameters, (∀ x ∈ parameter.decorationNumbers, x.isFinite = true) ∧
        (parameter.value.isFinite = true ∨ ∃ script ∈ edits.filterMap Edit.script?,
          Script.WritesBeyond keywords script parameter.name parameter.value)) ∧
      ((parametersJson session.parameters).IsFreeOfNull ↔
        ∀ parameter ∈ session.parameters, parameter.value.isFinite = true) ∧
      (session.overrides.toJson.IsFreeOfNull ↔
        ∀ parameter ∈ session.parameters, parameter.value.isFinite = true) ∧
      ∀ calls, calls.filterMap Call.edit? = edits → afterCalls keywords calls = session := by
  intro session
  obtain ⟨chosen, h⟩ := follows_after keywords edits
  refine ⟨fun parameter mem => ⟨isFinite_decoration_after parameter mem, ?_⟩,
    isFreeOfNull_parametersJson_iff isFinite_decoration_after,
    isFreeOfNull_overrides_iff h.isCoherent_parameters, ?_⟩
  · refine value_after (fun name value => value.isFinite = true ∨
      ∃ script ∈ edits.filterMap Edit.script?, Script.WritesBeyond keywords script name value)
      (fun _ _ => .inl) ?_ parameter mem
    intro script brought parameter mem
    exact (Script.isFinite_or_writesBeyond mem).imp_right fun beyond => ⟨script, brought, beyond⟩
  · intro calls same
    rw [afterCalls_eq, same]

/-- A literal of one digit more than the largest doubles have. -/
theorem null_after_long_literal :
    let script := String.ofList (['x', '='] ++ List.replicate 310 '9' ++ [';'])
    let session := afterCalls .standard [.update script]
    (∃ parameter ∈ session.parameters, parameter.value.isFinite = false) ∧
      session.overridesText = "\x7b\"x\":null\x7d" := by
  intro script session
  -- Evaluation starts from the characters, since it is slow to take a text of this length apart.
  have found : Script.parameters .standard script = [.ofValue "x" (.number Decimal.infinity)] := by
    rw [Script.parameters_eq, Script.declared, String.toList_ofList]
    decide +kernel
  have held : session.parameters = [.ofValue "x" (.number Decimal.infinity)] := by
    unfold session afterCalls
    rw [List.foldl_cons, List.foldl_nil, answer, called, update]
    dsimp only [new]
    rw [found]
    decide +kernel
  unfold overridesText overrides
  rw [held]
  decide +kernel

end Session

end ParamPanel
