import ParamPanel.Proofs.Script.WellFormed
import ParamPanel.Proofs.Session.Run

/-!
# Picking a choice

A choice is a string, or a number where its parameter takes numbers. So it can be picked whenever
it is of its parameter's kind, and only then: a word among the choices of a number is refused, and
so is every choice of a truth value.
-/

namespace ParamPanel

open Script (Keywords)

/-- The choices of a script are finite, and only those of a number are anything but strings. -/
lemma Script.choice_cases {keywords : Keywords} {script : String} {parameter : Parameter}
    (mem : parameter ∈ parameters keywords script) :
    ∀ choices ∈ parameter.choices, ∀ choice ∈ choices, choice.value.isFinite = true ∧
      (choice.value.kind = .string ∨ choice.value.kind = .number ∧ parameter.kind = .number) := by
  obtain ⟨assignment, -, -, above, -, accounts⟩ := exists_accountsFor mem
  rw [← (isCoherent_parameters keywords script).kind_eq parameter mem]
  exact accounts.decorates.choice_cases

namespace Session

variable {session : Session} {fresh : List Parameter} {chosen : Parameter → Value}

/-- A finite value of the right kind is taken, and the parameter then holds it. -/
lemma Follows.exists_set (h : session.Follows fresh chosen) {parameter : Parameter}
    (mem : parameter ∈ fresh) {value : Value} (kind : value.kind = parameter.kind)
    (finite : value.isFinite = true) :
    ∃ next, session.set parameter.name value = .ok next ∧
      next.get? parameter.name = some { parameter with value } := by
  refine ⟨session.put parameter.name value,
    h.set_eq_ok_iff.mpr ⟨⟨parameter, mem, rfl, kind⟩, finite, rfl⟩, ?_⟩
  rw [(h.put mem kind).get?_of_mem mem, if_pos rfl]

/-- Every choice that a session offers either is of its parameter's kind, and then it can be picked,
or is a string that is offered for a number or a truth value, and then it is refused as such. -/
theorem pick_choice (keywords : Keywords) (edits : List Edit) {parameter : Parameter}
    (mem : parameter ∈ (after keywords edits).parameters) {choices : List Choice}
    (offered : choices ∈ parameter.choices) {choice : Choice} (listed : choice ∈ choices) :
    let session := after keywords edits
    (choice.value.kind = parameter.kind ∧ parameter.kind ≠ .boolean ∧
      ∃ next, session.set parameter.name choice.value = .ok next ∧
        next.get? parameter.name = some { parameter with value := choice.value }) ∨
    (choice.value.kind = .string ∧ parameter.kind ≠ .string ∧
      session.set parameter.name choice.value =
        .error (.kindMismatch parameter.name parameter.kind .string)) := by
  obtain ⟨chosen, h⟩ := follows_after keywords edits
  obtain ⟨given, inside, rfl⟩ := h.exists_of_mem_parameters mem
  obtain ⟨script, -, declared⟩ := exists_script_of_mem_extraction inside
  obtain ⟨finite, sorts⟩ := Script.choice_cases declared choices offered choice listed
  by_cases kind : choice.value.kind = given.kind
  · refine .inl ⟨kind, ?_, h.exists_set inside kind finite⟩
    dsimp only
    rw [← kind]
    rcases sorts with string | ⟨number, -⟩
    · rw [string]
      exact Kind.noConfusion
    · rw [number]
      exact Kind.noConfusion
  · have string : choice.value.kind = .string :=
      sorts.resolve_right fun both => kind (both.1.trans both.2.symm)
    refine .inr ⟨string, ?_, ?_⟩
    · rw [← string]
      exact Ne.symm kind
    · dsimp only
      rw [h.set_of_kind_ne inside kind, string]

/-- The second of two choices, after a number was put in the place of the first. -/
theorem pick_choice_of_number :
    let session := after .standard [.update "size = 1; // [2:two, 3.5:more]\n",
      .set "size" (.number (Float.ofNat 2))]
    ∃ next, session.set "size" (.number (Float.ofScientific 35 true 1)) = .ok next ∧
      (next.get? "size").map Parameter.value = some (.number (Float.ofScientific 35 true 1)) := by
  intro session
  have mem : ⟨"size", .number, .number (Float.ofNat 2), none, none, none,
        some [⟨.number (Float.ofNat 2), "two"⟩, ⟨.number (Float.ofScientific 35 true 1), "more"⟩],
        none⟩ ∈ session.parameters := by
    decide +kernel
  rcases pick_choice .standard _ mem rfl (List.mem_cons_of_mem _ List.mem_cons_self) with
    ⟨-, -, next, taken, held⟩ | ⟨string, -⟩
  · refine ⟨next, taken, ?_⟩
    rw [held]
    rfl
  · cases string

/-- Words are offered for a truth value, and not even the words that write it can be picked. -/
theorem refused_choice :
    let session := after .standard [.update "on = true; // [true, false]\n"]
    ∃ parameter ∈ session.parameters, ∃ choices ∈ parameter.choices, ∃ choice ∈ choices,
      session.set parameter.name choice.value = .error (.kindMismatch "on" .boolean .string) := by
  intro session
  let parameter : Parameter := ⟨"on", .boolean, .boolean true, none, none, none,
    some [⟨.string "true", "true"⟩, ⟨.string "false", "false"⟩], none⟩
  have mem : parameter ∈ session.parameters := by decide +kernel
  have found : session.get? "on" = some parameter := by decide +kernel
  refine ⟨parameter, mem, _, rfl, _, List.mem_cons_self, ?_⟩
  unfold set
  rw [found]
  rfl

end Session

end ParamPanel
