import ParamPanel.Proofs.Session.Exchange
import ParamPanel.Proofs.Text.ByteOrder

/-!
# Two views of a session

A session shows its values twice: each parameter with its value among its fields, and the overrides
with one member a name. Both show the same values under the same names, in the same words.
-/

namespace ParamPanel

namespace Json

/-- The values that an object has under a name, in order. -/
def valuesUnder (key : String) : Json → List Json
  | object members => (members.filter (·.1 = key)).map Prod.snd
  | _ => []

lemma valuesUnder_object_of_mem {key : String} {value : Json} {members : List (String × Json)}
    (distinct : (members.map Prod.fst).Nodup) (mem : (key, value) ∈ members) :
    (object members).valuesUnder key = [value] := by
  induction members with
  | nil => cases mem
  | cons member members ih =>
    rw [List.map_cons, List.nodup_cons] at distinct
    obtain ⟨first, later⟩ := distinct
    rcases List.mem_cons.mp mem with rfl | mem
    · have others : members.filter (·.1 = key) = [] := by
        rw [List.filter_eq_nil_iff]
        intro other inside same
        exact first (List.mem_map.mpr ⟨other, inside, of_decide_eq_true same⟩)
      simp [valuesUnder, others]
    · have other : member.1 ≠ key := by
        intro same
        exact first (List.mem_map.mpr ⟨(key, value), mem, same.symm⟩)
      rw [← ih later mem]
      simp [valuesUnder, other]

lemma filter_optionalMember {α : Type} {key other : String} (different : other ≠ key)
    (encode : α → Json) (value : Option α) :
    (optionalMember other encode value).filter (·.1 = key) = [] := by
  cases value with
  | none => rfl
  | some x => simp [optionalMember, different]

end Json

open Json
open Script (Keywords)

/-- The JSON that a value is turned into when it is to be a member: there is no JSON number for what
is infinite or undefined. -/
def Value.toMember : Value → Json
  | boolean flag => .bool flag
  | number x => if x.isFinite then .number x else .null
  | string text => .string text

lemma Value.text_toMember (value : Value) : value.toMember.text = value.toJson.text := by
  cases value with
  | boolean flag => rfl
  | number x =>
    by_cases finite : x.isFinite = true
    · simp [toMember, toJson, finite]
    · simp [toMember, toJson, finite, text, numberText]
  | string text => rfl

/-- An object has the same text when its members have. -/
lemma membersText_map_congr {α : Type} {key : α → String} {value other : α → Json} {entries : List α}
    (same : ∀ entry ∈ entries, (value entry).text = (other entry).text) :
    membersText (entries.map fun entry => (key entry, value entry)) =
      membersText (entries.map fun entry => (key entry, other entry)) := by
  induction entries with
  | nil => rfl
  | cons entry entries ih =>
    rw [List.forall_mem_cons] at same
    have rest := ih same.2
    cases entries with
    | nil => simp [membersText, same.1]
    | cons next entries =>
      simp only [List.map_cons] at rest ⊢
      simp only [membersText, same.1, rest]

lemma Parameter.valuesUnder_name (parameter : Parameter) :
    parameter.toJson.valuesUnder "name" = [.string parameter.name] := by
  simp [toJson, valuesUnder, filter_optionalMember]

lemma Parameter.valuesUnder_value (parameter : Parameter) :
    parameter.toJson.valuesUnder "value" = [parameter.value.toJson] := by
  simp [toJson, valuesUnder, filter_optionalMember]

lemma Values.pairwise_lt_names (values : Values) :
    (values.toList.map Prod.fst).Pairwise (· < ·) := by
  rw [List.pairwise_map]
  apply Std.TreeMap.ordered_keys_toList.imp
  intro entry other less
  exact compare_lt_iff_lt.mp less

lemma Values.mem_names_iff {values : Values} {name : String} :
    name ∈ values.toList.map Prod.fst ↔ name ∈ values := by
  rw [Std.TreeMap.map_fst_toList_eq_keys, Std.TreeMap.mem_keys]

lemma perm_names_ofParameters {parameters : List Parameter} (h : IsCoherent parameters) :
    ((Values.ofParameters parameters).toList.map Prod.fst).Perm
      (parameters.map Parameter.name) := by
  have distinct := (Values.ofParameters parameters).pairwise_lt_names.imp fun less => ne_of_lt less
  rw [List.perm_ext_iff_of_nodup distinct h.nodup_names]
  intro name
  rw [Values.mem_names_iff, mem_ofParameters_iff]

namespace Session

/-- The members that the overrides of a session are written with. -/
def overrideMembers (session : Session) : List (String × Json) :=
  session.overrides.toList.map fun entry => (entry.1, entry.2.toMember)

lemma map_fst_overrideMembers (session : Session) :
    session.overrideMembers.map Prod.fst = session.overrides.toList.map Prod.fst := by
  rw [overrideMembers, List.map_map]
  rfl

lemma toList_overridesText (session : Session) :
    session.overridesText.toList = (object session.overrideMembers).text := by
  rw [overridesText, String.toList_ofList, Values.toJson, overrideMembers, text, text,
    membersText_map_congr fun entry _ => entry.2.text_toMember.symm]

lemma pairwise_bytes_overrideMembers (session : Session) :
    (session.overrideMembers.map fun member => Text.bytes member.1).Pairwise (· < ·) := by
  have order := session.overrides.pairwise_lt_names
  rw [← map_fst_overrideMembers, List.pairwise_map] at order
  rw [List.pairwise_map]
  exact order.imp Text.bytes_lt_of_lt

lemma valuesUnder_overrideMembers {session : Session} (h : IsCoherent session.parameters)
    {parameter : Parameter} (mem : parameter ∈ session.parameters) :
    (object session.overrideMembers).valuesUnder parameter.name = [parameter.value.toMember] := by
  apply valuesUnder_object_of_mem
  · rw [map_fst_overrideMembers]
    exact session.overrides.pairwise_lt_names.imp fun less => ne_of_lt less
  · have held := h.getElem?_ofParameters mem
    exact List.mem_map.mpr ⟨(parameter.name, parameter.value),
      Std.TreeMap.mem_toList_iff_getElem?_eq_some.mpr held, rfl⟩

/-- In every session the overrides are one object with one member for each parameter that is shown,
in the order of the bytes of their names. A member is written as the value field of its parameter
is, and that is how the value that is looked up under the name is written. -/
theorem views_agree (keywords : Keywords) (calls : List Call) :
    let session := afterCalls keywords calls
    let items := session.parameters.map Parameter.toJson
    session.overridesText.toList = (object session.overrideMembers).text ∧
      session.parametersText.toList = (array items).text ∧
      (session.overrideMembers.map fun member => Text.bytes member.1).Pairwise (· < ·) ∧
      (session.overrideMembers.map fun member => [Json.string member.1]).Perm
        (items.map (valuesUnder "name")) ∧
      ∀ item ∈ items, ∃ name member field held, item.valuesUnder "name" = [.string name] ∧
        (object session.overrideMembers).valuesUnder name = [member] ∧
        item.valuesUnder "value" = [field] ∧ session.get? name = some held ∧
        member.text = field.text ∧ member.text = held.value.toJson.text := by
  intro session items
  obtain ⟨chosen, h⟩ := follows_after keywords (calls.filterMap Call.edit?)
  rw [← afterCalls_eq] at h
  have coherent := h.isCoherent_parameters
  refine ⟨session.toList_overridesText, String.toList_ofList,
    session.pairwise_bytes_overrideMembers, ?_, ?_⟩
  · have names := perm_names_ofParameters coherent
    change (session.overrides.toList.map Prod.fst).Perm _ at names
    rw [← map_fst_overrideMembers] at names
    have shown := names.map fun name => [Json.string name]
    rw [List.map_map, List.map_map] at shown
    rw [List.map_map]
    simpa [Function.comp_def, Parameter.valuesUnder_name] using shown
  · intro item mem
    obtain ⟨parameter, inside, rfl⟩ := List.mem_map.mp mem
    exact ⟨parameter.name, parameter.value.toMember, parameter.value.toJson, parameter,
      parameter.valuesUnder_name, valuesUnder_overrideMembers coherent inside,
      parameter.valuesUnder_value, h.get?_eq_some_iff.mpr ⟨inside, rfl⟩,
      parameter.value.text_toMember, parameter.value.text_toMember⟩

end Session

end ParamPanel
