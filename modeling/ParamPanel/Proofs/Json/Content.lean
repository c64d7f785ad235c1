import ParamPanel.Json.Parameter
import ParamPanel.Proofs.Json.Number

/-!
# What parameters hold as JSON

Only strings, truth values and the numbers of a parameter stand in its JSON. So what is to be known
of all values in the JSON comes down to its numbers; among it, where a null is written.
-/

namespace ParamPanel

namespace Json

mutual

/-- A value and all the values in it. -/
def values : Json → List Json
  | array items => array items :: itemsValues items
  | object members => object members :: membersValues members
  | json => [json]

def itemsValues : List Json → List Json
  | [] => []
  | item :: items => item.values ++ itemsValues items

def membersValues : List (String × Json) → List Json
  | [] => []
  | (_, value) :: members => value.values ++ membersValues members

end

/-- A value and all values in it are of some sort. -/
def All (P : Json → Prop) (json : Json) : Prop := ∀ inner ∈ json.values, P inner

/-- A sort to which every value belongs, but for nulls and perhaps some numbers. -/
structure IsNumeric (P : Json → Prop) : Prop where
  bool (flag : Bool) : P (bool flag)
  string (text : String) : P (string text)
  array (items : List Json) : P (array items)
  object (members : List (String × Json)) : P (object members)

lemma mem_itemsValues_iff {inner : Json} {items : List Json} :
    inner ∈ itemsValues items ↔ ∃ item ∈ items, inner ∈ item.values := by
  induction items with
  | nil => simp [itemsValues]
  | cons item items ih => simp [itemsValues, ih]

lemma mem_membersValues_iff {inner : Json} {members : List (String × Json)} :
    inner ∈ membersValues members ↔ ∃ member ∈ members, inner ∈ member.2.values := by
  induction members with
  | nil => simp [membersValues]
  | cons member members ih => simp [membersValues, ih]

variable {P : Json → Prop}

lemma all_array_iff {items : List Json} :
    (array items).All P ↔ P (array items) ∧ ∀ item ∈ items, item.All P := by
  simp only [All, values, List.forall_mem_cons, mem_itemsValues_iff]
  constructor
  · rintro ⟨own, inside⟩
    exact ⟨own, fun item mem inner found => inside inner ⟨item, mem, found⟩⟩
  · rintro ⟨own, inside⟩
    refine ⟨own, ?_⟩
    rintro inner ⟨item, mem, found⟩
    exact inside item mem inner found

lemma all_object_iff {members : List (String × Json)} :
    (object members).All P ↔ P (object members) ∧ ∀ member ∈ members, member.2.All P := by
  simp only [All, values, List.forall_mem_cons, mem_membersValues_iff]
  constructor
  · rintro ⟨own, inside⟩
    exact ⟨own, fun member mem inner found => inside inner ⟨member, mem, found⟩⟩
  · rintro ⟨own, inside⟩
    refine ⟨own, ?_⟩
    rintro inner ⟨member, mem, found⟩
    exact inside member mem inner found

lemma all_number_iff {x : Float} : (number x).All P ↔ P (number x) := by
  simp [All, values]

lemma IsNumeric.all_bool (h : IsNumeric P) (flag : Bool) : (Json.bool flag).All P := by
  simpa [All, values] using h.bool flag

lemma IsNumeric.all_string (h : IsNumeric P) (text : String) : (Json.string text).All P := by
  simpa [All, values] using h.string text

lemma all_optionalMember_iff {α : Type} {key : String} {encode : α → Json} {value : Option α} :
    (∀ member ∈ optionalMember key encode value, member.2.All P) ↔
      ∀ x ∈ value, (encode x).All P := by
  cases value <;> simp [optionalMember]

end Json

open Json

def Value.numbers : Value → List Float
  | number x => [x]
  | _ => []

def Range.numbers (range : Range) : List Float :=
  range.lower.toList ++ range.upper.toList ++ range.step.toList

/-- The numbers that a parameter has beside its value. -/
def Parameter.decorationNumbers (parameter : Parameter) : List Float :=
  parameter.range.toList.flatMap Range.numbers ++
    parameter.choices.toList.flatMap (·.flatMap fun choice => choice.value.numbers) ++
    parameter.maxLength.toList

def Parameter.numbers (parameter : Parameter) : List Float :=
  parameter.value.numbers ++ parameter.decorationNumbers

lemma Value.isFinite_iff {value : Value} :
    value.isFinite = true ↔ ∀ x ∈ value.numbers, x.isFinite = true := by
  cases value <;> simp [isFinite, numbers]

section All

variable {P : Json → Prop}

lemma Value.all_toJson_iff (h : IsNumeric P) {value : Value} :
    value.toJson.All P ↔ ∀ x ∈ value.numbers, P (.number x) := by
  cases value with
  | boolean flag => simp [toJson, numbers, h.all_bool]
  | number x => simp [toJson, numbers, all_number_iff]
  | string text => simp [toJson, numbers, h.all_string]

lemma Range.all_toJson_iff (h : IsNumeric P) {range : Range} :
    range.toJson.All P ↔ ∀ x ∈ range.numbers, P (.number x) := by
  simp only [toJson, numbers, all_object_iff, h.object, true_and, List.forall_mem_append,
    all_optionalMember_iff, all_number_iff, Option.mem_toList, Option.mem_def]

lemma Choice.all_toJson_iff (h : IsNumeric P) {choice : Choice} :
    choice.toJson.All P ↔ ∀ x ∈ choice.value.numbers, P (.number x) := by
  simp [toJson, all_object_iff, h.object, h.all_string, Value.all_toJson_iff h]

/-- What numbers of a sort are in a parameter's JSON is told by the parameter's own numbers. -/
theorem Parameter.all_toJson_iff (h : IsNumeric P) {parameter : Parameter} :
    parameter.toJson.All P ↔ ∀ x ∈ parameter.numbers, P (.number x) := by
  have choices_iff (choices : List Choice) :
      (Json.array (choices.map Choice.toJson)).All P ↔
        ∀ x ∈ choices.flatMap fun choice => choice.value.numbers, P (.number x) := by
    rw [List.forall_mem_flatMap]
    simp only [all_array_iff, h.array, true_and, List.forall_mem_map, Choice.all_toJson_iff h]
  simp only [toJson, numbers, decorationNumbers, all_object_iff, h.object, true_and,
    List.forall_mem_append, List.forall_mem_cons, all_optionalMember_iff, h.all_string,
    Value.all_toJson_iff h, Range.all_toJson_iff h, all_number_iff, choices_iff, List.not_mem_nil,
    false_implies, implies_true, and_true, List.forall_mem_flatMap, Option.mem_toList, Option.mem_def,
    and_assoc]

lemma all_parametersJson_iff (h : IsNumeric P) {parameters : List Parameter} :
    (parametersJson parameters).All P ↔
      ∀ parameter ∈ parameters, ∀ x ∈ parameter.numbers, P (.number x) := by
  simp only [parametersJson, all_array_iff, h.array, true_and, List.forall_mem_map,
    Parameter.all_toJson_iff h]

lemma Values.all_toJson_iff (h : IsNumeric P) {values : Values} :
    values.toJson.All P ↔ ∀ (name : String) (value : Value), values[name]? = some value →
      ∀ x ∈ value.numbers, P (.number x) := by
  simp only [Values.toJson, all_object_iff, h.object, true_and, List.forall_mem_map, Prod.forall,
    Value.all_toJson_iff h, Std.TreeMap.mem_toList_iff_getElem?_eq_some]

end All

namespace Json

/-- Nothing in a value is written as null. -/
def IsFreeOfNull (json : Json) : Prop := json.All fun inner => inner.text ≠ null.text

lemma isNumeric_ne_null : IsNumeric fun inner => inner.text ≠ null.text where
  bool flag := by cases flag <;> simp [text]
  string text := by simp [Json.text, stringText]
  array items := by simp [text]
  object members := by simp [text]

lemma text_number_ne_null_iff {x : Float} : (number x).text ≠ null.text ↔ x.isFinite = true := by
  rw [text, text, numberText]
  by_cases finite : x.isFinite = true
  · rw [if_pos finite]
    simp only [finite, iff_true]
    intro same
    have numeric := isNumberChar_of_mem_write x 'n'
    rw [same] at numeric
    exact absurd (numeric List.mem_cons_self) (by decide)
  · simp [finite]

end Json

end ParamPanel
