import ParamPanel.Proofs.Json.Reading

/-!
# Parameters and their JSON text

The JSON text of parameters decodes as the same parameters. Members are taken one after another, and
a field that is not known leaves no member, so one lemma about members that may be missing serves
all optional fields.
-/

namespace ParamPanel

namespace Json

lemma isNumeric_readable : IsNumeric fun inner => ∀ x, inner = number x → IsReadable x where
  bool flag x same := by cases same
  string text x same := by cases same
  array items x same := by cases same
  object members x same := by cases same

namespace Decoder

variable {α β : Type}

lemma decode_text (decoder : Decoder α) {json : Json} (readable : json.HasReadableNumbers) :
    decoder.decode json.text = decoder json.reading := by
  rw [decode, ofText_text readable]
  dsimp only
  cases decoder json.reading <;> rfl

lemma number_reading {x : Float} (readable : IsReadable x) :
    number (Json.number x).reading = .ok x := by
  obtain ⟨n, same, read, -⟩ := readable.exists_reading
  rw [read, number, same]

lemma optional_of_ne_null {decoder : Decoder α} {reading : Reading} {x : α}
    (given : reading ≠ .null) (decoded : decoder reading = .ok x) :
    optional decoder reading = .ok (some x) := by
  unfold optional
  split
  · exact absurd rfl given
  · rw [decoded]
    rfl

lemma optional_string_reading (text : String) :
    optional string (Json.string text).reading = .ok (some text) :=
  rfl

lemma optional_number_reading {x : Float} (readable : IsReadable x) :
    optional number (Json.number x).reading = .ok (some x) := by
  refine optional_of_ne_null ?_ (number_reading readable)
  obtain ⟨n, -, read, -⟩ := readable.exists_reading
  rw [read]
  exact Reading.noConfusion

lemma list_reading {decoder : Decoder α} {encode : α → Json} {values : List α}
    (decoded : ∀ x ∈ values, decoder (encode x).reading = .ok x) :
    list decoder (array (values.map encode)).reading = .ok values := by
  have all : (itemsReadings (values.map encode)).mapM decoder = .ok values := by
    rw [itemsReadings_eq, List.map_map]
    induction values with
    | nil => rfl
    | cons x values ih =>
      rw [List.map_cons, List.mapM_cons, Function.comp_apply, decoded x List.mem_cons_self,
        ih fun y mem => decoded y (List.mem_cons_of_mem x mem)]
      rfl
  rw [reading, list, all]
  rfl

/-- Takes in the members of a value that is written. -/
def takeAll (take : β → String → Decoder β) (fields : β) (members : List (String × Json)) :
    Decoded β :=
  members.foldlM (fun fields member => take fields member.1 member.2.reading) fields

section Take

variable {take : β → String → Decoder β} {fields next : β} {members : List (String × Json)}

lemma members_reading :
    Decoder.members take fields (membersReadings members) .closed =
      takeAll take fields members := by
  rw [Decoder.members, membersReadings_eq, List.foldlM_map]
  change (do
    let taken ← takeAll take fields members
    Ending.closed.check
    return taken) = _
  cases takeAll take fields members <;> rfl

lemma takeAll_cons {key : String} {value : Json}
    (taken : take fields key value.reading = .ok next) :
    takeAll take fields ((key, value) :: members) = takeAll take next members := by
  rw [takeAll, List.foldlM_cons, taken]
  rfl

lemma takeAll_append {more : List (String × Json)} (taken : takeAll take fields members = .ok next) :
    takeAll take fields (members ++ more) = takeAll take next more := by
  unfold takeAll at taken ⊢
  rw [List.foldlM_append, taken]
  rfl

/-- A member that may be missing sets its field once, or leaves the fields as they are. -/
lemma takeAll_optionalMember {key : String} {encode : α → Json} {decoder : Decoder α}
    {value : Option α} (set : Option (Option α) → β) (unset : set none = fields)
    (field : ∀ reading, take fields key reading =
      (once key none (optional decoder) reading).map set)
    (decoded : ∀ x ∈ value, optional decoder (encode x).reading = .ok (some x)) :
    takeAll take fields (optionalMember key encode value) = .ok (set (value.map some)) := by
  cases value with
  | none =>
    rw [Option.map_none, unset]
    rfl
  | some x =>
    have taken : take fields key (encode x).reading = .ok (set (some (some x))) := by
      rw [field]
      simp [once, decoded x rfl, Except.map]
    rw [optionalMember, takeAll_cons taken]
    rfl

end Take

end Decoder

end Json

open Json Json.Decoder

lemma Value.decode_reading {value : Value} (readable : ∀ x ∈ value.numbers, IsReadable x)
    (outside : Nat) : Decoder.value outside value.toJson.reading = .ok value := by
  cases value with
  | boolean flag => rfl
  | number x =>
    obtain ⟨n, same, read, -⟩ := (readable x List.mem_cons_self).exists_reading
    rw [toJson, read]
    change Except.ok (Value.number n.toFloat) = _
    rw [same]
  | string text => rfl

lemma join_map_some {α : Type} (value : Option α) : (value.map some).join = value := by
  cases value <;> rfl

lemma Range.decode_reading {range : Range} (readable : ∀ x ∈ range.numbers, IsReadable x) :
    Decoder.range range.toJson.reading = .ok range := by
  simp only [numbers, List.forall_mem_append, Option.mem_toList] at readable
  obtain ⟨⟨lower, upper⟩, step⟩ := readable
  have lower_taken : takeAll RangeFields.take ⟨none, none, none⟩
      (optionalMember "min" .number range.lower) = .ok ⟨range.lower.map some, none, none⟩ :=
    takeAll_optionalMember (fun field => RangeFields.mk field none none) rfl (fun _ => rfl)
      fun x given => optional_number_reading (lower x given)
  have upper_taken : takeAll RangeFields.take ⟨range.lower.map some, none, none⟩
      (optionalMember "max" .number range.upper) =
        .ok ⟨range.lower.map some, range.upper.map some, none⟩ :=
    takeAll_optionalMember (fun field => RangeFields.mk _ field none) rfl (fun _ => rfl)
      fun x given => optional_number_reading (upper x given)
  have step_taken : takeAll RangeFields.take ⟨range.lower.map some, range.upper.map some, none⟩
      (optionalMember "step" .number range.step) =
        .ok ⟨range.lower.map some, range.upper.map some, range.step.map some⟩ :=
    takeAll_optionalMember (fun field => RangeFields.mk _ _ field) rfl (fun _ => rfl)
      fun x given => optional_number_reading (step x given)
  rw [toJson, List.append_assoc, reading, Decoder.range, members_reading,
    takeAll_append lower_taken, takeAll_append upper_taken, step_taken]
  change Except.ok (Range.mk _ _ _) = _
  rw [join_map_some, join_map_some, join_map_some]

lemma Choice.decode_reading {choice : Choice}
    (readable : ∀ x ∈ choice.value.numbers, IsReadable x) (outside : Nat) :
    Decoder.choice outside choice.toJson.reading = .ok choice := by
  have value_taken : ChoiceFields.take outside ⟨none, none⟩ "value" choice.value.toJson.reading =
      .ok ⟨some choice.value, none⟩ := by
    simp [ChoiceFields.take, once, Except.map, Value.decode_reading readable (outside + 1)]
  have label_taken : ChoiceFields.take outside ⟨some choice.value, none⟩ "label"
      (Json.string choice.label).reading = .ok ⟨some choice.value, some choice.label⟩ := rfl
  rw [toJson, reading, Decoder.choice, members_reading, takeAll_cons value_taken,
    takeAll_cons label_taken]
  rfl

lemma Kind.decode_reading (kind : Kind) :
    Decoder.kind (Json.string kind.name).reading = .ok kind := by
  rw [reading, Decoder.kind, Decoder.kindNamed, Kind.ofName?_name]

namespace Json.Decoder.ParameterFields

variable {fields : ParameterFields} {outside : Nat}

lemma takeAll_description (unset : fields.description = none) (description : Option String) :
    takeAll (take outside) fields (optionalMember "description" .string description) =
      .ok { fields with description := description.map some } :=
  takeAll_optionalMember (fun field => { fields with description := field }) (by rw [← unset])
    (fun _ => by simp [take, unset]) fun text _ => optional_string_reading text

lemma takeAll_group (unset : fields.group = none) (group : Option String) :
    takeAll (take outside) fields (optionalMember "group" .string group) =
      .ok { fields with group := group.map some } :=
  takeAll_optionalMember (fun field => { fields with group := field }) (by rw [← unset])
    (fun _ => by simp [take, unset]) fun text _ => optional_string_reading text

lemma takeAll_range (unset : fields.range = none) {range : Option Range}
    (readable : ∀ found ∈ range, ∀ x ∈ found.numbers, IsReadable x) :
    takeAll (take outside) fields (optionalMember "range" Range.toJson range) =
      .ok { fields with range := range.map some } :=
  takeAll_optionalMember (fun field => { fields with range := field }) (by rw [← unset])
    (fun _ => by simp [take, unset]) fun found given =>
      optional_of_ne_null Reading.noConfusion (Range.decode_reading (readable found given))

lemma takeAll_choices (unset : fields.choices = none) {choices : Option (List Choice)}
    (readable : ∀ listed ∈ choices, ∀ choice ∈ listed, ∀ x ∈ choice.value.numbers, IsReadable x) :
    takeAll (take outside) fields
        (optionalMember "options" (fun choices => .array (choices.map Choice.toJson)) choices) =
      .ok { fields with choices := choices.map some } :=
  takeAll_optionalMember (fun field => { fields with choices := field }) (by rw [← unset])
    (fun _ => by simp [take, unset]) fun listed given =>
      optional_of_ne_null Reading.noConfusion <| list_reading fun choice mem =>
        Choice.decode_reading (readable listed given choice mem) (outside + 2)

lemma takeAll_maxLength (unset : fields.maxLength = none) {maxLength : Option Float}
    (readable : ∀ x ∈ maxLength, IsReadable x) :
    takeAll (take outside) fields (optionalMember "maxLength" .number maxLength) =
      .ok { fields with maxLength := maxLength.map some } :=
  takeAll_optionalMember (fun field => { fields with maxLength := field }) (by rw [← unset])
    (fun _ => by simp [take, unset]) fun x given => optional_number_reading (readable x given)

end Json.Decoder.ParameterFields

open ParameterFields in
lemma Parameter.decode_reading {parameter : Parameter}
    (readable : ∀ x ∈ parameter.numbers, IsReadable x) (outside : Nat) :
    Decoder.parameter outside parameter.toJson.reading = .ok parameter := by
  simp only [numbers, decorationNumbers, List.forall_mem_append, List.forall_mem_flatMap,
    Option.mem_toList] at readable
  obtain ⟨value, ⟨range, choices⟩, maxLength⟩ := readable
  have name_taken : take outside ⟨none, none, none, none, none, none, none, none⟩ "name"
      (Json.string parameter.name).reading =
        .ok ⟨some parameter.name, none, none, none, none, none, none, none⟩ := rfl
  have kind_taken : take outside ⟨some parameter.name, none, none, none, none, none, none, none⟩
      "type" (Json.string parameter.kind.name).reading =
        .ok ⟨some parameter.name, some parameter.kind, none, none, none, none, none, none⟩ := by
    simp [take, once, Except.map, Kind.decode_reading]
  have value_taken : take outside
      ⟨some parameter.name, some parameter.kind, none, none, none, none, none, none⟩ "value"
      parameter.value.toJson.reading =
        .ok ⟨some parameter.name, some parameter.kind, some parameter.value, none, none, none,
          none, none⟩ := by
    simp [take, once, Except.map, Value.decode_reading value (outside + 1)]
  simp only [toJson, reading, Decoder.parameter, members_reading, List.cons_append,
    List.nil_append, List.append_assoc]
  rw [takeAll_cons name_taken, takeAll_cons kind_taken, takeAll_cons value_taken,
    takeAll_append (takeAll_description rfl _), takeAll_append (takeAll_group rfl _),
    takeAll_append (takeAll_range rfl range), takeAll_append (takeAll_choices rfl choices),
    takeAll_maxLength rfl maxLength]
  change Except.ok (Parameter.mk _ _ _ _ _ _ _ _) = _
  simp only [join_map_some]

/-- The JSON text of a value decodes as that value. -/
lemma Value.ofJsonText_text {value : Value} (readable : ∀ x ∈ value.numbers, IsReadable x) :
    Value.ofJsonText value.toJson.text = .ok value := by
  have numbers : value.toJson.HasReadableNumbers := by
    rw [HasReadableNumbers, Value.all_toJson_iff isNumeric_readable]
    intro x inside y same
    cases same
    exact readable x inside
  rw [Value.ofJsonText, decode_text _ numbers, Value.decode_reading readable]

lemma decode_parametersJson {parameters : List Parameter}
    (readable : ∀ parameter ∈ parameters, ∀ x ∈ parameter.numbers, IsReadable x) :
    parametersOfJsonText (parametersJson parameters).text = .ok parameters := by
  have numbers : (parametersJson parameters).HasReadableNumbers := by
    rw [HasReadableNumbers, all_parametersJson_iff isNumeric_readable]
    intro parameter mem x inside y same
    cases same
    exact readable parameter mem x inside
  rw [parametersOfJsonText, decode_text _ numbers]
  exact list_reading fun parameter mem => Parameter.decode_reading (readable parameter mem) 1

/-- The JSON text of parameters decodes as these parameters, as long as each of their numbers reads
back from its own text. So no other such parameters have the same text. -/
theorem parametersOfJsonText_text {parameters : List Parameter}
    (readable : ∀ parameter ∈ parameters, ∀ x ∈ parameter.numbers, IsReadable x) :
    parametersOfJsonText (parametersJson parameters).text = .ok parameters ∧
      ∀ others : List Parameter,
        (∀ parameter ∈ others, ∀ x ∈ parameter.numbers, IsReadable x) → others ≠ parameters →
          (parametersJson others).text ≠ (parametersJson parameters).text := by
  refine ⟨decode_parametersJson readable, ?_⟩
  intro others readable_others different same
  have decoded := decode_parametersJson readable_others
  rw [same, decode_parametersJson readable] at decoded
  cases decoded
  exact different rfl

/-- Characters that are escaped and some that are not, a value that is not of its kind, a range and
a list with nothing in them, and numbers that are whole and not. -/
theorem parametersOfJsonText_text_unusual :
    let parameters : List Parameter :=
      [⟨"a\"\\\n\x01é", .string, .number (Float.ofScientific 15 true 1), some "", some "\x7f",
          some ⟨none, none, none⟩, some [], some (Float.ofNat 3)⟩,
        ⟨"", .boolean, .string "null", none, none, some ⟨some (Float.ofNat 3), none, none⟩,
          some [⟨.number (Float.ofScientific 15 true 1), "x"⟩, ⟨.boolean true, "y"⟩], none⟩]
    parametersOfJsonText (parametersJson parameters).text = .ok parameters := by
  have whole : IsReadable (Float.ofNat 3) := ⟨by decide +kernel, by decide +kernel⟩
  have broken : IsReadable (Float.ofScientific 15 true 1) :=
    ⟨by decide +kernel, by decide +kernel⟩
  intro parameters
  have numbers : parameters.flatMap Parameter.numbers =
      [Float.ofScientific 15 true 1, Float.ofNat 3, Float.ofNat 3, Float.ofScientific 15 true 1] :=
    rfl
  refine (parametersOfJsonText_text ?_).1
  rw [← List.forall_mem_flatMap, numbers]
  simp [whole, broken]

end ParamPanel
