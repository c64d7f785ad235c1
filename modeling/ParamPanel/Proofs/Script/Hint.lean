import ParamPanel.Proofs.Script.Shape

/-!
# What hints hold

The numbers of a hint are finite, a range has both ends, and a list of choices has two entries at
least. A hint decorates a bare parameter in one place at most, and the kind of the parameter decides
where.
-/

namespace ParamPanel.Script

open Text

/-- A range with both ends, all its numbers finite. -/
structure IsClosedRange (range : Range) : Prop where
  lower : ∃ x, range.lower = some x ∧ x.isFinite = true
  upper : ∃ x, range.upper = some x ∧ x.isFinite = true
  step : ∀ x ∈ range.step, x.isFinite = true

def Hint.IsSound : Hint → Prop
  | bound limit => limit.isFinite = true
  | choices entries => 2 ≤ entries.length
  | range found => IsClosedRange found
  | remark => True

lemma isClosedRange_of_rangeOf? {inner : List Char} {range : Range}
    (h : rangeOf? inner = some range) : IsClosedRange range := by
  cases rangeOf?_eq_some_iff.mp h with
  | ends lower upper =>
    exact ⟨⟨_, rfl, Decimal.isFinite_of_finite? lower⟩, ⟨_, rfl, Decimal.isFinite_of_finite? upper⟩,
      by simp⟩
  | stepped lower step upper =>
    exact ⟨⟨_, rfl, Decimal.isFinite_of_finite? lower⟩, ⟨_, rfl, Decimal.isFinite_of_finite? upper⟩,
      by simp [Decimal.isFinite_of_finite? step]⟩

lemma two_le_length_entries {inner : List Char} (h : inner.contains choiceSeparator = true) :
    2 ≤ (entries inner).length := by
  have some_separator : 0 < inner.count choiceSeparator := by
    rw [List.count_pos_iff]
    simpa using h
  rw [entries, List.length_map, length_fields]
  omega

theorem isSound_ofComment (comment : List Char) : (Hint.ofComment comment).IsSound := by
  unfold Hint.ofComment
  dsimp only
  split
  · rename_i limit read
    exact Decimal.isFinite_of_finite? read
  · split
    · rename_i listed
      exact two_le_length_entries listed.2
    · split
      · rename_i found read
        exact isClosedRange_of_rangeOf? read
      · trivial

/-- How a hint decorates a parameter of a kind that has no range, choices or greatest length yet. -/
inductive Hint.Decorates (kind : Kind) :
    Hint → Option Range → Option (List Choice) → Option Float → Prop
  | maxLength (limit : Float) : kind = .string →
      Decorates kind (.bound limit) none none (some limit)
  | step (limit : Float) : kind ≠ .string →
      Decorates kind (.bound limit) (some ⟨none, none, some limit⟩) none none
  | choices (entries : List Entry) :
      Decorates kind (.choices entries) none
        (some (entries.map fun entry => ⟨entry.valueFor kind, String.ofList entry.label⟩)) none
  | range (found : Range) : kind ≠ .string → Decorates kind (.range found) (some found) none none
  | rangeLost (found : Range) : kind = .string → Decorates kind (.range found) none none none
  | remark : Decorates kind .remark none none none

/-- What a hint makes of a parameter that has only a name and a value. -/
theorem Hint.decorates_apply (hint : Hint) (name : String) (value : Value) :
    let shown := hint.apply (.ofValue name value)
    hint.Decorates value.kind shown.range shown.choices shown.maxLength := by
  have kind : (Parameter.ofValue name value).kind = value.kind := rfl
  cases hint with
  | bound limit =>
    unfold Hint.apply
    by_cases text : value.kind = .string
    · simp only [kind, text, if_true]
      exact .maxLength limit rfl
    · simp only [kind, text, if_false]
      exact .step limit text
  | choices entries => exact .choices entries
  | range found =>
    unfold Hint.apply
    by_cases text : value.kind = .string
    · simp only [kind, text, if_true]
      exact .rangeLost found rfl
    · simp only [kind, text, if_false]
      exact .range found text
  | remark => exact .remark

/-- The value of a choice is a finite number or a string, and a number only among numbers. -/
lemma Entry.valueFor_cases (entry : Entry) (kind : Kind) :
    (entry.valueFor kind).isFinite = true ∧ ((entry.valueFor kind).kind = .string ∨
      (entry.valueFor kind).kind = .number ∧ kind = .number) := by
  unfold Entry.valueFor
  split
  · rename_i number
    split
    · rename_i x read
      exact ⟨Decimal.isFinite_of_finite? read, .inr ⟨rfl, number⟩⟩
    · exact ⟨rfl, .inl rfl⟩
  · exact ⟨rfl, .inl rfl⟩

namespace Hint.Decorates

variable {kind : Kind} {hint : Hint} {range : Option Range} {choices : Option (List Choice)}
  {maxLength : Option Float}

lemma count_le (h : hint.Decorates kind range choices maxLength) :
    [range.isSome, choices.isSome, maxLength.isSome].count true ≤ 1 := by
  cases h <;> simp

lemma string_of_maxLength (h : hint.Decorates kind range choices maxLength)
    (given : maxLength ≠ none) : kind = .string := by
  cases h with
  | maxLength limit text => exact text
  | _ => exact absurd rfl given

lemma not_string_of_range (h : hint.Decorates kind range choices maxLength)
    (given : range ≠ none) : kind ≠ .string := by
  cases h with
  | step limit other => exact other
  | range found other => exact other
  | _ => exact absurd rfl given

lemma range_shape (h : hint.Decorates kind range choices maxLength) (sound : hint.IsSound) :
    ∀ found ∈ range, found.lower = none ∧ found.upper = none ∧ found.step ≠ none ∨
      found.lower ≠ none ∧ found.upper ≠ none := by
  intro found given
  cases h with
  | step limit _ =>
    cases given
    simp
  | range closed _ =>
    cases given
    obtain ⟨lower, lower_eq, -⟩ := sound.lower
    obtain ⟨upper, upper_eq, -⟩ := sound.upper
    simp [lower_eq, upper_eq]
  | _ => cases given

lemma two_le_length_choices (h : hint.Decorates kind range choices maxLength)
    (sound : hint.IsSound) : ∀ listed ∈ choices, 2 ≤ listed.length := by
  intro listed given
  cases h with
  | choices entries =>
    cases given
    rw [List.length_map]
    exact sound
  | _ => cases given

lemma choice_cases (h : hint.Decorates kind range choices maxLength) :
    ∀ listed ∈ choices, ∀ choice ∈ listed, choice.value.isFinite = true ∧
      (choice.value.kind = .string ∨ choice.value.kind = .number ∧ kind = .number) := by
  intro listed given choice mem
  cases h with
  | choices entries =>
    cases given
    obtain ⟨entry, -, rfl⟩ := List.mem_map.mp mem
    exact entry.valueFor_cases kind
  | _ => cases given

end Hint.Decorates

end ParamPanel.Script
