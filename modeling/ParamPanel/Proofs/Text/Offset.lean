import Mathlib.Data.List.Basic
import ParamPanel.Text.Offset

/-!
# Parts of a text by offset

An offset is a boundary of a text when the text can be parted there. Of two ways to part a text, the
later one goes on from the earlier one, and the slice between two boundaries is the part between them.
`Span.slice?` tells the empty slice of two equal boundaries from a range that is no part of a text.
-/

namespace ParamPanel.Text

lemma byteLength_eq_zero_iff {text : List Char} : byteLength text = 0 ↔ text = [] := by
  cases text with
  | nil => simp
  | cons c text =>
    have wide := Char.utf8Size_pos c
    simp only [byteLength_cons, reduceCtorEq, iff_false]
    omega

/-- Of two ways to part a text, the later one takes in what the earlier one has passed. -/
lemma exists_append_of_byteLength_le {front rest other more : List Char}
    (same : front ++ rest = other ++ more) (shorter : byteLength front ≤ byteLength other) :
    ∃ inside, other = front ++ inside ∧ rest = inside ++ more := by
  obtain h | ⟨inside, rfl, rfl⟩ := List.append_eq_append_iff.mp same
  · exact h
  · have none_left : inside = [] := by
      rw [← byteLength_eq_zero_iff]
      rw [byteLength_append] at shorter
      omega
    subst none_left
    exact ⟨[], by simp, by simp⟩

/-- An offset at which a text can be parted: a character starts there, or the text ends. -/
def IsBoundary (text : List Char) (offset : Nat) : Prop :=
  ∃ front rest, front ++ rest = text ∧ byteLength front = offset

lemma IsBoundary.le {text : List Char} {offset : Nat} (h : IsBoundary text offset) :
    offset ≤ byteLength text := by
  obtain ⟨front, rest, rfl, rfl⟩ := h
  rw [byteLength_append]
  exact Nat.le_add_right _ _

lemma seek?_append (front rest : List Char) :
    seek? (front ++ rest) (byteLength front) = some (front.reverse, rest) := by
  rw [seek?_eq_some_iff]
  simp

lemma isBoundary_iff {text : List Char} {offset : Nat} :
    IsBoundary text offset ↔ (seek? text offset).isSome = true := by
  constructor
  · rintro ⟨front, rest, rfl, rfl⟩
    rw [seek?_append]
    rfl
  · intro found
    obtain ⟨⟨before, rest⟩, found⟩ := Option.isSome_iff_exists.mp found
    obtain ⟨rfl, rfl⟩ := seek?_eq_some_iff.mp found
    exact ⟨before.reverse, rest, rfl, byteLength_reverse before⟩

lemma seek?_eq_none_iff {text : List Char} {offset : Nat} :
    seek? text offset = none ↔ ¬ IsBoundary text offset := by
  rw [isBoundary_iff, Option.not_isSome_iff_eq_none]

namespace Span

/-- The slice between two boundaries, in order; no other range can be sliced. -/
def slice? (span : Span) (text : List Char) : Option (List Char) :=
  if span.start ≤ span.stop then do
    let (_, rest) ← seek? text span.start
    let (inside, _) ← seek? rest (span.stop - span.start)
    return inside.reverse
  else none

lemma slice_eq_getD_slice? (span : Span) (text : List Char) :
    span.slice text = (span.slice? text).getD [] := by
  rw [slice, slice?]
  split
  · cases seek? text span.start with
    | none => rfl
    | some place => cases found : seek? place.2 (span.stop - span.start) <;> simp [found]
  · rfl

/-- A slice is a part of the text between two others, whose lengths tell where it stands. -/
lemma slice?_eq_some_iff {span : Span} {text inside : List Char} :
    span.slice? text = some inside ↔ ∃ front post, front ++ inside ++ post = text ∧
      byteLength front = span.start ∧ byteLength front + byteLength inside = span.stop := by
  rw [slice?]
  split
  · rename_i ordered
    simp only [Option.bind_eq_bind, Option.bind_eq_some_iff, seek?_eq_some_iff, Prod.exists,
      Option.pure_def, Option.some.injEq]
    constructor
    · rintro ⟨before, rest, ⟨rfl, start_eq⟩, inside, post, ⟨rfl, length_eq⟩, rfl⟩
      refine ⟨before.reverse, post, by simp, by rw [byteLength_reverse, start_eq], ?_⟩
      rw [byteLength_reverse, byteLength_reverse, start_eq, length_eq]
      omega
    · rintro ⟨front, post, rfl, start_eq, stop_eq⟩
      refine ⟨front.reverse, inside ++ post, ⟨by simp, ?_⟩, inside.reverse, post, ⟨by simp, ?_⟩,
        List.reverse_reverse inside⟩
      · rw [byteLength_reverse, start_eq]
      · rw [byteLength_reverse]
        omega
  · rename_i reversed
    simp only [reduceCtorEq, false_iff, not_exists]
    rintro front post ⟨-, start_eq, stop_eq⟩
    omega

lemma slice?_append (front inside post : List Char) :
    slice? ⟨byteLength front, byteLength front + byteLength inside⟩ (front ++ inside ++ post) =
      some inside :=
  slice?_eq_some_iff.mpr ⟨front, post, rfl, rfl, rfl⟩

/-- The slice between two boundaries is the part of the text between them. -/
lemma slice_append (front code post : List Char) :
    slice ⟨byteLength front, byteLength front + byteLength code⟩ (front ++ code ++ post) = code := by
  rw [slice_eq_getD_slice?, slice?_append]
  rfl

end Span

end ParamPanel.Text
