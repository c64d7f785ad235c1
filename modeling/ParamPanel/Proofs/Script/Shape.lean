import Mathlib.Data.List.Forall2
import ParamPanel.Proofs.Decimal.Literal
import ParamPanel.Proofs.Text.Fields
import ParamPanel.Proofs.Text.Trim
import ParamPanel.Script.Hint

/-!
# The shapes of hints

A comment hints at something when its text has one of three shapes. No text has two of them, since a
number is written without brackets, commas and colons; so nothing depends on the order in which the
shapes are tried.
-/

namespace ParamPanel.Script

open Text

/-! ### Ranges -/

/-- The texts that write a range: two or three numbers with colons between them, and blanks around
them. The number in the middle of three is the step. -/
inductive WritesRange : List Char → Range → Prop
  | ends {lower upper : List Char} {x y : Float} : Decimal.finite? (trim lower) = some x →
      Decimal.finite? (trim upper) = some y →
      WritesRange (lower ++ rangeSeparator :: upper) ⟨some x, some y, none⟩
  | stepped {lower step upper : List Char} {x y z : Float} :
      Decimal.finite? (trim lower) = some x → Decimal.finite? (trim step) = some z →
      Decimal.finite? (trim upper) = some y →
      WritesRange (lower ++ rangeSeparator :: (step ++ rangeSeparator :: upper))
        ⟨some x, some y, some z⟩

/-- A field that writes a number holds none of the marks that make up the other shapes. -/
lemma not_mem_of_finite?_trim {field : List Char} {x : Float} {c : Char}
    (h : Decimal.finite? (trim field) = some x) (filled : isBlank c = false)
    (other : Decimal.Literal.isLiteralChar c = false) : c ∉ field :=
  fun mem => Decimal.not_mem_of_finite? h other (mem_trim_of_mem mem filled)

lemma forall₂_of_mapM {α β : Type} {f : α → Option β} {items : List α} {values : List β}
    (h : items.mapM f = some values) :
    List.Forall₂ (fun item value => f item = some value) items values := by
  induction items generalizing values with
  | nil =>
    cases h
    exact .nil
  | cons item items ih =>
    simp only [List.mapM_cons, Option.bind_eq_bind, Option.bind_eq_some_iff] at h
    obtain ⟨value, found, rest, others, same⟩ := h
    cases same
    exact .cons found (ih others)

/-- Reading a range accepts the texts that write one, and gives the range that they write. -/
theorem rangeOf?_eq_some_iff {inner : List Char} {range : Range} :
    rangeOf? inner = some range ↔ WritesRange inner range := by
  constructor
  · intro h
    have whole := intercalate_fields rangeSeparator inner
    simp only [rangeOf?, Option.bind_eq_bind, Option.bind_eq_some_iff] at h
    obtain ⟨numbers, read, h⟩ := h
    have numeric := forall₂_of_mapM read
    generalize fields rangeSeparator inner = pieces at numeric whole
    split at h
    · cases h
      rcases numeric with _ | ⟨lower, _ | ⟨upper, ⟨⟩⟩⟩
      rw [← whole]
      simpa using WritesRange.ends lower upper
    · cases h
      rcases numeric with _ | ⟨lower, _ | ⟨step, _ | ⟨upper, ⟨⟩⟩⟩⟩
      rw [← whole]
      simpa using WritesRange.stepped lower step upper
    · cases h
  · intro written
    have free {field : List Char} {x : Float} (h : Decimal.finite? (trim field) = some x) :
        rangeSeparator ∉ field := not_mem_of_finite?_trim h rfl rfl
    cases written with
    | ends lower upper =>
      rw [rangeOf?, fields_append (free lower), fields_of_not_mem (free upper)]
      simp [lower, upper]
    | stepped lower step upper =>
      rw [rangeOf?, fields_append (free lower), fields_append (free step),
        fields_of_not_mem (free upper)]
      simp [lower, step, upper]

namespace WritesRange

variable {inner : List Char} {range : Range}

lemma separator_mem (written : WritesRange inner range) : rangeSeparator ∈ inner := by
  cases written <;> simp

/-- A range is written without the commas of a list. -/
lemma choiceSeparator_not_mem (written : WritesRange inner range) : choiceSeparator ∉ inner := by
  have free {field : List Char} {x : Float} (h : Decimal.finite? (trim field) = some x) :
      choiceSeparator ∉ field := not_mem_of_finite?_trim h rfl rfl
  have mark : choiceSeparator ≠ rangeSeparator := by decide
  cases written with
  | ends lower upper => simp [free lower, free upper, mark]
  | stepped lower step upper => simp [free lower, free step, free upper, mark]

end WritesRange

/-! ### One shape at most -/

/-- What a text may be, if it hints at something. -/
inductive Shape where
  | bound
  | choices
  | range

/-- Which texts have a shape. -/
def Shape.Fits (text : List Char) : Shape → Prop
  | bound => ∃ limit, Decimal.finite? text = some limit
  | choices => text.head? = some bracketOpen ∧ choiceSeparator ∈ withoutBrackets text
  | range => ∃ range, WritesRange (withoutBrackets text) range

/-- What a text hints at when it is tried for one shape only. -/
def Shape.read? (text : List Char) : Shape → Option Hint
  | bound => (Decimal.finite? text).map .bound
  | choices =>
    if text.head? = some bracketOpen ∧ choiceSeparator ∈ withoutBrackets text then
      some (.choices (entries (withoutBrackets text)))
    else none
  | range => (rangeOf? (withoutBrackets text)).map .range

/-- The hint of a comment when the shapes are tried in this order. -/
def Hint.inOrder (order : List Shape) (comment : List Char) : Hint :=
  (order.findSome? (Shape.read? (commentText comment))).getD .remark

lemma Hint.ofComment_eq_inOrder (comment : List Char) :
    ofComment comment = inOrder [.bound, .choices, .range] comment := by
  simp only [ofComment, inOrder, List.findSome?_cons, List.findSome?_nil, Shape.read?]
  cases Decimal.finite? (commentText comment) with
  | some limit => rfl
  | none =>
    simp only [List.contains_eq_mem, decide_eq_true_eq, Option.map_none]
    split
    · rfl
    · cases rangeOf? (withoutBrackets (commentText comment)) with
      | some range => rfl
      | none => rfl

lemma mem_of_mem_withoutBrackets {c : Char} {text : List Char} (mem : c ∈ withoutBrackets text) :
    c ∈ text := by
  have kept := withoutTrailing_subset _ _ (mem_of_mem_trim mem)
  exact withoutLeading_subset _ _ kept

namespace Shape

variable {text : List Char} {shape other : Shape}

lemma isSome_read?_iff : (shape.read? text).isSome = true ↔ shape.Fits text := by
  cases shape with
  | bound => simp [read?, Fits, Option.isSome_iff_exists]
  | choices => simp [read?, Fits]
  | range => simp [read?, Fits, Option.isSome_iff_exists, rangeOf?_eq_some_iff]

lemma not_fits_choices (numeric : Fits text bound) : ¬ Fits text choices := by
  obtain ⟨limit, read⟩ := numeric
  rintro ⟨opened, -⟩
  exact Decimal.not_mem_of_finite? read rfl (List.mem_of_head? opened)

lemma not_fits_range (numeric : Fits text bound) : ¬ Fits text range := by
  obtain ⟨limit, read⟩ := numeric
  rintro ⟨range, written⟩
  exact Decimal.not_mem_of_finite? read rfl (mem_of_mem_withoutBrackets written.separator_mem)

lemma not_fits_range_of_choices (listed : Fits text choices) : ¬ Fits text range := by
  rintro ⟨range, written⟩
  exact written.choiceSeparator_not_mem listed.2

/-- No text has two shapes. -/
lemma Fits.unique (h : shape.Fits text) (h' : other.Fits text) : shape = other := by
  cases shape with
  | bound =>
    cases other with
    | bound => rfl
    | choices => exact absurd h' (not_fits_choices h)
    | range => exact absurd h' (not_fits_range h)
  | choices =>
    cases other with
    | bound => exact absurd h (not_fits_choices h')
    | choices => rfl
    | range => exact absurd h' (not_fits_range_of_choices h)
  | range =>
    cases other with
    | bound => exact absurd h (not_fits_range h')
    | choices => exact absurd h (not_fits_range_of_choices h')
    | range => rfl

lemma read?_unique {hint hint' : Hint} (h : shape.read? text = some hint)
    (h' : other.read? text = some hint') : hint = hint' := by
  have fits : shape.Fits text := isSome_read?_iff.mp (by rw [h]; rfl)
  have fits' : other.Fits text := isSome_read?_iff.mp (by rw [h']; rfl)
  rw [fits.unique fits', h'] at h
  exact (Option.some.inj h).symm

lemma exists_read?_choices_iff {listed : List Entry} :
    (∃ shape : Shape, shape.read? text = some (.choices listed)) ↔
      Fits text choices ∧ listed = entries (withoutBrackets text) := by
  constructor
  · rintro ⟨_ | _ | _, read⟩
    · simp [read?] at read
    · simpa [read?, Fits, eq_comm] using read
    · simp [read?] at read
  · rintro ⟨fits, rfl⟩
    exact ⟨choices, if_pos fits⟩

end Shape

/-- When all shapes are tried, the one that the text has is found, in whatever order. -/
lemma Hint.inOrder_eq_iff {order : List Shape} (all : ∀ shape, shape ∈ order) {hint : Hint}
    (other : hint ≠ .remark) {comment : List Char} :
    inOrder order comment = hint ↔ ∃ shape, Shape.read? (commentText comment) shape = some hint := by
  have found {hint' : Hint} (first : order.findSome? (Shape.read? (commentText comment)) =
      some hint') : ∃ shape, Shape.read? (commentText comment) shape = some hint' := by
    obtain ⟨shape, -, read⟩ := List.exists_of_findSome?_eq_some first
    exact ⟨shape, read⟩
  unfold inOrder
  cases first : order.findSome? (Shape.read? (commentText comment)) with
  | none =>
    constructor
    · intro same
      exact absurd same.symm other
    · rintro ⟨shape, read⟩
      rw [List.findSome?_eq_none_iff] at first
      rw [first shape (all shape)] at read
      cases read
  | some hint' =>
    obtain ⟨shape', read'⟩ := found first
    constructor
    · rintro rfl
      exact ⟨shape', read'⟩
    · rintro ⟨shape, read⟩
      exact Shape.read?_unique read' read

/-- A marker in front of a comment that has none is taken off again. -/
lemma commentText_marked {comment : List Char} (bare : ¬ lineComment <+: trim comment) :
    commentText (lineComment ++ comment) = commentText comment := by
  have start : trimStart (lineComment ++ comment) = lineComment ++ comment :=
    trimStart_eq_self (by simp [lineComment, isBlank])
  have shown : trim (lineComment ++ comment) = lineComment ++ trimEnd comment := by
    rw [trim, start]
    exact trimEnd_append_cons rfl ['/'] comment
  rw [commentText, commentText, shown, withoutLeading_append, trim_trimEnd,
    withoutLeading_eq_self bare, trim_trim]

end ParamPanel.Script
