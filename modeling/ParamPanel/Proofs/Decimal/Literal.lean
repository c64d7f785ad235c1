import Mathlib.Data.List.Basic
import Mathlib.Data.List.Induction
import Mathlib.Data.List.TakeWhile
import Mathlib.Data.Nat.Digits.Defs
import Mathlib.Tactic.Ring
import ParamPanel.Decimal.Literal
import ParamPanel.Proofs.Text.Lines

/-!
# The forms of literals

Numbers in the signed form are written with digits, signs, a point and the mark of the power of ten,
so a text with any other character in it writes no number. The plain form is a part of the signed
one: a text in it is read as the same literal in both. What it writes is the number of its digits,
divided by ten for each of them behind the point.
-/

namespace ParamPanel.Decimal

namespace Literal

/-- The characters that the signed form is written with. -/
def isLiteralChar (c : Char) : Bool := c.isDigit || ['-', '+', '.', 'e', 'E'].contains c

lemma areDigits_iff {text : List Char} :
    areDigits text = true ↔ text ≠ [] ∧ ∀ c ∈ text, c.isDigit = true := by
  simp [areDigits]

lemma isLiteralChar_of_isDigit {c : Char} (h : c.isDigit = true) : isLiteralChar c = true := by
  rw [isLiteralChar, h, Bool.true_or]

lemma isLiteralChar_of_areDigits {digits : List Char} (h : areDigits digits = true) :
    ∀ c ∈ digits, isLiteralChar c = true :=
  fun c mem => isLiteralChar_of_isDigit ((areDigits_iff.mp h).2 c mem)

/-- A character of a text is its sign or stands behind it. -/
lemma isLiteralChar_or_mem_splitSign {text : List Char} :
    ∀ c ∈ text, isLiteralChar c = true ∨ c ∈ (splitSign text).2 := by
  intro c mem
  cases text with
  | nil => cases mem
  | cons sign rest =>
    by_cases minus : sign = '-'
    · subst minus
      rcases List.mem_cons.mp mem with rfl | behind
      · exact .inl rfl
      · exact .inr behind
    · by_cases plus : sign = '+'
      · subst plus
        rcases List.mem_cons.mp mem with rfl | behind
        · exact .inl rfl
        · exact .inr behind
      · rw [splitSign, if_neg minus, if_neg plus]
        exact .inr mem

lemma isLiteralChar_of_exponent? {text : List Char} {exponent : Int}
    (h : exponent? text = some exponent) : ∀ c ∈ text, isLiteralChar c = true := by
  cases text with
  | nil => simp
  | cons mark rest =>
    simp only [exponent?] at h
    split at h
    · rename_i form
      intro c mem
      rcases List.mem_cons.mp mem with rfl | behind
      · rcases form.1 with rfl | rfl <;> rfl
      · rcases isLiteralChar_or_mem_splitSign c behind with sign | digit
        · exact sign
        · exact isLiteralChar_of_areDigits form.2 c digit
    · cases h

lemma isLiteralChar_or_mem_dropWhile {text : List Char} :
    ∀ c ∈ text, isLiteralChar c = true ∨ c ∈ text.dropWhile Char.isDigit := by
  intro c mem
  rw [← List.takeWhile_append_dropWhile (p := Char.isDigit) (l := text)] at mem
  rcases List.mem_append.mp mem with digit | behind
  · exact .inl (isLiteralChar_of_isDigit (List.mem_takeWhile_imp digit))
  · exact .inr behind

lemma isLiteralChar_of_signed? {text : List Char} {literal : Literal}
    (h : signed? text = some literal) : ∀ c ∈ text, isLiteralChar c = true := by
  unfold signed? at h
  dsimp only at h
  have read {rest : List Char} {form : Int → Literal} {empty : Prop} [Decidable empty]
      (h : (if empty then none else (exponent? rest).map form) = some literal) :
      ∀ c ∈ rest, isLiteralChar c = true := by
    split at h
    · cases h
    · obtain ⟨exponent, found, -⟩ := Option.map_eq_some_iff.mp h
      exact isLiteralChar_of_exponent? found
  intro c mem
  rcases isLiteralChar_or_mem_splitSign c mem with sign | unsigned
  · exact sign
  rcases isLiteralChar_or_mem_dropWhile c unsigned with digit | behind
  · exact digit
  generalize (splitSign text).2.dropWhile Char.isDigit = rest at h behind
  by_cases pointed : rest.head? = some '.'
  · simp only [pointed, if_true] at h
    obtain ⟨fraction, rfl⟩ := List.head?_eq_some_iff.mp pointed
    rcases List.mem_cons.mp behind with rfl | inside
    · rfl
    · rcases isLiteralChar_or_mem_dropWhile c inside with digit | last
      · exact digit
      · exact read h c last
  · simp only [pointed, if_false] at h
    exact read h c behind

/-! ### The plain form -/

/-- The texts in the plain form, with the literals that they write. -/
inductive WritesPlain : List Char → Literal → Prop
  | whole {digits : List Char} : areDigits digits = true →
      WritesPlain digits ⟨false, digits, [], 0⟩
  | pointed {digits fraction : List Char} : areDigits digits = true → areDigits fraction = true →
      WritesPlain (digits ++ '.' :: fraction) ⟨false, digits, fraction, 0⟩

section Plain

variable {text digits : List Char} {literal : Literal}

lemma span_digits (numeric : areDigits digits = true) :
    digits.takeWhile Char.isDigit = digits ∧ digits.dropWhile Char.isDigit = [] := by
  have all := (areDigits_iff.mp numeric).2
  exact ⟨List.takeWhile_eq_self_iff.mpr all, List.dropWhile_eq_nil_iff.mpr all⟩

lemma span_digits_point (numeric : areDigits digits = true) (fraction : List Char) :
    (digits ++ '.' :: fraction).takeWhile Char.isDigit = digits ∧
      (digits ++ '.' :: fraction).dropWhile Char.isDigit = '.' :: fraction := by
  have all := (areDigits_iff.mp numeric).2
  have stops : ∀ c ∈ ('.' :: fraction).head?, c.isDigit = false :=
    Text.forall_head?_cons rfl fraction
  exact ⟨Text.takeWhile_run all stops, Text.dropWhile_run all stops⟩

lemma splitSign_digits (numeric : areDigits digits = true) (rest : List Char) :
    splitSign (digits ++ rest) = (false, digits ++ rest) := by
  obtain ⟨filled, all⟩ := areDigits_iff.mp numeric
  obtain ⟨c, digits, rfl⟩ := List.exists_cons_of_ne_nil filled
  have first : c.isDigit = true := all c List.mem_cons_self
  have minus : c ≠ '-' := by
    rintro rfl
    exact absurd first (by decide)
  have plus : c ≠ '+' := by
    rintro rfl
    exact absurd first (by decide)
  rw [List.cons_append, splitSign, if_neg minus, if_neg plus]

/-- Reading the plain form accepts the texts in it, and gives the literals that they write. -/
theorem plain?_eq_some_iff : plain? text = some literal ↔ WritesPlain text literal := by
  constructor
  · intro read
    have parts := List.takeWhile_append_dropWhile (p := Char.isDigit) (l := text)
    unfold plain? at read
    dsimp only at read
    -- Behind the leading digits the text ends, or its point and the fraction follow.
    generalize text.takeWhile Char.isDigit = digits at parts read
    split at read
    · rename_i nothing
      rw [nothing, List.append_nil] at parts
      split at read
      · rename_i numeric
        cases read
        exact parts ▸ .whole numeric
      · cases read
    · rename_i c fraction behind
      rw [behind] at parts
      split at read
      · rename_i form
        cases read
        rw [form.1] at parts
        exact parts ▸ .pointed form.2.1 form.2.2
      · cases read
  · intro written
    cases written with
    | whole numeric =>
      obtain ⟨taken, left⟩ := span_digits numeric
      rw [plain?, taken, left]
      exact if_pos numeric
    | @pointed digits fraction numeric fractional =>
      obtain ⟨taken, left⟩ := span_digits_point numeric fraction
      rw [plain?, taken, left]
      exact if_pos ⟨rfl, numeric, fractional⟩

/-- A text in the plain form is also in the signed form, and writes the same literal there. -/
theorem WritesPlain.signed?_eq (written : WritesPlain text literal) :
    signed? text = some literal := by
  cases written with
  | whole numeric =>
    obtain ⟨taken, left⟩ := span_digits numeric
    have sign := splitSign_digits numeric []
    rw [List.append_nil] at sign
    rw [signed?, sign]
    simp [taken, left, (areDigits_iff.mp numeric).1, exponent?]
  | @pointed digits fraction numeric fractional =>
    obtain ⟨taken, left⟩ := span_digits_point numeric fraction
    obtain ⟨taken', left'⟩ := span_digits fractional
    rw [signed?, splitSign_digits numeric]
    simp [taken, left, taken', left', (areDigits_iff.mp numeric).1, exponent?]

end Plain

end Literal

/-! ### The number written -/

/-- Digits are written from the highest down, and a list of digits goes from the lowest up. -/
theorem ofDigits_eq (digits : List Char) :
    ofDigits digits = Nat.ofDigits 10 (digits.reverse.map fun c => c.toNat - '0'.toNat) := by
  induction digits using List.reverseRecOn with
  | nil => rfl
  | append_singleton digits c ih =>
    have last : ofDigits (digits ++ [c]) = 10 * ofDigits digits + (c.toNat - '0'.toNat) := by
      simp [ofDigits]
    rw [last, ih, List.reverse_concat, List.map_cons, Nat.ofDigits_cons, Nat.add_comm]

lemma ofDigits_append (front back : List Char) :
    ofDigits (front ++ back) = ofDigits front * 10 ^ back.length + ofDigits back := by
  rw [ofDigits_eq, ofDigits_eq, ofDigits_eq, List.reverse_append, List.map_append,
    Nat.ofDigits_append, List.length_map, List.length_reverse]
  ring

namespace Literal

/-- Digits without a point write a whole number. -/
lemma toFloat_whole (digits : List Char) :
    toFloat ⟨false, digits, [], 0⟩ = Float.ofScientific (ofDigits digits) false 0 := by
  rw [toFloat, List.append_nil]
  rfl

/-- Each digit behind the point makes the number ten times smaller. -/
lemma toFloat_pointed (digits : List Char) {fraction : List Char} (filled : fraction ≠ []) :
    toFloat ⟨false, digits, fraction, 0⟩ =
      Float.ofScientific (ofDigits digits * 10 ^ fraction.length + ofDigits fraction) true
        fraction.length := by
  have below : (0 : Int) - fraction.length < 0 := by
    have := List.length_pos_of_ne_nil filled
    omega
  have size : ((0 : Int) - fraction.length).natAbs = fraction.length := by omega
  rw [toFloat, ← ofDigits_append, nearest, size, decide_eq_true below]
  rfl

end Literal

lemma isLiteralChar_of_finite? {text : List Char} {x : Float} (h : finite? text = some x) :
    ∀ c ∈ text, Literal.isLiteralChar c = true := by
  obtain ⟨literal, read, -⟩ := Option.map_eq_some_iff.mp (Option.eq_some_of_filter_eq_some h)
  exact Literal.isLiteralChar_of_signed? read

/-- A character that is in no literal keeps a text from writing a number. -/
lemma not_mem_of_finite? {text : List Char} {x : Float} (h : finite? text = some x) {c : Char}
    (other : Literal.isLiteralChar c = false) : c ∉ text := by
  intro mem
  rw [isLiteralChar_of_finite? h c mem] at other
  cases other

end ParamPanel.Decimal
