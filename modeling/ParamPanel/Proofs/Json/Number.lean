import Mathlib.Data.List.Basic
import ParamPanel.Json.Decoder

/-!
# The text of numbers

Numbers are written with few characters, none of which may follow a value. So a number at the end of
a text is split off just as it is when the text goes on behind it.
-/

namespace ParamPanel.Json

open Decimal (Layout)

/-- The characters that numbers are written with. -/
def isNumberChar (c : Char) : Bool := c.isDigit || ['-', '.', 'e', '+'].contains c

lemma isNumberChar_of_isDigit {c : Char} (h : c.isDigit = true) : isNumberChar c = true := by
  rw [isNumberChar, h, Bool.true_or]

lemma isDigit_of_mem_toDigits {n : Nat} {c : Char} (mem : c ∈ Nat.toDigits 10 n) :
    c.isDigit = true :=
  Nat.isDigit_of_mem_toDigits (by omega) (by omega) mem

section Written

variable {digits : List Char} {place : Int}

lemma isNumberChar_of_mem_plain (numeric : ∀ c ∈ digits, c.isDigit = true) :
    ∀ c ∈ numberLayout.plain digits place, isNumberChar c = true := by
  have zeros (n : Nat) : ∀ c ∈ List.replicate n '0', isNumberChar c = true := by
    intro c mem
    rw [List.eq_of_mem_replicate mem]
    rfl
  have own : ∀ c ∈ digits, isNumberChar c = true :=
    fun c mem => isNumberChar_of_isDigit (numeric c mem)
  unfold Layout.plain
  split
  · simp only [List.forall_mem_cons, List.forall_mem_append]
    exact ⟨rfl, rfl, zeros _, own⟩
  · dsimp only
    split
    · simp only [List.forall_mem_append]
      exact ⟨⟨own, zeros _⟩, List.all_eq_true.mp rfl⟩
    · simp only [List.forall_mem_append, List.forall_mem_cons]
      exact ⟨fun c mem => own c (List.mem_of_mem_take mem), rfl,
        fun c mem => own c (List.mem_of_mem_drop mem)⟩

lemma isNumberChar_of_mem_scientific (numeric : ∀ c ∈ digits, c.isDigit = true) :
    ∀ c ∈ numberLayout.scientific digits place, isNumberChar c = true := by
  have own : ∀ c ∈ digits, isNumberChar c = true :=
    fun c mem => isNumberChar_of_isDigit (numeric c mem)
  unfold Layout.scientific
  simp only [List.forall_mem_append]
  refine ⟨⟨?_, ?_⟩, fun c mem => isNumberChar_of_isDigit (isDigit_of_mem_toDigits mem)⟩
  · split
    · exact own
    · simp only [List.forall_mem_append, List.forall_mem_cons]
      exact ⟨fun c mem => own c (List.mem_of_mem_take mem), rfl,
        fun c mem => own c (List.mem_of_mem_drop mem)⟩
  · split <;> exact List.all_eq_true.mp rfl

end Written

/-- A finite number is written with the characters of numbers. -/
lemma isNumberChar_of_mem_write (x : Float) :
    ∀ c ∈ numberLayout.write x, isNumberChar c = true := by
  have sign (negative : Prop) [Decidable negative] :
      ∀ c ∈ if negative then [] else ['-'], isNumberChar c = true := by
    split <;> simp [isNumberChar]
  unfold Layout.write
  dsimp only
  split
  · simp only [List.forall_mem_append]
    exact ⟨sign _, isNumberChar_of_mem_plain (by simp)⟩
  · simp only [List.forall_mem_append]
    refine ⟨sign _, ?_⟩
    split
    · exact isNumberChar_of_mem_plain fun c mem => isDigit_of_mem_toDigits mem
    · exact isNumberChar_of_mem_scientific fun c mem => isDigit_of_mem_toDigits mem

/-- A text that may stand behind a value inside a container, or nothing. -/
def FollowsValue (rest : List Char) : Prop := ∀ c ∈ rest.head?, c ∈ [',', ']', '}']

lemma followsValue_nil : FollowsValue [] := by
  simp [FollowsValue]

lemma followsValue_cons {c : Char} (separates : c ∈ [',', ']', '}']) (rest : List Char) :
    FollowsValue (c :: rest) := by
  intro d first
  cases first
  exact separates

section Split

variable {text rest behind : List Char}

lemma takeWhile_append_of_stop (text : List Char) {p : Char → Bool}
    (stops : ∀ c ∈ rest.head?, p c = false) :
    (text ++ rest).takeWhile p = text.takeWhile p ∧
      (text ++ rest).dropWhile p = text.dropWhile p ++ rest := by
  induction text with
  | nil =>
    cases rest with
    | nil => simp
    | cons c rest => simp [stops c rfl]
  | cons c text ih =>
    cases taken : p c with
    | true => simp [taken, ih]
    | false => simp [taken]

lemma FollowsValue.stops (follows : FollowsValue rest) :
    ∀ c ∈ rest.head?, c.isDigit = false := by
  intro c first
  have separates := follows c first
  simp only [List.mem_cons, List.not_mem_nil, or_false] at separates
  rcases separates with rfl | rfl | rfl <;> rfl

lemma FollowsValue.head?_ne (follows : FollowsValue rest) {c : Char}
    (other : c ∉ [',', ']', '}']) : rest.head? ≠ some c :=
  fun first => other (follows c first)

lemma splitFraction?_cons (c : Char) (text : List Char) :
    splitFraction? (c :: text) =
      if c = '.' then
        if (text.takeWhile Char.isDigit).isEmpty then none
        else some (text.takeWhile Char.isDigit, text.dropWhile Char.isDigit)
      else some ([], c :: text) := by
  simp [splitFraction?]

lemma splitFraction?_append (follows : FollowsValue rest) {digits : List Char}
    (h : splitFraction? text = some (digits, behind)) :
    splitFraction? (text ++ rest) = some (digits, behind ++ rest) := by
  cases text with
  | nil =>
    cases h
    simp [splitFraction?, follows.head?_ne (c := '.') (by simp)]
  | cons c text =>
    have stop := takeWhile_append_of_stop text follows.stops
    rw [List.cons_append, splitFraction?_cons, stop.1, stop.2]
    rw [splitFraction?_cons] at h
    by_cases point : c = '.'
    · rw [if_pos point] at h ⊢
      by_cases bare : (text.takeWhile Char.isDigit).isEmpty = true
      · rw [if_pos bare] at h
        cases h
      · rw [if_neg bare] at h ⊢
        cases h
        rfl
    · rw [if_neg point] at h ⊢
      cases h
      rfl

lemma splitSign_append (filled : text ≠ []) :
    Decimal.Literal.splitSign (text ++ rest) = ((Decimal.Literal.splitSign text).1,
      (Decimal.Literal.splitSign text).2 ++ rest) := by
  obtain ⟨c, text, rfl⟩ := List.exists_cons_of_ne_nil filled
  simp only [Decimal.Literal.splitSign, List.cons_append]
  split
  · rfl
  · split <;> rfl

lemma splitExponent?_cons (c : Char) (text : List Char) :
    splitExponent? (c :: text) =
      if c = 'e' ∨ c = 'E' then
        let signed := Decimal.Literal.splitSign text
        let size : Int := Decimal.ofDigits (signed.2.takeWhile Char.isDigit)
        if (signed.2.takeWhile Char.isDigit).isEmpty then none
        else some (some (if signed.1 then -size else size), signed.2.dropWhile Char.isDigit)
      else some (none, c :: text) := by
  unfold splitExponent?
  simp only [List.head?_cons, Option.some.injEq]
  rfl

lemma splitExponent?_append (follows : FollowsValue rest) {exponent : Option Int}
    (h : splitExponent? text = some (exponent, behind)) :
    splitExponent? (text ++ rest) = some (exponent, behind ++ rest) := by
  cases text with
  | nil =>
    cases h
    simp [splitExponent?, follows.head?_ne (c := 'e') (by simp),
      follows.head?_ne (c := 'E') (by simp)]
  | cons c text =>
    rw [List.cons_append, splitExponent?_cons]
    rw [splitExponent?_cons] at h
    by_cases mark : c = 'e' ∨ c = 'E'
    · rw [if_pos mark] at h ⊢
      dsimp only at h ⊢
      have filled : text ≠ [] := by
        rintro rfl
        simp [Decimal.Literal.splitSign] at h
      have stop := takeWhile_append_of_stop (Decimal.Literal.splitSign text).2 follows.stops
      simp only [splitSign_append filled, stop.1, stop.2]
      by_cases bare :
          ((Decimal.Literal.splitSign text).2.takeWhile Char.isDigit).isEmpty = true
      · rw [if_pos bare] at h
        cases h
      · rw [if_neg bare] at h ⊢
        cases h
        rfl
    · rw [if_neg mark] at h ⊢
      cases h
      rfl

lemma splitUnsigned?_append (follows : FollowsValue rest) {negative : Bool}
    {lexeme : NumberLexeme} (h : splitUnsigned? negative text = some (lexeme, behind)) :
    splitUnsigned? negative (text ++ rest) = some (lexeme, behind ++ rest) := by
  have stop := takeWhile_append_of_stop text follows.stops
  unfold splitUnsigned? at h ⊢
  dsimp only at h ⊢
  rw [stop.1, stop.2]
  split
  · rename_i leading
    rw [if_pos leading] at h
    cases h
  · rename_i leading
    rw [if_neg leading] at h
    cases point : splitFraction? (text.dropWhile Char.isDigit) with
    | none =>
      rw [point] at h
      cases h
    | some found =>
      obtain ⟨fraction, more⟩ := found
      rw [point] at h
      dsimp only at h
      rw [splitFraction?_append follows point]
      dsimp only
      cases power : splitExponent? more with
      | none =>
        rw [power] at h
        cases h
      | some found =>
        obtain ⟨exponent, last⟩ := found
        rw [power] at h
        cases h
        rw [splitExponent?_append follows power]

/-- A number is split off a text no matter what follows the text. -/
theorem splitNumber?_append (follows : FollowsValue rest) {lexeme : NumberLexeme}
    (h : splitNumber? text = some (lexeme, behind)) :
    splitNumber? (text ++ rest) = some (lexeme, behind ++ rest) := by
  cases text with
  | nil => cases h
  | cons c text =>
    unfold splitNumber? at h ⊢
    simp only [List.cons_append, List.head?_cons, List.tail_cons, Option.some.injEq] at h ⊢
    by_cases minus : c = '-'
    · rw [if_pos minus] at h ⊢
      exact splitUnsigned?_append follows h
    · rw [if_neg minus] at h ⊢
      exact splitUnsigned?_append follows h

end Split

end ParamPanel.Json
