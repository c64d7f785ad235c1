import ParamPanel.Proofs.Decimal.Literal
import ParamPanel.Proofs.Text.Trim
import ParamPanel.Script.Expression

/-!
# The kinds of expressions

Which expressions are numbers, which are truth words, and what string every other one is. White space
around an expression makes no difference, and quotes around a text on one line give that text.
-/

namespace ParamPanel.Script

open Text

/-! ### Quotes -/

/-- A text on one line with one quote at its start and another one at its end. -/
structure IsQuoted (text : List Char) : Prop where
  single : '\n' ∉ text
  two : 2 ≤ text.length
  opened : text.head? = some '"'
  closed : text.getLast? = some '"'

section Quotes

variable {text inside : List Char}

lemma isQuoted_iff :
    IsQuoted text ↔ '\n' ∉ text ∧ ∃ inside, '"' :: (inside ++ ['"']) = text := by
  constructor
  · rintro ⟨single, two, opened, closed⟩
    obtain ⟨rest, rfl⟩ := List.head?_eq_some_iff.mp opened
    -- Of a lone quote nothing is left, and it would have to be the last character as well.
    have filled : rest ≠ [] := by
      rintro rfl
      simp at two
    rw [← List.singleton_append, List.getLast?_append_of_ne_nil _ filled,
      List.getLast?_eq_some_iff] at closed
    obtain ⟨inside, rfl⟩ := closed
    exact ⟨single, inside, rfl⟩
  · rintro ⟨single, inside, rfl⟩
    exact ⟨single, by simp, rfl, by simp [List.getLast?_cons]⟩

lemma quotes_eq_some_iff : (['"'].isPrefixOf? text).bind (['"'].isSuffixOf? ·) = some inside ↔
    '"' :: (inside ++ ['"']) = text := by
  simp only [Option.bind_eq_some_iff, List.isPrefixOf?_eq_some_iff_append_eq,
    isSuffixOf?_eq_some_iff]
  constructor
  · rintro ⟨_, rfl, rfl⟩
    rfl
  · rintro rfl
    exact ⟨_, rfl, rfl⟩

lemma withoutQuotes_quoted (single : '\n' ∉ inside) :
    withoutQuotes ('"' :: (inside ++ ['"'])) = inside := by
  have free : '\n' ∉ '"' :: (inside ++ ['"']) := by simp [single]
  rw [withoutQuotes, if_neg (by simpa using free), quotes_eq_some_iff.mpr rfl, Option.getD_some]

lemma withoutQuotes_eq_self (bare : ¬ IsQuoted text) : withoutQuotes text = text := by
  unfold withoutQuotes
  split
  · rfl
  · rename_i single
    cases found : (['"'].isPrefixOf? text).bind (['"'].isSuffixOf? ·) with
    | none => rfl
    | some inside =>
      exact absurd (isQuoted_iff.mpr ⟨by simpa using single, inside, quotes_eq_some_iff.mp found⟩)
        bare

lemma IsQuoted.withoutQuotes_eq (quoted : IsQuoted text) :
    withoutQuotes text = text.tail.dropLast := by
  obtain ⟨single, inside, rfl⟩ := isQuoted_iff.mp quoted
  have free : '\n' ∉ inside := fun mem => single (by simp [mem])
  rw [withoutQuotes_quoted free, List.tail_cons, List.dropLast_concat]

lemma mem_of_mem_withoutQuotes {c : Char} (mem : c ∈ withoutQuotes text) : c ∈ text := by
  by_cases quoted : IsQuoted text
  · rw [quoted.withoutQuotes_eq] at mem
    exact List.mem_of_mem_tail (List.dropLast_subset _ mem)
  · rwa [withoutQuotes_eq_self quoted] at mem

end Quotes

/-! ### The three kinds -/

/-- The word of a truth value. -/
def truthWord : Bool → List Char
  | true => ['t', 'r', 'u', 'e']
  | false => ['f', 'a', 'l', 's', 'e']

section Kind

variable {expression : List Char}

lemma plain?_truthWord (flag : Bool) : Decimal.Literal.plain? (truthWord flag) = none := by
  cases flag <;> rfl

lemma valueOf_eq_number_iff {x : Float} : valueOf expression = .number x ↔
    ∃ literal, Decimal.Literal.WritesPlain (trim expression) literal ∧ literal.toFloat = x := by
  simp only [← Decimal.Literal.plain?_eq_some_iff]
  unfold valueOf
  dsimp only
  cases Decimal.Literal.plain? (trim expression) with
  | some literal => simp
  | none =>
    simp only [reduceCtorEq, false_and, exists_false, iff_false]
    split
    · exact Value.noConfusion
    · split <;> exact Value.noConfusion

lemma valueOf_eq_boolean_iff {flag : Bool} :
    valueOf expression = .boolean flag ↔ trim expression = truthWord flag := by
  constructor
  · unfold valueOf
    dsimp only
    intro read
    split at read
    · cases read
    · split at read
      · rename_i word
        cases read
        exact word
      · split at read
        · rename_i word
          cases read
          exact word
        · cases read
  · intro word
    rw [valueOf, word, plain?_truthWord]
    cases flag <;> rfl

lemma valueOf_eq_string
    (unnumbered : ∀ literal, ¬ Decimal.Literal.WritesPlain (trim expression) literal)
    (untrue : ∀ flag, trim expression ≠ truthWord flag) :
    valueOf expression = .string (String.ofList (withoutQuotes (trim expression))) := by
  have plain : Decimal.Literal.plain? (trim expression) = none := by
    rw [Option.eq_none_iff_forall_ne_some]
    exact fun literal read => unnumbered literal (Decimal.Literal.plain?_eq_some_iff.mp read)
  rw [valueOf, plain]
  exact (if_neg (untrue true)).trans (if_neg (untrue false))

lemma toList_of_valueOf_eq_string {found : String} (read : valueOf expression = .string found) :
    found.toList = withoutQuotes (trim expression) := by
  have unnumbered (literal : Decimal.Literal) :
      ¬ Decimal.Literal.WritesPlain (trim expression) literal := by
    intro written
    rw [valueOf_eq_number_iff.mpr ⟨literal, written, rfl⟩] at read
    cases read
  have untrue (flag : Bool) : trim expression ≠ truthWord flag := by
    intro word
    rw [valueOf_eq_boolean_iff.mpr word] at read
    cases read
  rw [valueOf_eq_string unnumbered untrue] at read
  cases read
  exact String.toList_ofList

lemma mem_of_valueOf_eq_string {found : String} (read : valueOf expression = .string found) :
    ∀ c ∈ found.toList, c ∈ expression := by
  intro c mem
  rw [toList_of_valueOf_eq_string read] at mem
  exact mem_of_mem_trim (mem_of_mem_withoutQuotes mem)

/-- Quotes give the text between them, and white space around them does not matter. -/
theorem valueOf_quoted {inside lead trail : List Char} (single : '\n' ∉ inside)
    (hl : ∀ c ∈ lead, isBlank c = true) (ht : ∀ c ∈ trail, isBlank c = true) :
    valueOf (lead ++ '"' :: (inside ++ '"' :: trail)) = .string (String.ofList inside) := by
  have quoted : trim (lead ++ '"' :: (inside ++ '"' :: trail)) = '"' :: (inside ++ ['"']) := by
    rw [trim_eq_iff]
    exact ⟨trim_between rfl rfl inside, lead, trail, by simp, hl, ht⟩
  rw [valueOf_eq_string, quoted, withoutQuotes_quoted single]
  · intro literal written
    rw [quoted, ← Decimal.Literal.plain?_eq_some_iff] at written
    cases written
  · rintro (_ | _) word
    · rw [quoted] at word
      cases word
    · rw [quoted] at word
      cases word

end Kind

/-- An expression is a number when it is in the plain form, which the signed form takes in; a truth
value when it is the word of one; and a string otherwise, which loses the quotes around a text on one
line and nothing else. So every text on one line is the value of the expression that quotes it. -/
theorem values_classified :
    (∀ expression : List Char,
      (∀ x, valueOf expression = .number x ↔ ∃ literal,
        Decimal.Literal.WritesPlain (trim expression) literal ∧ literal.toFloat = x) ∧
      (∀ literal, Decimal.Literal.WritesPlain (trim expression) literal →
        Decimal.Literal.signed? (trim expression) = some literal) ∧
      (∀ flag, valueOf expression = .boolean flag ↔ trim expression = truthWord flag) ∧
      ((∀ literal, ¬ Decimal.Literal.WritesPlain (trim expression) literal) →
        (∀ flag, trim expression ≠ truthWord flag) →
          (IsQuoted (trim expression) →
            valueOf expression = .string (String.ofList (trim expression).tail.dropLast)) ∧
          (¬ IsQuoted (trim expression) →
            valueOf expression = .string (String.ofList (trim expression))))) ∧
    ∀ (inside : String) (lead trail : List Char), '\n' ∉ inside.toList →
      (∀ c ∈ lead, isBlank c = true) → (∀ c ∈ trail, isBlank c = true) →
        valueOf (lead ++ '"' :: (inside.toList ++ '"' :: trail)) = .string inside := by
  constructor
  · intro expression
    refine ⟨fun x => valueOf_eq_number_iff, fun literal written => written.signed?_eq,
      fun flag => valueOf_eq_boolean_iff, fun unnumbered untrue => ⟨?_, ?_⟩⟩
    · intro quoted
      rw [valueOf_eq_string unnumbered untrue, quoted.withoutQuotes_eq]
    · intro bare
      rw [valueOf_eq_string unnumbered untrue, withoutQuotes_eq_self bare]
  · intro inside lead trail single hl ht
    rw [valueOf_quoted single hl ht, String.ofList_toList]

/-- A number between quotes, a lone quote, quotes around two lines, and quotes in white space around
text that looks like the end of a string and of its statement. -/
theorem values_classified_quotes :
    valueOf "\"12\"".toList = .string "12" ∧ valueOf ['"'] = .string "\"" ∧
      valueOf "\"a\nb\"".toList = .string "\"a\nb\"" ∧
      valueOf "\n \"a\"; // true\" ".toList = .string "a\"; // true" := by
  obtain ⟨classified, quoted⟩ := values_classified
  have unnumbered {text : List Char} (none_read : Decimal.Literal.plain? text = none)
      (literal : Decimal.Literal) : ¬ Decimal.Literal.WritesPlain text literal := by
    intro written
    rw [Decimal.Literal.plain?_eq_some_iff.mpr written] at none_read
    cases none_read
  refine ⟨?_, ?_, ?_, quoted "a\"; // true" ['\n', ' '] [' '] (by decide) ?_ ?_⟩
  · exact ((classified _).2.2.2 (unnumbered (by decide)) (by decide)).1
      ⟨by decide, by decide, by decide, by decide⟩
  · exact ((classified _).2.2.2 (unnumbered (by decide)) (by decide)).2 fun ⟨_, two, _, _⟩ =>
      absurd two (by decide)
  · exact ((classified _).2.2.2 (unnumbered (by decide)) (by decide)).2 fun ⟨single, _, _, _⟩ =>
      absurd single (by decide)
  · simp [isBlank]
  · simp [isBlank]

end ParamPanel.Script
