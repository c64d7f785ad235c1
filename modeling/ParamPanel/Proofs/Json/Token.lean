import Mathlib.Data.List.TakeWhile
import ParamPanel.Proofs.Json.Number

/-!
# The tokens of written values

Each token that is written is read as the same token, whatever follows it: words and strings show
where they end, and a number ends where what may follow a value begins.
-/

namespace ParamPanel.Json

lemma tokens_eq (text : List Char) :
    tokens text = match text.dropWhile isBlank with
      | [] => []
      | c :: rest => match splitToken? c rest with
        | none => [.malformed]
        | some (token, behind) => token :: tokens behind := by
  rw [tokens]
  split
  · rename_i start
    simp only [start]
  · rename_i c rest start
    simp only [start]
    split
    · rename_i split
      simp only [split]
    · rename_i token behind split
      simp only [split]

lemma tokens_cons {c : Char} {text behind : List Char} {token : Token} (visible : isBlank c = false)
    (split : splitToken? c text = some (token, behind)) :
    tokens (c :: text) = token :: tokens behind := by
  rw [tokens_eq, List.dropWhile_cons_of_neg (by simp [visible])]
  simp only [split]

lemma tokens_append {text : List Char} (none_in : tokens text = []) (rest : List Char) :
    tokens (text ++ rest) = tokens rest := by
  rw [tokens_eq] at none_in
  have blank : text.dropWhile isBlank = [] := by
    split at none_in
    · assumption
    · split at none_in <;> cases none_in
  rw [List.dropWhile_eq_nil_iff] at blank
  rw [tokens_eq, List.dropWhile_append_of_pos blank, ← tokens_eq]

/-! ### Strings -/

lemma mem_of_lookup {c letter : Char} {table : List (Char × Char)}
    (h : table.lookup c = some letter) : (c, letter) ∈ table := by
  induction table with
  | nil => cases h
  | cons pair table ih =>
    rw [List.lookup_cons] at h
    split at h
    · rename_i same
      cases h
      rw [beq_iff_eq.mp same]
      exact List.mem_cons_self
    · exact List.mem_cons_of_mem pair (ih h)

lemma unescape?_of_lookup {c letter : Char} (h : letterEscapes.lookup c = some letter) :
    letter ≠ 'u' ∧ unescape? letter = some c := by
  have table : letterEscapes.all (fun (c, letter) => letter ≠ 'u' ∧ unescape? letter = some c) :=
    by decide
  simpa using List.all_eq_true.mp table _ (mem_of_lookup h)

lemma codeUnit?_of_control : ∀ n < 0x20,
    codeUnit? '0' '0' (hexDigit (n / 16)) (hexDigit n) = some n := by
  decide

/-- A character is read back as one part of a string, and that part as the character. -/
lemma exists_splitString?_charText (c : Char) (text : List Char) :
    ∃ part, splitString? (charText c ++ text) =
        (splitString? text).map (fun (parts, rest) => (part :: parts, rest)) ∧
      ∀ parts, assemble? (part :: parts) = (assemble? parts).map (c :: ·) := by
  unfold charText
  split
  · rename_i letter escape
    obtain ⟨not_u, back⟩ := unescape?_of_lookup escape
    refine ⟨.char c, ?_, fun parts => rfl⟩
    rw [List.cons_append, List.cons_append, List.nil_append, splitString?.eq_def]
    simp [not_u, back]
  · rename_i plain
    split
    · rename_i control
      refine ⟨.unit c.toNat, ?_, ?_⟩
      · simp only [List.cons_append, List.nil_append]
        rw [splitString?.eq_def]
        simp [codeUnit?_of_control c.toNat control]
      · intro parts
        have high : isHighSurrogate c.toNat = false := by
          rw [isHighSurrogate, Bool.and_eq_false_imp]
          intro above
          simp only [decide_eq_true_eq] at above
          omega
        have low : isLowSurrogate c.toNat = false := by
          rw [isLowSurrogate, Bool.and_eq_false_imp]
          intro above
          simp only [decide_eq_true_eq] at above
          omega
        rw [assemble?.eq_def]
        simp [high, low]
    · rename_i visible
      have not_quote : c ≠ '"' := by
        rintro rfl
        cases plain
      have not_escape : c ≠ '\\' := by
        rintro rfl
        cases plain
      refine ⟨.char c, ?_, fun parts => rfl⟩
      rw [List.singleton_append, splitString?.eq_def]
      simp [not_quote, not_escape, visible]

lemma exists_splitString? (chars rest : List Char) :
    ∃ parts, splitString? (chars.flatMap charText ++ '"' :: rest) = some (parts, rest) ∧
      assemble? parts = some chars := by
  induction chars with
  | nil =>
    refine ⟨[], ?_, rfl⟩
    rw [List.flatMap_nil, List.nil_append, splitString?.eq_def]
    rfl
  | cons c chars ih =>
    obtain ⟨parts, split, whole⟩ := ih
    obtain ⟨part, first, back⟩ :=
      exists_splitString?_charText c (chars.flatMap charText ++ '"' :: rest)
    refine ⟨part :: parts, ?_, ?_⟩
    · rw [List.flatMap_cons, List.append_assoc, first, split]
      rfl
    · rw [back, whole]
      rfl

theorem tokens_stringText (text : String) (rest : List Char) :
    tokens (stringText text ++ rest) = .string (some text) :: tokens rest := by
  obtain ⟨parts, split, whole⟩ := exists_splitString? text.toList rest
  rw [stringText, List.cons_append, List.cons_append, List.append_assoc, List.singleton_append]
  apply tokens_cons rfl
  change (splitString? (text.toList.flatMap charText ++ '"' :: rest)).map _ = _
  rw [split, Option.map_some]
  simp only [whole, Option.map_some, String.ofList_toList]

/-! ### Numbers -/

/-- A finite number that the number reader gives back from the text it is written as. -/
structure IsReadable (x : Float) : Prop where
  finite : x.isFinite = true
  decode_eq : Decoder.number.decode (numberText x) = .ok x

lemma splitToken?_of_isNumberChar {c : Char} (numeric : isNumberChar c = true) (text : List Char) :
    splitToken? c text =
      (splitNumber? (c :: text)).map fun (lexeme, rest) => (.number lexeme.value?, rest) := by
  unfold splitToken?
  split
  case h_11 => rfl
  all_goals cases numeric

lemma isBlank_of_isNumberChar {c : Char} (numeric : isNumberChar c = true) : isBlank c = false := by
  cases blank : isBlank c with
  | false => rfl
  | true =>
    simp only [isBlank, Bool.or_eq_true, beq_iff_eq] at blank
    rcases blank with ((rfl | rfl) | rfl) | rfl <;> cases numeric

lemma tokens_of_isNumberChar {c : Char} (numeric : isNumberChar c = true) (text : List Char) :
    tokens (c :: text) = match splitNumber? (c :: text) with
      | none => [.malformed]
      | some (lexeme, behind) => .number lexeme.value? :: tokens behind := by
  rw [tokens_eq, List.dropWhile_cons_of_neg (by simp [isBlank_of_isNumberChar numeric])]
  simp only [splitToken?_of_isNumberChar numeric]
  cases splitNumber? (c :: text) <;> rfl

lemma foldl_step_behind (value : Reading) (clean : Bool) (found : List Token) :
    found.foldl Reader.step (.behind value clean) = .behind value (clean && found.isEmpty) := by
  induction found generalizing clean with
  | nil => simp
  | cons token found ih =>
    rw [List.foldl_cons]
    change found.foldl Reader.step (.behind value false) = _
    rw [ih]
    simp

/-- Where a text starts with a number and decodes as one, nothing stands behind the number. -/
lemma exists_of_decode_number {text : List Char} {value : Option Numeral} {more : List Token}
    {x : Float} (found : tokens text = .number value :: more)
    (decoded : Decoder.number.decode text = .ok x) :
    ∃ n, value = some n ∧ n.toFloat = x ∧ more = [] := by
  have read : more.foldl Reader.step (Reader.start.step (.number value)) =
      .behind (.number value) more.isEmpty := foldl_step_behind (.number value) true more
  unfold Decoder.decode Reading.ofText at decoded
  rw [found, List.foldl_cons, read] at decoded
  cases value with
  | none => cases decoded
  | some n =>
    cases more with
    | nil =>
      cases decoded
      exact ⟨n, rfl, rfl, rfl⟩
    | cons token more => cases decoded

/-- A readable number is one token, and no more than blanks stand behind it. -/
lemma IsReadable.exists_split {x : Float} (h : IsReadable x) :
    ∃ c text lexeme n behind, numberText x = c :: text ∧ isNumberChar c = true ∧
      splitNumber? (c :: text) = some (lexeme, behind) ∧ lexeme.value? = some n ∧
      n.toFloat = x ∧ tokens behind = [] := by
  have decoded := h.decode_eq
  have written := isNumberChar_of_mem_write x
  rw [numberText, if_pos h.finite] at decoded ⊢
  cases write : numberLayout.write x with
  | nil =>
    rw [write, Decoder.decode, Reading.ofText, tokens_eq] at decoded
    cases decoded
  | cons c text =>
    rw [write] at decoded written
    have numeric := written c List.mem_cons_self
    have found := tokens_of_isNumberChar numeric text
    cases split : splitNumber? (c :: text) with
    | none =>
      rw [split] at found
      rw [Decoder.decode, Reading.ofText, found] at decoded
      cases decoded
    | some parts =>
      obtain ⟨lexeme, behind⟩ := parts
      rw [split] at found
      obtain ⟨n, value, same, last⟩ := exists_of_decode_number found decoded
      exact ⟨c, text, lexeme, n, behind, rfl, numeric, split, value, same, last⟩

/-- A readable number is read from every text that goes on with what may follow a value. -/
theorem IsReadable.exists_tokens {x : Float} (h : IsReadable x) :
    ∃ n : Numeral, n.toFloat = x ∧ ∀ rest, FollowsValue rest →
      tokens (numberText x ++ rest) = .number (some n) :: tokens rest := by
  obtain ⟨c, text, lexeme, n, behind, written, numeric, split, value, same, none_behind⟩ :=
    h.exists_split
  refine ⟨n, same, ?_⟩
  intro rest follows
  have longer := splitNumber?_append follows split
  rw [List.cons_append] at longer
  rw [written, List.cons_append, tokens_of_isNumberChar numeric, longer]
  dsimp only
  rw [value, tokens_append none_behind]

end ParamPanel.Json
