import ParamPanel.Proofs.Script.Concatenation
import ParamPanel.Proofs.Script.Constant
import ParamPanel.Proofs.Text.LineEnding

/-!
# What parameters depend on

The parameters of a script depend neither on what its lines end in nor on anything from its first
definition on. Two scripts that differ there only have the same parameters.
-/

namespace ParamPanel.Script

open Text

/-- The line breaks of a script may be written in any way that keeps each of them one line break,
and all of these ways are read as one pass over the script would read them. A text is lent out just
when that pass leaves it as it is. -/
theorem parameters_respell (keywords : Keywords) :
    (∀ (script : String) (choice : Nat → LineBreak), '\r' ∉ script.toList →
      IsApart choice script.toList →
        normalize (respell choice script.toList) = script.toList ∧
          parameters keywords (String.ofList (respell choice script.toList)) =
            parameters keywords script) ∧
      ∀ text : List Char, normalize text = onePass text ∧ '\r' ∉ normalize text ∧
        normalize (normalize text) = normalize text ∧
          (∀ kept, normalized text = .borrowed kept ↔ kept = text ∧ '\r' ∉ text) ∧
            (isNormal text = true ↔ '\r' ∉ text) ∧
              (isNormal text = true ↔ normalize text = text) := by
  constructor
  · intro script choice normal apart
    have same := normalize_respell normal apart
    refine ⟨same, ?_⟩
    rw [parameters, parameters, parameterTable, parameterTable, declared, declared,
      String.toList_ofList, same, normalize_eq_self normal]
  · intro text
    exact ⟨normalize_eq_onePass text, not_mem_normalize text, normalize_normalize text,
      fun _ => normalized_eq_borrowed_iff, isNormal_iff,
      isNormal_iff.trans normalize_eq_self_iff.symm⟩

/-- A line feed, a carriage return and a pair in a row, and a carriage return further down. -/
theorem parameters_respell_mixed :
    parameters .standard "a = 1;\n\r\r\n// B\rb = 2;\r\n" =
      parameters .standard "a = 1;\n\n\n// B\nb = 2;\n" := by
  let choice : Nat → LineBreak
    | 0 => .feed
    | 1 => .carriage
    | 2 => .pair
    | 3 => .carriage
    | _ => .pair
  have normal : '\r' ∉ "a = 1;\n\n\n// B\nb = 2;\n".toList := by decide
  have apart : IsApart choice "a = 1;\n\n\n// B\nb = 2;\n".toList := by
    intro front back _
    generalize front.count '\n' = above
    match above with
    | 0 | 1 | 2 | 3 | _ + 4 => simp [choice]
  exact ((parameters_respell .standard).1 _ choice normal apart).2

section Definition

variable {keywords : Keywords} {word : String} {gap : Char}

/-- A keyword in front of white space that ends no line opens a definition, whatever follows. -/
lemma exists_definition (mem : word ∈ keywords.words) (blank : isBlank gap = true)
    (inline : gap ≠ '\n') (rest : List Char) :
    ∃ raw, (rawLines (word.toList ++ gap :: rest)).head? = some raw ∧
      endsDeclarations keywords raw = true :=
  (startsDefinition_keyword mem blank inline rest).exists_raw

/-- Normalising does not reach across a keyword and what parts it from the text behind it. -/
lemma normalize_definition (mem : word ∈ keywords.words) (inline : gap ≠ '\n' ∧ gap ≠ '\r')
    (front rest : List Char) :
    normalize (front ++ (word.toList ++ gap :: rest)) =
      normalize front ++ (word.toList ++ gap :: normalize rest) := by
  obtain ⟨no_feed, no_return⟩ := isSingleLine_keyword mem
  have first : (word.toList ++ gap :: rest).head? ≠ some '\n' := by
    intro h
    cases letters : word.toList with
    | nil =>
      rw [letters] at h
      exact inline.1 (Option.some.inj h)
    | cons c letters' =>
      rw [letters] at h no_feed
      cases h
      exact no_feed List.mem_cons_self
  rw [normalize_append _ first, normalize_append_of_not_mem no_return, normalize_cons inline.2]

end Definition

/-- A script declares what stands in front of its first definition, and what stands behind the
keyword of that definition does not matter. -/
theorem parameters_definition (keywords : Keywords) {word : String} (mem : word ∈ keywords.words)
    {above : String} (closed : ∀ c ∈ above.toList.getLast?, c = '\n' ∨ c = '\r') {gap : Char}
    (blank : isBlank gap = true) (inline : gap ≠ '\n' ∧ gap ≠ '\r') (below other : String) :
    parameters keywords (above ++ word ++ String.singleton gap ++ below) =
        parameters keywords above ∧
      parameters keywords (above ++ word ++ String.singleton gap ++ below) =
        parameters keywords (above ++ word ++ String.singleton gap ++ other) := by
  have cut (rest : String) :
      parameters keywords (above ++ word ++ String.singleton gap ++ rest) =
        parameters keywords above := by
    obtain ⟨raw, first, definition⟩ :=
      exists_definition mem blank inline.1 (normalize rest.toList)
    have letters : (above ++ word ++ String.singleton gap ++ rest).toList =
        above.toList ++ (word.toList ++ gap :: rest.toList) := by
      simp
    have same : declared keywords (above ++ word ++ String.singleton gap ++ rest) =
        declared keywords above := by
      rw [declared, declared, letters, normalize_definition mem inline,
        declarations_append_definition (endsLine_normalize closed) first definition]
    rw [parameters, parameters, parameterTable, parameterTable, same]
  exact ⟨cut below, (cut below).trans (cut other).symm⟩

/-- A word that a caller chose as a keyword, a wide blank behind it, and below it everything that
would count further up. -/
theorem parameters_above_shape :
    ∃ keywords, Keywords.ofList ["part", "shape_2"] = .ok keywords ∧
      parameters keywords ("/* [A] */\rx = 1;\r" ++ "shape_2" ++ String.singleton '\u2003' ++
          "=\r\n/* [B] */\rx = 2;\ny = 3; part z\n") =
        parameters keywords "/* [A] */\rx = 1;\r" := by
  have accepted : ∀ word ∈ ["part", "shape_2"], isKeyword word = true := by decide
  have closed : ∀ c ∈ "/* [A] */\rx = 1;\r".toList.getLast?, c = '\n' ∨ c = '\r' := by
    have last : "/* [A] */\rx = 1;\r".toList.getLast? = some '\r' := by decide
    rw [last]
    simp
  exact ⟨⟨["part", "shape_2"], by decide, accepted⟩, rfl,
    (parameters_definition _ (by simp) closed (by decide) (by decide) _ "").1⟩

end ParamPanel.Script
