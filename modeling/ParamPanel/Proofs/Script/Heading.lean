import Mathlib.Data.List.Basic
import ParamPanel.Script.Section
import ParamPanel.Proofs.Script.Scan

/-!
# Headings

What a line must look like to be a heading, and that no name stands at its start.
-/

namespace ParamPanel.Script

open Text

/-- A heading is a block comment around a pair of brackets around its label, and blanks may stand
around each of the three. -/
theorem headingLabel?_eq_some_iff {line label : List Char} :
    headingLabel? line = some label ↔ ∃ comment inner,
      trim line = blockOpen ++ (comment ++ blockClose) ∧
      trim comment = [bracketOpen] ++ (inner ++ [bracketClose]) ∧
      bracketOpen ∉ inner ∧ bracketClose ∉ inner ∧ trim inner ≠ [] ∧ trim inner = label := by
  simp only [headingLabel?, Option.bind_eq_bind, Option.bind_eq_some_iff,
    List.isPrefixOf?_eq_some_iff_append_eq, isSuffixOf?_eq_some_iff]
  constructor
  · rintro ⟨_, commented, comment, rfl, _, bracketed, inner, rfl, h⟩
    refine ⟨comment, inner, commented.symm, bracketed.symm, ?_⟩
    split at h
    · cases h
    · rename_i free
      split at h
      · cases h
      · rename_i filled
        simp only [List.contains_eq_mem, Bool.or_eq_true, decide_eq_true_eq, not_or] at free
        exact ⟨free.1, free.2, by simpa using filled, by simpa using h⟩
  · rintro ⟨comment, inner, commented, bracketed, no_open, no_close, filled, rfl⟩
    refine ⟨_, commented.symm, comment, rfl, _, bracketed.symm, inner, rfl, ?_⟩
    simp [no_open, no_close, filled]

/-- White space around a line does not matter. -/
lemma headingLabel?_trim (line : List Char) : headingLabel? (trim line) = headingLabel? line := by
  rw [headingLabel?, trim_trim]
  rfl

/-- A heading does not start with a name: a blank or the mark of its comment comes first. -/
lemma head?_of_headingLabel? {line label : List Char} (h : headingLabel? line = some label) :
    ∃ c, line.head? = some c ∧ isNameChar c = false := by
  obtain ⟨comment, inner, commented, -⟩ := headingLabel?_eq_some_iff.mp h
  cases line with
  | nil => cases commented
  | cons c line =>
    refine ⟨c, rfl, ?_⟩
    by_cases name : isNameChar c = true
    · have start : trimStart (c :: line) = c :: line :=
        trimStart_eq_self (by simpa using isBlank_of_isNameChar name)
      obtain ⟨rest, whole⟩ := trimEnd_prefix (c :: line)
      rw [trim, start] at commented
      rw [commented] at whole
      cases whole
      cases name
    · simpa using name

/-! ### The grammar of headings -/

/-- The parts of a line that is a heading: between the marks of a block comment a pair of brackets,
and white space around each of the two. What the brackets hold is not all white space and holds no
bracket. -/
structure HeadingLine where
  lead : List Char
  before : List Char
  inner : List Char
  after : List Char
  trail : List Char
  isBlank_lead : ∀ c ∈ lead, isBlank c = true
  isBlank_before : ∀ c ∈ before, isBlank c = true
  isBlank_after : ∀ c ∈ after, isBlank c = true
  isBlank_trail : ∀ c ∈ trail, isBlank c = true
  no_open : bracketOpen ∉ inner
  no_close : bracketClose ∉ inner
  filled : ¬ ∀ c ∈ inner, isBlank c = true

namespace HeadingLine

/-- What stands between the marks of the comment. -/
def comment (heading : HeadingLine) : List Char :=
  heading.before ++ (bracketOpen :: (heading.inner ++ [bracketClose])) ++ heading.after

def text (heading : HeadingLine) : List Char :=
  heading.lead ++ (blockOpen ++ (heading.comment ++ blockClose)) ++ heading.trail

def label (heading : HeadingLine) : List Char := trim heading.inner

end HeadingLine

lemma HeadingLine.trim_text (heading : HeadingLine) :
    trim heading.text = blockOpen ++ (heading.comment ++ blockClose) := by
  have marked : trim ('/' :: ('*' :: (heading.comment ++ ['*']) ++ ['/'])) = _ :=
    trim_between rfl rfl _
  rw [text, trim_append_blank _ heading.isBlank_lead heading.isBlank_trail]
  simpa [blockOpen, blockClose] using marked

lemma HeadingLine.trim_comment (heading : HeadingLine) :
    trim heading.comment = bracketOpen :: (heading.inner ++ [bracketClose]) := by
  rw [comment, trim_append_blank _ heading.isBlank_before heading.isBlank_after,
    trim_between rfl rfl]

/-- Reading a heading accepts the lines that are one, and gives their labels. -/
theorem headingLabel?_eq_some_iff_exists_line {line label : List Char} :
    headingLabel? line = some label ↔
      ∃ heading : HeadingLine, heading.text = line ∧ heading.label = label := by
  constructor
  · intro read
    obtain ⟨comment, inner, commented, bracketed, no_open, no_close, filled, rfl⟩ :=
      headingLabel?_eq_some_iff.mp read
    -- What was trimmed off around the comment, and in it around the brackets, is blank.
    obtain ⟨-, lead, trail, whole, isBlank_lead, isBlank_trail⟩ := trim_eq_iff.mp commented
    obtain ⟨-, before, after, rfl, isBlank_before, isBlank_after⟩ := trim_eq_iff.mp bracketed
    rw [ne_eq, trim_eq_nil_iff] at filled
    exact ⟨⟨lead, before, inner, after, trail, isBlank_lead, isBlank_before, isBlank_after,
      isBlank_trail, no_open, no_close, filled⟩, whole, rfl⟩
  · rintro ⟨heading, rfl, rfl⟩
    rw [headingLabel?_eq_some_iff]
    refine ⟨heading.comment, heading.inner, heading.trim_text, heading.trim_comment,
      heading.no_open, heading.no_close, ?_, rfl⟩
    rw [ne_eq, trim_eq_nil_iff]
    exact heading.filled

lemma HeadingLine.length_label_le (heading : HeadingLine) :
    heading.label.length + 2 ≤ heading.comment.length := by
  have inside := length_trim_le heading.inner
  simp only [label, comment, List.length_append, List.length_cons, List.length_nil]
  omega

/-- A label is read back from every heading written for it, whatever the white space in it. -/
theorem headingLabel?_written {label lead before after trail : List Char} (filled : label ≠ [])
    (trimmed : trim label = label) (free : bracketOpen ∉ label ∧ bracketClose ∉ label)
    (blank : ∀ c ∈ lead ++ before ++ after ++ trail, isBlank c = true) :
    headingLabel? (lead ++ blockOpen ++ before ++ bracketOpen :: label ++ bracketClose :: after ++
      blockClose ++ trail) = some label := by
  simp only [List.mem_append] at blank
  rw [headingLabel?_eq_some_iff_exists_line]
  refine ⟨⟨lead, before, label, after, trail, ?_, ?_, ?_, ?_, free.1, free.2, ?_⟩, ?_, trimmed⟩
  · exact fun c mem => blank c (.inl (.inl (.inl mem)))
  · exact fun c mem => blank c (.inl (.inl (.inr mem)))
  · exact fun c mem => blank c (.inl (.inr mem))
  · exact fun c mem => blank c (.inr mem)
  · rwa [← trim_eq_nil_iff, trimmed]
  · simp [HeadingLine.text, HeadingLine.comment]

/-- Headings are read by their grammar: a line is one exactly when it has the parts of one, whose
marks stand apart; white space around it does not matter; and a label comes back from every heading
written for it, marks of comments in it or not. -/
theorem headings_grammar :
    (∀ line label, headingLabel? line = some label ↔
      ∃ heading : HeadingLine, heading.text = line ∧ heading.label = label) ∧
    (∀ line label, headingLabel? line = some label → ∃ comment,
      trim line = blockOpen ++ (comment ++ blockClose) ∧ label.length + 2 ≤ comment.length) ∧
    (∀ line, headingLabel? (trim line) = headingLabel? line) ∧
    ∀ label lead before after trail, label ≠ [] → trim label = label →
      bracketOpen ∉ label ∧ bracketClose ∉ label →
      (∀ c ∈ lead ++ before ++ after ++ trail, isBlank c = true) →
        headingLabel? (lead ++ blockOpen ++ before ++ bracketOpen :: label ++
          bracketClose :: after ++ blockClose ++ trail) = some label := by
  refine ⟨fun line label => headingLabel?_eq_some_iff_exists_line, ?_, headingLabel?_trim, ?_⟩
  · intro line label read
    obtain ⟨heading, rfl, rfl⟩ := headingLabel?_eq_some_iff_exists_line.mp read
    exact ⟨heading.comment, heading.trim_text, heading.length_label_le⟩
  · intro label lead before after trail filled trimmed free blank
    exact headingLabel?_written filled trimmed free blank

/-- A label that holds the marks of comments, in a heading with line breaks and a wide blank in it;
and a mark that would have to open and to close the comment. -/
theorem headings_grammar_marks :
    headingLabel? "\t/*\n[*/ a // /*]\u2003*/ ".toList = some "*/ a // /*".toList ∧
      headingLabel? ['/', '*', '/'] = none := by
  obtain ⟨-, apart, -, written⟩ := headings_grammar
  refine ⟨written "*/ a // /*".toList ['\t'] ['\n'] ['\u2003'] [' '] (by decide) (by decide)
    (by decide) (by simp [isBlank]), ?_⟩
  rw [Option.eq_none_iff_forall_ne_some]
  intro label read
  obtain ⟨comment, commented, -⟩ := apart _ label read
  have short : trim ['/', '*', '/'] = ['/', '*', '/'] := by decide
  simpa [short, blockOpen, blockClose] using congrArg List.length commented

end ParamPanel.Script
