import Mathlib.Data.List.Basic
import Mathlib.Data.List.TakeWhile
import ParamPanel.Text.Trim

/-!
# Trimmed texts

A text is trimmed when neither its first nor its last character is blank. Trimming gives such a
text, leaves such a text alone, and does not see blanks added at either end. A mark at one end is
taken off once, if it is there.
-/

namespace ParamPanel.Text

lemma trimStart_eq_self {text : List Char} (h : ∀ c ∈ text.head?, isBlank c = false) :
    trimStart text = text := by
  cases text with
  | nil => rfl
  | cons c text =>
    have first : isBlank c = false := h c rfl
    simp [trimStart, first]

lemma trimEnd_eq_self {text : List Char} (h : ∀ c ∈ text.getLast?, isBlank c = false) :
    trimEnd text = text := by
  have reversed : trimStart text.reverse = text.reverse := by
    apply trimStart_eq_self
    simpa using h
  rw [trimEnd]
  change (trimStart text.reverse).reverse = text
  rw [reversed, List.reverse_reverse]

lemma head?_dropWhile_eq_false (p : Char → Bool) (text : List Char) :
    ∀ c ∈ (text.dropWhile p).head?, p c = false := by
  intro c first
  have h := List.head?_dropWhile_not p text
  rw [Option.mem_def.mp first] at h
  exact h

lemma head?_trimStart (text : List Char) : ∀ c ∈ (trimStart text).head?, isBlank c = false :=
  head?_dropWhile_eq_false isBlank text

lemma getLast?_trimEnd (text : List Char) : ∀ c ∈ (trimEnd text).getLast?, isBlank c = false := by
  rw [trimEnd, List.getLast?_reverse]
  exact head?_trimStart text.reverse

lemma trimEnd_prefix (text : List Char) : trimEnd text <+: text := by
  rw [← List.reverse_suffix, trimEnd, List.reverse_reverse]
  exact List.dropWhile_suffix isBlank

lemma head?_trim (text : List Char) : ∀ c ∈ (trim text).head?, isBlank c = false := by
  intro c first
  obtain ⟨rest, h⟩ := trimEnd_prefix (trimStart text)
  apply head?_trimStart text c
  rw [← h, List.head?_append, ← trim, Option.mem_def.mp first]
  rfl

lemma getLast?_trim (text : List Char) : ∀ c ∈ (trim text).getLast?, isBlank c = false :=
  getLast?_trimEnd _

/-- A text is trimmed when its first and its last character are not blank. -/
theorem trim_eq_self_iff {text : List Char} :
    trim text = text ↔ (∀ c ∈ text.head?, isBlank c = false) ∧
      ∀ c ∈ text.getLast?, isBlank c = false := by
  constructor
  · intro h
    rw [← h]
    exact ⟨head?_trim text, getLast?_trim text⟩
  · rintro ⟨first, last⟩
    rw [trim, trimStart_eq_self first, trimEnd_eq_self last]

lemma trim_trim (text : List Char) : trim (trim text) = trim text :=
  trim_eq_self_iff.mpr ⟨head?_trim text, getLast?_trim text⟩

lemma trimStart_of_trim {text : List Char} (h : trim text = text) : trimStart text = text :=
  trimStart_eq_self (trim_eq_self_iff.mp h).1

lemma trimEnd_of_trim {text : List Char} (h : trim text = text) : trimEnd text = text :=
  trimEnd_eq_self (trim_eq_self_iff.mp h).2

lemma trim_trimStart (text : List Char) : trim (trimStart text) = trim text := by
  rw [trim, trim, trimStart_eq_self (head?_trimStart text)]

lemma mem_of_mem_trim {c : Char} {text : List Char} (mem : c ∈ trim text) : c ∈ text := by
  have kept := trimEnd_prefix (trimStart text)
  exact (List.dropWhile_suffix isBlank).subset (kept.subset mem)

lemma mem_trim_of_mem {c : Char} {text : List Char} (mem : c ∈ text) (filled : isBlank c = false) :
    c ∈ trim text := by
  have kept {text : List Char} (mem : c ∈ text) : c ∈ trimStart text := by
    rw [← List.takeWhile_append_dropWhile (p := isBlank) (l := text)] at mem
    rcases List.mem_append.mp mem with blank | behind
    · rw [List.mem_takeWhile_imp blank] at filled
      cases filled
    · exact behind
  rw [trim, trimEnd, List.mem_reverse]
  exact kept (List.mem_reverse.mpr (kept mem))

section Filled

variable {c : Char} (filled : isBlank c = false) (front back : List Char)

include filled

lemma trimStart_append_cons : trimStart (front ++ c :: back) = trimStart front ++ c :: back := by
  rw [trimStart, List.dropWhile_append]
  split
  · rename_i blank
    rw [trimStart, List.isEmpty_iff.mp blank, List.dropWhile_cons_of_neg (by simp [filled])]
    rfl
  · rfl

lemma trimEnd_append_cons : trimEnd (front ++ c :: back) = front ++ c :: trimEnd back := by
  calc trimEnd (front ++ c :: back)
      = (trimStart (back.reverse ++ c :: front.reverse)).reverse := by simp [trimEnd, trimStart]
    _ = (trimStart back.reverse ++ c :: front.reverse).reverse := by
      rw [trimStart_append_cons filled]
    _ = front ++ c :: trimEnd back := by simp [trimEnd, trimStart]

/-- A character that is not blank keeps trimming at its two sides apart. -/
lemma trim_append_cons : trim (front ++ c :: back) = trimStart front ++ c :: trimEnd back := by
  rw [trim, trimStart_append_cons filled, trimEnd_append_cons filled]

end Filled

/-- A text in a pair of marks that are not blank has no blanks at its ends. -/
lemma trim_between {first last : Char} (opens : isBlank first = false)
    (closes : isBlank last = false) (inner : List Char) :
    trim (first :: (inner ++ [last])) = first :: (inner ++ [last]) := by
  calc trim ([] ++ first :: (inner ++ [last]))
      = first :: trimEnd (inner ++ last :: []) := trim_append_cons opens [] _
    _ = first :: (inner ++ [last]) := by rw [trimEnd_append_cons closes]; rfl

/-- Trimmed texts with a mark between neighbours make a trimmed text. -/
lemma trim_intercalate {mark : Char} (filled : isBlank mark = false) {texts : List (List Char)}
    (trimmed : ∀ text ∈ texts, trim text = text) :
    trim ([mark].intercalate texts) = [mark].intercalate texts := by
  induction texts with
  | nil => rfl
  | cons text texts ih =>
    have first := trimmed text (by simp)
    cases texts with
    | nil => simpa using first
    | cons next texts =>
      have rest := ih fun other mem => trimmed other (by simp [mem])
      rw [List.intercalate_cons_cons, List.append_assoc, List.singleton_append,
        trim_append_cons filled, trimStart_of_trim first, trimEnd_of_trim rest]

lemma trim_eq_nil {text : List Char} (h : ∀ c ∈ text, isBlank c = true) : trim text = [] := by
  rw [trim, trimStart, List.dropWhile_eq_nil_iff.mpr h]
  rfl

lemma trim_eq_nil_iff {text : List Char} : trim text = [] ↔ ∀ c ∈ text, isBlank c = true := by
  constructor
  · intro nothing
    rw [trim, trimEnd, List.reverse_eq_nil_iff, List.dropWhile_eq_nil_iff] at nothing
    rw [← List.dropWhile_eq_nil_iff]
    have first := head?_trimStart text
    cases h : trimStart text with
    | nil => exact h
    | cons c rest =>
      rw [h] at first nothing
      have blank := nothing c (by simp)
      rw [first c rfl] at blank
      cases blank
  · exact trim_eq_nil

lemma trimEnd_append_blank (text : List Char) {blanks : List Char}
    (h : ∀ c ∈ blanks, isBlank c = true) : trimEnd (text ++ blanks) = trimEnd text := by
  rw [trimEnd, List.reverse_append, List.dropWhile_append_of_pos (by simpa using h)]
  rfl

/-- Blanks around a text make no difference to what is left of it. -/
theorem trim_append_blank (text : List Char) {lead trail : List Char}
    (hl : ∀ c ∈ lead, isBlank c = true) (ht : ∀ c ∈ trail, isBlank c = true) :
    trim (lead ++ text ++ trail) = trim text := by
  rw [trim, trimStart, List.append_assoc, List.dropWhile_append_of_pos hl, List.dropWhile_append]
  split
  · rename_i blank
    have all : ∀ c ∈ text, isBlank c = true := by simpa using blank
    rw [List.dropWhile_eq_nil_iff.mpr ht, trim_eq_nil all]
    rfl
  · rw [trimEnd_append_blank _ ht]
    rfl

/-- What is taken off the end of a text is blank. -/
lemma exists_trail (text : List Char) :
    ∃ trail, trimEnd text ++ trail = text ∧ ∀ c ∈ trail, isBlank c = true := by
  refine ⟨(text.reverse.takeWhile isBlank).reverse, ?_, ?_⟩
  · rw [trimEnd, ← List.reverse_append, List.takeWhile_append_dropWhile, List.reverse_reverse]
  · intro c mem
    exact List.mem_takeWhile_imp (List.mem_reverse.mp mem)

lemma trim_trimEnd (text : List Char) : trim (trimEnd text) = trim text := by
  obtain ⟨trail, whole, blank⟩ := exists_trail text
  have lead : ∀ c ∈ ([] : List Char), isBlank c = true := by simp
  conv_rhs => rw [← whole]
  exact (trim_append_blank (trimEnd text) lead blank).symm

/-- A text is blanks and a rest that starts with none, and the rest is what trimming sees. -/
lemma exists_lead (text : List Char) : ∃ lead rest, lead ++ rest = text ∧
    (∀ c ∈ lead, isBlank c = true) ∧ (∀ c ∈ rest.head?, isBlank c = false) ∧
      trim text = trim rest := by
  exact ⟨text.takeWhile isBlank, trimStart text, List.takeWhile_append_dropWhile,
    fun c mem => List.mem_takeWhile_imp mem, head?_trimStart text, (trim_trimStart text).symm⟩

/-- Trimming leaves the trimmed text that stands between blanks. -/
theorem trim_eq_iff {text core : List Char} :
    trim text = core ↔ trim core = core ∧ ∃ lead trail, lead ++ core ++ trail = text ∧
      (∀ c ∈ lead, isBlank c = true) ∧ ∀ c ∈ trail, isBlank c = true := by
  constructor
  · rintro rfl
    obtain ⟨trail, whole, blank⟩ := exists_trail (trimStart text)
    refine ⟨trim_trim text, text.takeWhile isBlank, trail, ?_,
      fun c mem => List.mem_takeWhile_imp mem, blank⟩
    rw [List.append_assoc, trim, whole]
    exact List.takeWhile_append_dropWhile
  · rintro ⟨trimmed, lead, trail, rfl, hl, ht⟩
    rw [trim_append_blank core hl ht, trimmed]

lemma length_trim_le (text : List Char) : (trim text).length ≤ text.length := by
  obtain ⟨-, lead, trail, whole, -, -⟩ := trim_eq_iff.mp (rfl : trim text = trim text)
  have lengths := congrArg List.length whole
  simp only [List.length_append] at lengths
  omega

lemma trim_cons_blank {c : Char} (h : isBlank c = true) (text : List Char) :
    trim (c :: text) = trim text := by
  have lead : ∀ d ∈ [c], isBlank d = true := by simpa using h
  have trail : ∀ d ∈ ([] : List Char), isBlank d = true := by simp
  simpa using trim_append_blank text lead trail

/-! ### Marks at the ends -/

section Mark

variable {mark text : List Char}

lemma isSuffixOf?_eq_some_iff {rest : List Char} :
    mark.isSuffixOf? text = some rest ↔ rest ++ mark = text := by
  rw [List.isSuffixOf?, Option.map_eq_some_iff]
  constructor
  · rintro ⟨reversed, h, rfl⟩
    rw [List.isPrefixOf?_eq_some_iff_append_eq] at h
    rw [← List.reverse_inj, List.reverse_append, List.reverse_reverse, h]
  · rintro rfl
    refine ⟨rest.reverse, ?_, List.reverse_reverse rest⟩
    rw [List.isPrefixOf?_eq_some_iff_append_eq, List.reverse_append]

@[simp] lemma withoutLeading_append (mark text : List Char) :
    withoutLeading mark (mark ++ text) = text := by
  rw [withoutLeading, List.isPrefixOf?_eq_some_iff_append_eq.mpr rfl, Option.getD_some]

@[simp] lemma withoutTrailing_append (text mark : List Char) :
    withoutTrailing mark (text ++ mark) = text := by
  rw [withoutTrailing, isSuffixOf?_eq_some_iff.mpr rfl, Option.getD_some]

lemma withoutLeading_eq_self (h : ¬ mark <+: text) : withoutLeading mark text = text := by
  cases found : mark.isPrefixOf? text with
  | none => rw [withoutLeading, found, Option.getD_none]
  | some rest => exact absurd ⟨rest, List.isPrefixOf?_eq_some_iff_append_eq.mp found⟩ h

lemma withoutLeading_subset (mark text : List Char) : withoutLeading mark text ⊆ text := by
  by_cases h : mark <+: text
  · obtain ⟨rest, rfl⟩ := h
    rw [withoutLeading_append]
    exact List.subset_append_right mark rest
  · rw [withoutLeading_eq_self h]
    exact List.Subset.refl text

lemma withoutTrailing_subset (mark text : List Char) : withoutTrailing mark text ⊆ text := by
  rw [withoutTrailing]
  cases found : mark.isSuffixOf? text with
  | none => exact List.Subset.refl text
  | some rest =>
    rw [← isSuffixOf?_eq_some_iff.mp found]
    exact List.subset_append_left rest mark

end Mark

end ParamPanel.Text
