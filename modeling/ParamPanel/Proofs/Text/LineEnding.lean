import Mathlib.Data.List.Basic
import ParamPanel.Proofs.Text.Lines

/-!
# Breaking lines in several ways

A line may end in a line feed, a carriage return or both, and each line of a text may end in its own
way. Normalising reads all of these the same, in a single pass over the text.
-/

namespace ParamPanel.Text

/-! ### One pass -/

/-- The line breaks of a text turned into line feeds from front to back, two characters at a time
where they make a pair. -/
def onePass : List Char → List Char
  | [] => []
  | '\r' :: '\n' :: text => '\n' :: onePass text
  | '\r' :: text => '\n' :: onePass text
  | c :: text => c :: onePass text

lemma normalize_cons {c : Char} (other : c ≠ '\r') (text : List Char) :
    normalize (c :: text) = c :: normalize text := by
  rw [normalize_eq_toFeeds, normalize_eq_toFeeds, toFeeds, toFeeds]
  cases text with
  | nil => simp [joinPairs, other]
  | cons d text => simp [joinPairs, other]

lemma normalize_pair (text : List Char) :
    normalize ('\r' :: '\n' :: text) = '\n' :: normalize text := by
  simp [normalize_eq_toFeeds, toFeeds, joinPairs]

lemma normalize_carriage {text : List Char} (alone : text.head? ≠ some '\n') :
    normalize ('\r' :: text) = '\n' :: normalize text :=
  normalize_append ['\r'] alone

lemma normalize_append_of_not_mem {front : List Char} (free : '\r' ∉ front) (text : List Char) :
    normalize (front ++ text) = front ++ normalize text := by
  induction front with
  | nil => rfl
  | cons c front ih =>
    rw [List.mem_cons, not_or] at free
    rw [List.cons_append, normalize_cons (Ne.symm free.1), ih free.2, List.cons_append]

/-- Joining the pairs first and looking at what is left then comes to the same as one pass. -/
theorem normalize_eq_onePass (text : List Char) : normalize text = onePass text := by
  fun_induction onePass text with
  | case1 => rfl
  | case2 text ih => rw [normalize_pair, ih]
  | case3 text unpaired ih =>
    have alone : text.head? ≠ some '\n' := by
      intro first
      obtain ⟨rest, paired⟩ := List.head?_eq_some_iff.mp first
      exact unpaired rest paired
    rw [normalize_carriage alone, ih]
  | case4 c text _ other ih => rw [normalize_cons other, ih]

lemma normalize_eq_self_iff {text : List Char} : normalize text = text ↔ '\r' ∉ text := by
  refine ⟨?_, normalize_eq_self⟩
  intro same
  rw [← same]
  exact not_mem_normalize text

lemma normalize_normalize (text : List Char) : normalize (normalize text) = normalize text :=
  normalize_eq_self (not_mem_normalize text)

/-! ### Other ways to break lines -/

/-- What a line may end in. -/
inductive LineBreak where
  | feed
  | pair
  | carriage
deriving DecidableEq, Repr

def LineBreak.text : LineBreak → List Char
  | feed => ['\n']
  | pair => ['\r', '\n']
  | carriage => ['\r']

/-- A line break is read as a line feed, unless it starts a pair with what follows. -/
lemma LineBreak.normalize_text_append (lineBreak : LineBreak) {rest : List Char}
    (apart : lineBreak = .carriage → rest.head? ≠ some '\n') :
    normalize (lineBreak.text ++ rest) = '\n' :: normalize rest := by
  cases lineBreak with
  | feed => exact normalize_cons (by decide) rest
  | pair => exact normalize_pair rest
  | carriage => exact normalize_carriage (apart rfl)

/-- A text in which the line breaks that are chosen, the first one under zero, stand for its line
feeds. -/
def respell (choice : Nat → LineBreak) : List Char → List Char
  | [] => []
  | c :: text =>
    if c = '\n' then (choice 0).text ++ respell (fun i => choice (i + 1)) text
    else c :: respell choice text

/-- Nowhere does a carriage return that ends a line come to stand in front of a line feed that ends
the next one, where the two would be taken for a pair. -/
def IsApart (choice : Nat → LineBreak) (text : List Char) : Prop :=
  ∀ front back, text = front ++ '\n' :: '\n' :: back →
    choice (front.count '\n') = .carriage → choice (front.count '\n' + 1) ≠ .feed

variable {choice : Nat → LineBreak} {text : List Char}

lemma IsApart.of_other {c : Char} (h : IsApart choice (c :: text)) (other : c ≠ '\n') :
    IsApart choice text := by
  intro front back split
  have below := h (c :: front) back (by rw [split, List.cons_append])
  rwa [List.count_cons_of_ne other] at below

lemma IsApart.of_feed (h : IsApart choice ('\n' :: text)) :
    IsApart (fun i => choice (i + 1)) text := by
  intro front back split
  have below := h ('\n' :: front) back (by rw [split, List.cons_append])
  rwa [List.count_cons_self] at below

/-- Behind a carriage return that ends a line there is no line feed. -/
lemma IsApart.head?_ne (h : IsApart choice ('\n' :: text)) (carriage : choice 0 = .carriage) :
    (respell (fun i => choice (i + 1)) text).head? ≠ some '\n' := by
  cases text with
  | nil => simp [respell]
  | cons c text =>
    by_cases feed : c = '\n'
    · subst feed
      have other : choice 1 ≠ .feed := h [] text rfl carriage
      cases next : choice 1 with
      | feed => exact absurd next other
      | pair => simp [respell, next, LineBreak.text]
      | carriage => simp [respell, next, LineBreak.text]
    · simp [respell, feed]

/-- Whatever its lines end in, a text is read as if they ended in line feeds. -/
theorem normalize_respell (normal : '\r' ∉ text) (apart : IsApart choice text) :
    normalize (respell choice text) = text := by
  induction text generalizing choice with
  | nil => rfl
  | cons c text ih =>
    rw [List.mem_cons, not_or] at normal
    obtain ⟨other, later⟩ := normal
    by_cases feed : c = '\n'
    · subst feed
      rw [respell, if_pos rfl, LineBreak.normalize_text_append _ apart.head?_ne,
        ih later apart.of_feed]
    · rw [respell, if_neg feed, normalize_cons (Ne.symm other), ih later (apart.of_other feed)]

end ParamPanel.Text
