import ParamPanel.Proofs.Script.Hint

/-!
# Lists of choices

An item of a list writes an entry: a value and a label around the first colon, or one text that
serves as both. Entries that hold none of the marks between them are read back from the list written
of them, and no comment lists any others.
-/

namespace ParamPanel.Script

open Text

/-! ### Items -/

/-- The items that write an entry; blanks around a value or a label are no part of it. -/
inductive WritesEntry : List Char → Entry → Prop
  | labelled {value label : List Char} : labelSeparator ∉ value →
      WritesEntry (value ++ labelSeparator :: label) ⟨trim value, trim label⟩
  | bare {text : List Char} : labelSeparator ∉ text → WritesEntry text ⟨trim text, trim text⟩

/-- An entry that a list can hold: its texts are trimmed, and the marks that end a value or a label
are not in them. -/
structure Entry.IsListable (entry : Entry) : Prop where
  value_trimmed : trim entry.value = entry.value
  label_trimmed : trim entry.label = entry.label
  value_unparted : choiceSeparator ∉ entry.value ∧ labelSeparator ∉ entry.value
  label_unparted : choiceSeparator ∉ entry.label

section Item

variable {item : List Char} {entry : Entry}

lemma WritesEntry.ofItem_eq (written : WritesEntry item entry) :
    Entry.ofItem (trim item) = entry := by
  cases written with
  | @labelled value label unparted =>
    -- Trimming the item trims its two texts at their outer ends, so its first colon stays the first.
    have first : labelSeparator ∉ trimStart value :=
      fun mem => unparted ((List.dropWhile_suffix isBlank).subset mem)
    rw [trim_append_cons rfl, Entry.ofItem, splitFirst?_append first]
    simp only [trim_trimStart, trim_trimEnd]
  | bare unparted =>
    have whole : labelSeparator ∉ trim item := fun mem => unparted (mem_of_mem_trim mem)
    rw [Entry.ofItem, splitFirst?_of_not_mem whole]

lemma writesEntry_ofItem (item : List Char) : WritesEntry item (Entry.ofItem (trim item)) := by
  by_cases parted : labelSeparator ∈ item
  · obtain ⟨value, label, rfl, unparted⟩ := List.eq_append_cons_of_mem parted
    have written : WritesEntry (value ++ labelSeparator :: label) _ := .labelled unparted
    rwa [written.ofItem_eq]
  · have written : WritesEntry item _ := .bare parted
    rwa [written.ofItem_eq]

lemma WritesEntry.isListable (written : WritesEntry item entry) (free : choiceSeparator ∉ item) :
    entry.IsListable := by
  cases written with
  | labelled unparted =>
    rw [List.mem_append, List.mem_cons, not_or, not_or] at free
    exact ⟨trim_trim _, trim_trim _, ⟨fun mem => free.1 (mem_of_mem_trim mem),
      fun mem => unparted (mem_of_mem_trim mem)⟩, fun mem => free.2.2 (mem_of_mem_trim mem)⟩
  | bare unparted =>
    exact ⟨trim_trim _, trim_trim _, ⟨fun mem => free (mem_of_mem_trim mem),
      fun mem => unparted (mem_of_mem_trim mem)⟩, fun mem => free (mem_of_mem_trim mem)⟩

end Item

/-- The entries of a list are written by its items, one by each. -/
lemma forall₂_entries (inner : List Char) :
    List.Forall₂ WritesEntry (fields choiceSeparator inner) (entries inner) := by
  rw [entries, List.forall₂_map_right_iff, List.forall₂_same]
  exact fun item _ => writesEntry_ofItem item

lemma isListable_of_mem_entries {inner : List Char} {entry : Entry}
    (mem : entry ∈ entries inner) : entry.IsListable := by
  obtain ⟨item, inside, rfl⟩ := List.mem_map.mp mem
  exact (writesEntry_ofItem item).isListable (not_mem_of_mem_fields inside)

/-! ### Written lists -/

/-- The item that writes an entry with both of its texts. -/
def Entry.text (entry : Entry) : List Char := entry.value ++ labelSeparator :: entry.label

/-- The comment that lists entries as the choices of a parameter. -/
def choiceComment (listed : List Entry) : List Char :=
  lineComment ++ ' ' :: bracketOpen ::
    ([choiceSeparator].intercalate (listed.map Entry.text) ++ [bracketClose])

namespace Entry.IsListable

variable {entry : Entry} (listable : entry.IsListable)

include listable

lemma writesEntry_text : WritesEntry entry.text entry := by
  have written : WritesEntry entry.text ⟨trim entry.value, trim entry.label⟩ :=
    .labelled listable.value_unparted.2
  rwa [listable.value_trimmed, listable.label_trimmed] at written

lemma trim_text : trim entry.text = entry.text := by
  rw [Entry.text, trim_append_cons rfl, trimStart_of_trim listable.value_trimmed,
    trimEnd_of_trim listable.label_trimmed]

lemma choiceSeparator_not_mem_text : choiceSeparator ∉ entry.text := by
  have mark : choiceSeparator ≠ labelSeparator := by decide
  simp [Entry.text, listable.value_unparted.1, listable.label_unparted, mark]

end Entry.IsListable

section List

variable {listed : List Entry}

lemma entries_intercalate (listable : ∀ entry ∈ listed, entry.IsListable) (ne : listed ≠ []) :
    entries ([choiceSeparator].intercalate (listed.map Entry.text)) = listed := by
  have free : ∀ item ∈ listed.map Entry.text, choiceSeparator ∉ item := by
    intro item mem
    obtain ⟨entry, inside, rfl⟩ := List.mem_map.mp mem
    exact (listable entry inside).choiceSeparator_not_mem_text
  rw [entries, fields_intercalate free (by simpa using ne), List.map_map]
  conv_rhs => rw [← List.map_id listed]
  apply List.map_congr_left
  intro entry mem
  exact (listable entry mem).writesEntry_text.ofItem_eq

lemma commentText_choiceComment (listed : List Entry) : commentText (choiceComment listed) =
    bracketOpen :: ([choiceSeparator].intercalate (listed.map Entry.text) ++ [bracketClose]) := by
  generalize inner_eq : [choiceSeparator].intercalate (listed.map Entry.text) = inner
  have shown : trim (' ' :: bracketOpen :: (inner ++ [bracketClose])) =
      bracketOpen :: (inner ++ [bracketClose]) := by
    rw [trim_cons_blank rfl, trim_between rfl rfl]
  have unmarked : ¬ lineComment <+: bracketOpen :: (inner ++ [bracketClose]) := by
    simp [lineComment, bracketOpen]
  rw [choiceComment, inner_eq, commentText_marked (by rwa [shown]), commentText, shown,
    withoutLeading_eq_self unmarked, trim_between rfl rfl]

lemma withoutBrackets_bracketed (inner : List Char) :
    withoutBrackets (bracketOpen :: (inner ++ [bracketClose])) = trim inner := by
  have opened := withoutLeading_append [bracketOpen] (inner ++ [bracketClose])
  rw [List.singleton_append] at opened
  rw [withoutBrackets, opened, withoutTrailing_append]

/-- The text in the brackets of a written list is the list itself. -/
lemma withoutBrackets_choiceComment (listable : ∀ entry ∈ listed, entry.IsListable) :
    withoutBrackets (commentText (choiceComment listed)) =
      [choiceSeparator].intercalate (listed.map Entry.text) := by
  rw [commentText_choiceComment, withoutBrackets_bracketed]
  apply trim_intercalate rfl
  intro item mem
  obtain ⟨entry, inside, rfl⟩ := List.mem_map.mp mem
  exact (listable entry inside).trim_text

lemma choiceSeparator_mem_intercalate {texts : List (List Char)} (two : 2 ≤ texts.length) :
    choiceSeparator ∈ [choiceSeparator].intercalate texts := by
  match texts, two with
  | first :: next :: texts, _ => simp [List.intercalate_cons_cons]

end List

lemma Hint.ofComment_eq_choices_iff {comment : List Char} {listed : List Entry} :
    Hint.ofComment comment = .choices listed ↔ Shape.Fits (commentText comment) .choices ∧
      listed = entries (withoutBrackets (commentText comment)) := by
  have all : ∀ shape, shape ∈ [Shape.bound, .choices, .range] := by
    rintro (_ | _ | _) <;> simp
  rw [Hint.ofComment_eq_inOrder, Hint.inOrder_eq_iff all Hint.noConfusion]
  exact Shape.exists_read?_choices_iff

lemma Hint.ofComment_choiceComment {listed : List Entry} (two : 2 ≤ listed.length)
    (listable : ∀ entry ∈ listed, entry.IsListable) :
    Hint.ofComment (choiceComment listed) = .choices listed := by
  have ne : listed ≠ [] := by
    rintro rfl
    simp at two
  rw [Hint.ofComment_eq_choices_iff, Shape.Fits, withoutBrackets_choiceComment listable,
    entries_intercalate listable ne, commentText_choiceComment]
  exact ⟨⟨rfl, choiceSeparator_mem_intercalate (by simpa using two)⟩, rfl⟩

/-- Choices survive being written down and read again: every list of entries that a list can hold is
read back from its comment, and every comment that lists choices lists such entries, one for each
item between its commas, which a written list would give back. -/
theorem choices_written_read :
    (∀ listed : List Entry, 2 ≤ listed.length → (∀ entry ∈ listed, entry.IsListable) →
      Hint.ofComment (choiceComment listed) = .choices listed) ∧
    ∀ comment listed, Hint.ofComment comment = .choices listed →
      2 ≤ listed.length ∧ (∀ entry ∈ listed, entry.IsListable) ∧
        (∃ items, [choiceSeparator].intercalate items = withoutBrackets (commentText comment) ∧
          (∀ item ∈ items, choiceSeparator ∉ item) ∧ List.Forall₂ WritesEntry items listed) ∧
        Hint.ofComment (choiceComment listed) = .choices listed := by
  refine ⟨fun listed two listable => Hint.ofComment_choiceComment two listable, ?_⟩
  intro comment listed read
  have two : 2 ≤ listed.length := by
    have sound := isSound_ofComment comment
    rwa [read] at sound
  have same := (Hint.ofComment_eq_choices_iff.mp read).2
  have listable : ∀ entry ∈ listed, entry.IsListable := by
    intro entry mem
    rw [same] at mem
    exact isListable_of_mem_entries mem
  have written := forall₂_entries (withoutBrackets (commentText comment))
  rw [← same] at written
  exact ⟨two, listable, ⟨_, intercalate_fields choiceSeparator _,
    fun item mem => not_mem_of_mem_fields mem, written⟩,
    Hint.ofComment_choiceComment two listable⟩

/-- Brackets at the ends of a list, an entry without texts, one that comes twice and a label with a
colon in it; and a list that no bracket closes and that has no labels. -/
theorem choices_written_read_uneven :
    let bracketed : Entry := ⟨['[', 'a'], ['1', ':', '2', ']']⟩
    let listed := [bracketed, ⟨[], []⟩, bracketed]
    let unlabelled := [⟨['s'], ['s']⟩, ⟨[']', 'm'], [']', 'm']⟩]
    choiceComment listed = "// [[a:1:2],:,[a:1:2]]".toList ∧
      Hint.ofComment (choiceComment listed) = .choices listed ∧
      Hint.ofComment "[ s , ]m".toList = .choices unlabelled ∧
      Hint.ofComment (choiceComment unlabelled) = .choices unlabelled := by
  intro bracketed listed unlabelled
  have listable : ∀ entry ∈ listed, entry.IsListable := by
    intro entry mem
    simp only [listed, List.mem_cons, List.not_mem_nil, or_false] at mem
    rcases mem with rfl | rfl | rfl <;> exact ⟨by decide, by decide, by decide, by decide⟩
  have read : Hint.ofComment "[ s , ]m".toList = .choices unlabelled := by decide +kernel
  obtain ⟨-, -, -, again⟩ := choices_written_read.2 _ _ read
  exact ⟨by decide, choices_written_read.1 listed (by decide) listable, read, again⟩

end ParamPanel.Script
