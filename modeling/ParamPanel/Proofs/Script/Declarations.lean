import Mathlib.Data.List.Basic
import Mathlib.Tactic.Tauto
import ParamPanel.Script.Declarations
import ParamPanel.Proofs.Script.Scan

/-!
# Declarations

A definition starts where a line starts with a keyword and white space behind it. The declarations of
a script are its longest head of whole lines in which no definition starts, so fewer keywords never
leave fewer declarations, and those of two lists of keywords together leave what the stricter of the
two leaves.
-/

namespace ParamPanel.Script

open Text

/-! ### Definitions -/

/-- Whether a text starts with a definition: a keyword that is all of the name there, and white space
behind it on the same line. -/
def StartsDefinition (keywords : Keywords) (text : List Char) : Prop :=
  ∃ word ∈ keywords.words, ∃ gap rest, word.toList ++ gap :: rest = text ∧
    (∀ c ∈ word.toList, isNameChar c = true) ∧ isNameChar gap = false ∧
      isBlank gap = true ∧ gap ≠ '\n'

/-- Whether a definition starts on any line of a text. -/
def Defines (keywords : Keywords) (text : List Char) : Prop :=
  ∃ front tail, front ++ tail = text ∧ EndsLine front ∧ StartsDefinition keywords tail

section Definition

variable {keywords : Keywords} {word : String} {gap : Char} {text : List Char}

lemma isNameChar_of_mem_keyword (mem : word ∈ keywords.words) :
    ∀ c ∈ word.toList, isNameChar c = true := by
  have keyword := keywords.isKeyword_of_mem word mem
  rw [isKeyword, Bool.and_eq_true, List.all_eq_true] at keyword
  intro c inside
  exact isNameChar_of_isWordChar (keyword.2 c inside)

lemma keyword_ne_nil (mem : word ∈ keywords.words) : word.toList ≠ [] := by
  have keyword := keywords.isKeyword_of_mem word mem
  intro nothing
  rw [String.toList_eq_nil_iff.mp nothing] at keyword
  cases keyword

lemma isSingleLine_keyword (mem : word ∈ keywords.words) : IsSingleLine word.toList :=
  isSingleLine_of_not_blank fun c inside =>
    isBlank_of_isNameChar (isNameChar_of_mem_keyword mem c inside)

lemma isNameChar_of_isBlank {c : Char} (blank : isBlank c = true) : isNameChar c = false := by
  by_contra name
  rw [isBlank_of_isNameChar (by simpa using name)] at blank
  cases blank

lemma startsDefinition_keyword (mem : word ∈ keywords.words) (blank : isBlank gap = true)
    (inline : gap ≠ '\n') (rest : List Char) :
    StartsDefinition keywords (word.toList ++ gap :: rest) :=
  ⟨word, mem, gap, rest, rfl, isNameChar_of_mem_keyword mem, isNameChar_of_isBlank blank, blank,
    inline⟩

lemma StartsDefinition.ne_nil (h : StartsDefinition keywords text) : text ≠ [] := by
  obtain ⟨word, -, gap, rest, rfl, -⟩ := h
  simp

/-- A line opens a definition when it is a keyword, a blank and a rest. -/
theorem opensDefinition_iff : opensDefinition keywords text = true ↔
    ∃ word ∈ keywords.words, ∃ gap rest, word.toList ++ gap :: rest = text ∧
      isBlank gap = true := by
  rw [opensDefinition, Bool.and_eq_true, Option.any_eq_true, Keywords.contains,
    List.contains_eq_mem, decide_eq_true_eq]
  constructor
  · rintro ⟨⟨gap, first, blank⟩, mem⟩
    have parts := List.takeWhile_append_dropWhile (p := isNameChar) (l := text)
    obtain ⟨rest, behind⟩ := List.head?_eq_some_iff.mp first
    rw [behind] at parts
    exact ⟨_, mem, gap, rest, by rwa [String.toList_ofList], blank⟩
  · rintro ⟨word, mem, gap, rest, rfl, blank⟩
    have named := isNameChar_of_mem_keyword mem
    have ends : ∀ c ∈ (gap :: rest).head?, isNameChar c = false :=
      forall_head?_cons (isNameChar_of_isBlank blank) rest
    rw [takeWhile_run named ends, dropWhile_run named ends, String.ofList_toList]
    exact ⟨⟨gap, rfl, blank⟩, mem⟩

lemma opensDefinition_of_nameless (keywords : Keywords) {line : List Char}
    (nameless : ∀ c ∈ line.head?, isNameChar c = false) :
    opensDefinition keywords line = false := by
  rw [← Bool.not_eq_true, opensDefinition_iff]
  rintro ⟨word, mem, gap, rest, rfl, -⟩
  obtain ⟨c, chars, word_eq⟩ := List.exists_cons_of_ne_nil (keyword_ne_nil mem)
  have named := isNameChar_of_mem_keyword mem c (by simp [word_eq])
  rw [nameless c (by simp [word_eq])] at named
  cases named

lemma opensDefinition_lineContent_iff :
    opensDefinition keywords (lineContent text) = true ↔ StartsDefinition keywords text := by
  rw [opensDefinition_iff]
  constructor
  · rintro ⟨word, mem, gap, rest, parts, blank⟩
    -- The character behind the word is still on the line, so it is no line feed.
    have inline : gap ≠ '\n' := by
      have inside : gap ∈ lineContent text := by simp [← parts]
      simpa using List.mem_takeWhile_imp inside
    have whole : lineContent text ++ text.dropWhile (· != '\n') = text :=
      List.takeWhile_append_dropWhile
    rw [← whole, ← parts, List.append_assoc, List.cons_append]
    exact startsDefinition_keyword mem blank inline _
  · rintro ⟨word, mem, gap, rest, rfl, -, -, blank, inline⟩
    have free : '\n' ∉ word.toList ++ [gap] := by
      simp [(isSingleLine_keyword mem).1, Ne.symm inline]
    refine ⟨word, mem, gap, lineContent rest, ?_, blank⟩
    rw [List.append_cons, List.append_cons _ _ rest, lineContent_append free]

lemma StartsDefinition.exists_raw (h : StartsDefinition keywords text) :
    ∃ raw, (rawLines text).head? = some raw ∧ endsDeclarations keywords raw = true := by
  obtain ⟨raw, first, content⟩ := head?_rawLines h.ne_nil
  refine ⟨raw, first, ?_⟩
  rw [endsDeclarations, content]
  exact opensDefinition_lineContent_iff.mpr h

/-- Going through the lines of a text finds its definitions. -/
theorem hasDefinition_iff : hasDefinition keywords text = true ↔ Defines keywords text := by
  rw [hasDefinition, List.any_eq_true]
  constructor
  · rintro ⟨raw, mem, opens⟩
    -- The text parts in front of the line that opens, and the tail reads as the lines from there on.
    obtain ⟨above, below, raws⟩ := List.append_of_mem mem
    have lines_eq := areLines_rawLines text
    rw [raws] at lines_eq
    obtain ⟨-, later, ends⟩ := lines_eq.of_append
    have whole : above.flatten ++ (raw :: below).flatten = text := by
      rw [← List.flatten_append, ← raws, flatten_rawLines]
    refine ⟨above.flatten, (raw :: below).flatten, whole, ends (by simp), ?_⟩
    have filled : (raw :: below).flatten ≠ [] := by
      intro nothing
      have none_left := later.rawLines_flatten
      rw [nothing] at none_left
      cases none_left
    obtain ⟨first, first_eq, content⟩ := head?_rawLines filled
    rw [later.rawLines_flatten] at first_eq
    cases first_eq
    rwa [← opensDefinition_lineContent_iff, ← content]
  · rintro ⟨front, tail, rfl, closed, starts⟩
    obtain ⟨raw, first, opens⟩ := starts.exists_raw
    rw [rawLines_append closed]
    exact ⟨raw, List.mem_append_right _ (List.mem_of_head? first), opens⟩

lemma hasDefinition_eq_false_iff :
    hasDefinition keywords text = false ↔ ¬ Defines keywords text := by
  rw [← hasDefinition_iff, Bool.not_eq_true]

/-- A definition stays one whatever follows the text that it is in. -/
lemma Defines.of_prefix {front : List Char} (h : Defines keywords front) (start : front <+: text) :
    Defines keywords text := by
  obtain ⟨above, tail, rfl, closed, word, mem, gap, rest, rfl, run⟩ := h
  obtain ⟨more, rfl⟩ := start
  exact ⟨above, word.toList ++ gap :: (rest ++ more), by simp, closed, word, mem, gap, _, rfl, run⟩

lemma Defines.of_subset {fewer : Keywords} (h : Defines fewer text)
    (sub : fewer.words ⊆ keywords.words) : Defines keywords text := by
  obtain ⟨front, tail, whole, closed, word, mem, starts⟩ := h
  exact ⟨front, tail, whole, closed, word, sub mem, starts⟩

end Definition

/-! ### Heads -/

section Head

variable {keywords : Keywords} {front text : List Char}

/-- The raw lines of the declarations of a text. -/
def declaredLines (keywords : Keywords) (text : List Char) : List (List Char) :=
  (rawLines text).takeWhile (!endsDeclarations keywords ·)

lemma rawLines_declarations (keywords : Keywords) (text : List Char) :
    rawLines (declarations keywords text) = declaredLines keywords text := by
  have raws := areLines_rawLines text
  rw [← List.takeWhile_append_dropWhile (p := (!endsDeclarations keywords ·)) (l := rawLines text)]
    at raws
  exact raws.of_append.1.rawLines_flatten

/-- Lines without a definition are declared, and the rest is read as if they were not there. -/
lemma declaredLines_append (plain : hasDefinition keywords front = false)
    (hf : text ≠ [] → EndsLine front) :
    declaredLines keywords (front ++ text) = rawLines front ++ declaredLines keywords text := by
  have all : ∀ raw ∈ rawLines front, (!endsDeclarations keywords raw) = true := by
    intro raw mem
    rw [hasDefinition, List.any_eq_false] at plain
    simpa using plain raw mem
  rw [declaredLines, rawLines_append_of_ne hf, List.takeWhile_append_of_pos all]
  rfl

lemma declarations_append (plain : hasDefinition keywords front = false)
    (hf : text ≠ [] → EndsLine front) :
    declarations keywords (front ++ text) = front ++ declarations keywords text := by
  have lines_eq := congrArg List.flatten (declaredLines_append plain hf)
  rwa [List.flatten_append, flatten_rawLines] at lines_eq

lemma declarations_eq_self (plain : hasDefinition keywords text = false) :
    declarations keywords text = text := by
  have nothing : ([] : List Char) ≠ [] → EndsLine text := fun ne => absurd rfl ne
  have whole := declarations_append plain nothing
  have rest : declarations keywords [] = [] := rfl
  rwa [rest, List.append_nil] at whole

/-- Behind declarations, the text from a definition on is not read. -/
lemma declarations_append_definition {raw : List Char} (hf : EndsLine front)
    (first : (rawLines text).head? = some raw) (definition : endsDeclarations keywords raw = true) :
    declarations keywords (front ++ text) = declarations keywords front := by
  obtain ⟨raws, lines_eq⟩ := List.head?_eq_some_iff.mp first
  rw [declarations, declarations, rawLines_append hf, lines_eq, List.takeWhile_append]
  split
  · rename_i whole
    have kept := (List.takeWhile_prefix (!endsDeclarations keywords ·)).eq_of_length whole
    rw [List.takeWhile_cons_of_neg (by simp [definition]), List.append_nil, kept]
  · rfl

lemma hasDefinition_declarations (keywords : Keywords) (text : List Char) :
    hasDefinition keywords (declarations keywords text) = false := by
  rw [hasDefinition, rawLines_declarations, List.any_eq_false]
  intro raw mem
  simpa using List.mem_takeWhile_imp mem

end Head

/-- A head of a script: whole lines of it from its start, of which only the last line of the script
may lack its line feed, and on none of which a definition starts. -/
structure IsFreeHead (keywords : Keywords) (script head : List Char) : Prop where
  whole : ∃ rest, head ++ rest = script ∧ (rest ≠ [] → EndsLine head)
  free : ¬ Defines keywords head

section FreeHead

variable {keywords other : Keywords} {script head : List Char}

lemma isFreeHead_declarations (keywords : Keywords) (script : List Char) :
    IsFreeHead keywords script (declarations keywords script) where
  whole := by
    have parts := List.takeWhile_append_dropWhile (p := (!endsDeclarations keywords ·))
      (l := rawLines script)
    have lines_eq := areLines_rawLines script
    rw [← parts] at lines_eq
    refine ⟨((rawLines script).dropWhile (!endsDeclarations keywords ·)).flatten, ?_, ?_⟩
    · rw [declarations, ← List.flatten_append, parts, flatten_rawLines]
    · intro more
      apply lines_eq.of_append.2.2
      intro nothing
      rw [nothing] at more
      exact more rfl
  free := hasDefinition_eq_false_iff.mp (hasDefinition_declarations keywords script)

lemma IsFreeHead.prefix_declarations (h : IsFreeHead keywords script head) :
    head <+: declarations keywords script := by
  obtain ⟨⟨rest, rfl, closed⟩, free⟩ := h
  rw [declarations_append (hasDefinition_eq_false_iff.mpr free) closed]
  exact List.prefix_append head _

lemma declarations_eq_iff : declarations keywords script = head ↔
    IsFreeHead keywords script head ∧
      ∀ other, IsFreeHead keywords script other → other.length ≤ head.length := by
  constructor
  · rintro rfl
    exact ⟨isFreeHead_declarations keywords script,
      fun other free => free.prefix_declarations.length_le⟩
  · rintro ⟨free, longest⟩
    exact (free.prefix_declarations.eq_of_length_le
      (longest _ (isFreeHead_declarations keywords script))).symm

lemma declarations_prefix_of_subset (sub : keywords.words ⊆ other.words) (script : List Char) :
    declarations other script <+: declarations keywords script := by
  have free := isFreeHead_declarations other script
  exact IsFreeHead.prefix_declarations ⟨free.whole, fun found => free.free (found.of_subset sub)⟩

/-- Of two heads of one script, the shorter one is a head of the other. -/
lemma declarations_prefix_of_length_le (keywords other : Keywords) (script : List Char)
    (shorter : (declarations keywords script).length ≤ (declarations other script).length) :
    declarations keywords script <+: declarations other script := by
  obtain ⟨rest, whole, -⟩ := (isFreeHead_declarations keywords script).whole
  obtain ⟨rest', whole', -⟩ := (isFreeHead_declarations other script).whole
  exact List.prefix_of_prefix_length_le ⟨rest, whole⟩ ⟨rest', whole'⟩ shorter

end FreeHead

/-! ### Keywords together -/

section Both

variable {first second both : Keywords}

lemma Keywords.ofList_append (first second : Keywords) : ∃ both,
    Keywords.ofList (first.words ++ second.words) = .ok both ∧
      both.words = first.words ++ second.words := by
  have filled : first.words ++ second.words ≠ [] := by simp [first.words_ne_nil]
  have accepted : ∀ word ∈ first.words ++ second.words, isKeyword word = true := by
    intro word mem
    rcases List.mem_append.mp mem with left | right
    · exact first.isKeyword_of_mem word left
    · exact second.isKeyword_of_mem word right
  refine ⟨⟨first.words ++ second.words, filled, accepted⟩, ?_, rfl⟩
  rw [Keywords.ofList, dif_neg filled]
  split
  · rename_i word bad
    have refused := List.find?_some bad
    rw [accepted word (List.mem_of_find?_eq_some bad)] at refused
    cases refused
  · rfl

section Union

variable (union : ∀ word, word ∈ both.words ↔ word ∈ first.words ∨ word ∈ second.words)

include union

lemma Defines.of_union {text : List Char} (h : Defines both text) :
    Defines first text ∨ Defines second text := by
  obtain ⟨front, tail, whole, closed, word, mem, starts⟩ := h
  rcases (union word).mp mem with left | right
  · exact .inl ⟨front, tail, whole, closed, word, left, starts⟩
  · exact .inr ⟨front, tail, whole, closed, word, right, starts⟩

/-- What the stricter of two lists of keywords leaves is left by both together. -/
lemma declarations_union {script : List Char}
    (stricter : declarations first script <+: declarations second script) :
    declarations both script = declarations first script := by
  have free := isFreeHead_declarations first script
  have kept : IsFreeHead both script (declarations first script) := by
    refine ⟨free.whole, fun found => ?_⟩
    -- A definition of the second list would stand in what that list leaves, a longer head.
    rcases found.of_union union with left | right
    · exact free.free left
    · exact (isFreeHead_declarations second script).free (right.of_prefix stricter)
  have fewer : first.words ⊆ both.words := fun word mem => (union word).mpr (.inl mem)
  exact (declarations_prefix_of_subset fewer script).eq_of_length_le
    kept.prefix_declarations.length_le

end Union

end Both

/-- The declarations of a script are its longest head of whole lines in which no definition starts.
They have no others in them, they depend on the keywords only as a set, and the keywords of two lists
together leave the shorter of what either leaves, so that more keywords never leave more. -/
theorem declarations_longest (script : List Char) :
    (∀ keywords head, declarations keywords script = head ↔ IsFreeHead keywords script head ∧
      ∀ other, IsFreeHead keywords script other → other.length ≤ head.length) ∧
    (∀ keywords, declarations keywords (declarations keywords script) =
      declarations keywords script) ∧
    (∀ keywords other : Keywords, (∀ word, word ∈ keywords.words ↔ word ∈ other.words) →
      declarations keywords script = declarations other script) ∧
    ∀ first second : Keywords, ∃ both,
      Keywords.ofList (first.words ++ second.words) = .ok both ∧
        declarations both script =
          (if (declarations first script).length ≤ (declarations second script).length
            then declarations first script else declarations second script) ∧
        declarations both script <+: declarations first script ∧
        declarations both script <+: declarations second script := by
  refine ⟨fun keywords head => declarations_eq_iff, ?_, ?_, ?_⟩
  · intro keywords
    exact declarations_eq_self (hasDefinition_declarations keywords script)
  · intro keywords other same
    have fewer := declarations_prefix_of_subset (fun word mem => (same word).mp mem) script
    have more := declarations_prefix_of_subset (fun word mem => (same word).mpr mem) script
    exact more.eq_of_length_le fewer.length_le
  · intro first second
    obtain ⟨both, accepted, words_eq⟩ := Keywords.ofList_append first second
    have union (word : String) :
        word ∈ both.words ↔ word ∈ first.words ∨ word ∈ second.words := by
      rw [words_eq, List.mem_append]
    have left := declarations_prefix_of_subset (fun word mem => (union word).mpr (.inl mem)) script
    have right := declarations_prefix_of_subset (fun word mem => (union word).mpr (.inr mem)) script
    refine ⟨both, accepted, ?_, left, right⟩
    split
    · rename_i shorter
      exact declarations_union union (declarations_prefix_of_length_le first second script shorter)
    · rename_i longer
      exact declarations_union (fun word => (union word).trans or_comm)
        (declarations_prefix_of_length_le second first script (by omega))

/-- A keyword that another one starts with, given twice and in another order; a keyword at the end of
its line and one that a longer name starts with, neither of which opens a definition; and a wide
blank behind the keyword of the line that does. -/
theorem declarations_longest_repeated :
    ∃ once twice, Keywords.ofList ["mod", "module"] = .ok once ∧
      Keywords.ofList ["module", "mod", "module"] = .ok twice ∧
      declarations once "module\nmodules = 1;\nmod\u2003x;\ny = 2;".toList =
        declarations twice "module\nmodules = 1;\nmod\u2003x;\ny = 2;".toList ∧
      declarations twice "module\nmodules = 1;\nmod\u2003x;\ny = 2;".toList =
        "module\nmodules = 1;\n".toList := by
  refine ⟨⟨["mod", "module"], by decide, by decide⟩, ⟨["module", "mod", "module"], by decide,
    by decide⟩, rfl, rfl, ?_, by decide +kernel⟩
  apply (declarations_longest _).2.2.1
  intro word
  simp only [List.mem_cons, List.not_mem_nil, or_false]
  tauto

end ParamPanel.Script
