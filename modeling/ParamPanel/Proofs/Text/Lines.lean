import Mathlib.Data.List.Basic
import Mathlib.Data.List.TakeWhile
import Mathlib.Tactic.Tauto
import ParamPanel.Text.CharClass
import ParamPanel.Text.Lines
import ParamPanel.Text.LineEnding

/-!
# Texts as lines

How the lines of a text follow from those of its parts. A text that ends its last line can be
followed by anything: the lines of the whole are those of the one part and those of the other.
-/

namespace ParamPanel.Text

/-! ### Runs of characters -/

/-- A run is taken whole when what follows it does not go on with it. -/
lemma takeWhile_run {p : Char → Bool} {run rest : List Char} (all : ∀ c ∈ run, p c = true)
    (stops : ∀ c ∈ rest.head?, p c = false) : (run ++ rest).takeWhile p = run := by
  rw [List.takeWhile_append_of_pos all]
  cases rest with
  | nil => exact List.append_nil run
  | cons c rest =>
    have first : p c = false := stops c rfl
    simp [first]

lemma dropWhile_run {p : Char → Bool} {run rest : List Char} (all : ∀ c ∈ run, p c = true)
    (stops : ∀ c ∈ rest.head?, p c = false) : (run ++ rest).dropWhile p = rest := by
  rw [List.dropWhile_append_of_pos all]
  cases rest with
  | nil => rfl
  | cons c rest =>
    have first : p c = false := stops c rfl
    simp [first]

lemma forall_head?_cons {p : Char → Bool} {c : Char} {b : Bool} (h : p c = b) (rest : List Char) :
    ∀ d ∈ (c :: rest).head?, p d = b := by
  intro d first
  cases first
  exact h

lemma forall_bne_of_not_mem {c : Char} {text : List Char} (free : c ∉ text) :
    ∀ d ∈ text, (d != c) = true := by
  intro d mem
  have : d ≠ c := by
    rintro rfl
    exact free mem
  simpa using this

/-! ### Lines of a text -/

/-- No line is left open at the end of a text: it is empty or its last character is a line feed. -/
def EndsLine (text : List Char) : Prop := ∀ c ∈ text.getLast?, c = '\n'

lemma endsLine_nil : EndsLine [] := by simp [EndsLine]

lemma endsLine_append {front text : List Char} (hf : EndsLine front) (ht : EndsLine text) :
    EndsLine (front ++ text) := by
  intro c last
  rw [List.getLast?_append, Option.mem_def, Option.or_eq_some_iff] at last
  rcases last with last | ⟨-, last⟩
  · exact ht c last
  · exact hf c last

lemma endsLine_concat (line : List Char) : EndsLine (line ++ ['\n']) := by
  simp [EndsLine]

lemma not_endsLine {line : List Char} (ne : line ≠ []) (free : '\n' ∉ line) : ¬ EndsLine line := by
  intro h
  have last : line.getLast ne = '\n' := h _ (List.getLast?_eq_getLast_of_ne_nil ne)
  exact free (last ▸ List.getLast_mem ne)

lemma EndsLine.of_line {line rest : List Char} (h : EndsLine (line ++ '\n' :: rest)) :
    EndsLine rest := by
  intro c last
  apply h c
  rw [List.getLast?_append, List.getLast?_cons, Option.mem_def.mp last]
  rfl

lemma EndsLine.of_append {front text : List Char} (h : EndsLine (front ++ text)) (ne : text ≠ []) :
    EndsLine text := by
  intro c last
  apply h c
  rw [List.getLast?_append_of_ne_nil front ne]
  exact last

lemma not_endsLine_append (front : List Char) {line : List Char} (ne : line ≠ [])
    (free : '\n' ∉ line) : ¬ EndsLine (front ++ line) :=
  fun h => not_endsLine ne free (h.of_append ne)

/-- A text is empty, one line that is left open, or a line with its line feed and a text behind. -/
@[elab_as_elim]
theorem lineInduction {motive : List Char → Prop} (nil : motive [])
    (last : ∀ line, line ≠ [] → '\n' ∉ line → motive line)
    (cons : ∀ line rest, '\n' ∉ line → motive rest → motive (line ++ '\n' :: rest)) :
    ∀ text, motive text := by
  intro text
  induction h : text.length using Nat.strongRecOn generalizing text with
  | ind n ih =>
    by_cases closed : '\n' ∈ text
    · obtain ⟨line, rest, rfl, free⟩ := List.eq_append_cons_of_mem closed
      exact cons line rest free (ih rest.length (by simp at h; omega) rest rfl)
    · by_cases empty : text = []
      · rw [empty]
        exact nil
      · exact last text empty closed

lemma takeWhile_reverse_append {above last : List Char} (ends : EndsLine above)
    (free : '\n' ∉ last) : (above ++ last).reverse.takeWhile (· != '\n') = last.reverse := by
  rw [List.reverse_append]
  apply takeWhile_run
  · intro c mem
    exact forall_bne_of_not_mem free c (List.mem_reverse.mp mem)
  · intro c first
    rw [List.head?_reverse] at first
    simp [ends c first]

/-- A text is lines that end and one that is left open, which may be empty. -/
lemma exists_open_line (text : List Char) :
    ∃ above last, above ++ last = text ∧ EndsLine above ∧ '\n' ∉ last := by
  induction text using lineInduction with
  | nil => exact ⟨[], [], rfl, endsLine_nil, List.not_mem_nil⟩
  | last line _ free => exact ⟨[], line, rfl, endsLine_nil, free⟩
  | cons line rest _ ih =>
    obtain ⟨above, last, rfl, ends, free⟩ := ih
    refine ⟨line ++ ['\n'] ++ above, last, by simp, ?_, free⟩
    exact endsLine_append (endsLine_concat line) ends

lemma rawLines_cons (c : Char) (text : List Char) :
    rawLines (c :: text) = if c = '\n' then [c] :: rawLines text
      else match rawLines text with
        | [] => [[c]]
        | line :: rest => (c :: line) :: rest := rfl

lemma rawLines_line {line : List Char} (free : '\n' ∉ line) (rest : List Char) :
    rawLines (line ++ '\n' :: rest) = (line ++ ['\n']) :: rawLines rest := by
  induction line with
  | nil => rfl
  | cons c line ih =>
    have hc : c ≠ '\n' := by rintro rfl; simp at free
    rw [List.cons_append, rawLines_cons, if_neg hc, ih (by simp at free; exact free.2)]
    rfl

lemma rawLines_open {line : List Char} (ne : line ≠ []) (free : '\n' ∉ line) :
    rawLines line = [line] := by
  induction line with
  | nil => contradiction
  | cons c line ih =>
    have hc : c ≠ '\n' := by rintro rfl; simp at free
    rw [rawLines_cons, if_neg hc]
    by_cases h : line = []
    · rw [h]
      rfl
    · rw [ih h (by simp at free; exact free.2)]

/-- Behind a text that ends its last line, lines are read as if that text were not there. -/
theorem rawLines_append {front : List Char} (hf : EndsLine front) (text : List Char) :
    rawLines (front ++ text) = rawLines front ++ rawLines text := by
  induction front using lineInduction with
  | nil => rfl
  | last line ne free => exact absurd hf (not_endsLine ne free)
  | cons line rest free ih =>
    rw [List.append_assoc, List.cons_append, rawLines_line free, rawLines_line free,
      ih hf.of_line]
    rfl

/-- An open last line of a text only matters when there is a text behind it. -/
lemma rawLines_append_of_ne {front text : List Char} (hf : text ≠ [] → EndsLine front) :
    rawLines (front ++ text) = rawLines front ++ rawLines text := by
  by_cases last : text = []
  · rw [last, List.append_nil]
    exact (List.append_nil _).symm
  · exact rawLines_append (hf last) text

/-- Raw lines as they come from a text: each has its line feed at the end and nowhere else, but the
last may lack it. -/
inductive AreLines : List (List Char) → Prop
  | nil : AreLines []
  | last (line : List Char) : line ≠ [] → '\n' ∉ line → AreLines [line]
  | cons (line : List Char) (rest : List (List Char)) :
      '\n' ∉ line → AreLines rest → AreLines ((line ++ ['\n']) :: rest)

lemma areLines_rawLines (text : List Char) : AreLines (rawLines text) := by
  induction text using lineInduction with
  | nil => exact .nil
  | last line ne free =>
    rw [rawLines_open ne free]
    exact .last line ne free
  | cons line rest free ih =>
    rw [rawLines_line free]
    exact .cons line _ free ih

lemma AreLines.rawLines_flatten {raws : List (List Char)} (h : AreLines raws) :
    rawLines raws.flatten = raws := by
  induction h with
  | nil => rfl
  | last line ne free => simpa using rawLines_open ne free
  | cons line rest free _ ih =>
    rw [List.flatten_cons, List.append_assoc, List.singleton_append, rawLines_line free, ih]

/-- Lines stay lines when they are parted, and only the later part may leave a line open. -/
lemma AreLines.of_append {front raws : List (List Char)} (h : AreLines (front ++ raws)) :
    AreLines front ∧ AreLines raws ∧ (raws ≠ [] → EndsLine front.flatten) := by
  induction front with
  | nil => exact ⟨.nil, h, fun _ => endsLine_nil⟩
  | cons raw front ih =>
    rw [List.cons_append] at h
    generalize all : raw :: (front ++ raws) = lines at h
    cases h with
    | nil => cases all
    | last line ne free =>
      obtain ⟨rfl, none_left⟩ := List.cons.inj all
      obtain ⟨rfl, rfl⟩ := List.append_eq_nil_iff.mp none_left
      exact ⟨.last raw ne free, .nil, fun ne => absurd rfl ne⟩
    | cons line rest free lines =>
      obtain ⟨rfl, rfl⟩ := List.cons.inj all
      obtain ⟨hf, hr, ends⟩ := ih lines
      refine ⟨.cons line front free hf, hr, fun ne => ?_⟩
      exact endsLine_append (endsLine_concat line) (ends ne)

/-- Every line feed ends a line. -/
lemma length_rawLines {text : List Char} (h : EndsLine text) :
    (rawLines text).length = text.count '\n' := by
  induction text using lineInduction with
  | nil => rfl
  | last line ne free => exact absurd h (not_endsLine ne free)
  | cons line rest free ih =>
    rw [rawLines_line free, List.length_cons, ih h.of_line, List.count_append, List.count_cons_self,
      List.count_eq_zero.mpr free]
    omega

lemma count_le_length_rawLines (text : List Char) : text.count '\n' ≤ (rawLines text).length := by
  induction text using lineInduction with
  | nil => exact Nat.zero_le _
  | last line ne free => simp [List.count_eq_zero.mpr free]
  | cons line rest free ih =>
    rw [rawLines_line free, List.length_cons, List.count_append, List.count_cons_self,
      List.count_eq_zero.mpr free]
    omega

/-- Lines written one below the other, each with a line feed behind it. -/
def unlines (lines : List (List Char)) : List Char := lines.flatMap (· ++ ['\n'])

lemma unlines_cons (line : List Char) (lines : List (List Char)) :
    unlines (line :: lines) = line ++ '\n' :: unlines lines := by
  rw [unlines, List.flatMap_cons, List.append_assoc]
  rfl

lemma rawLines_unlines {lines : List (List Char)} (free : ∀ line ∈ lines, '\n' ∉ line) :
    rawLines (unlines lines) = lines.map (· ++ ['\n']) := by
  induction lines with
  | nil => rfl
  | cons line lines ih =>
    rw [unlines_cons, rawLines_line (free line (by simp)),
      ih fun other mem => free other (by simp [mem])]
    rfl

/-- Whether a text breaks no line. -/
def IsSingleLine (text : List Char) : Prop := '\n' ∉ text ∧ '\r' ∉ text

instance (text : List Char) : Decidable (IsSingleLine text) := inferInstanceAs (Decidable (_ ∧ _))

@[simp] lemma isSingleLine_nil : IsSingleLine [] := by simp [IsSingleLine]

@[simp] lemma isSingleLine_cons {c : Char} {text : List Char} :
    IsSingleLine (c :: text) ↔ ('\n' ≠ c ∧ '\r' ≠ c) ∧ IsSingleLine text := by
  simp only [IsSingleLine, List.mem_cons, not_or]
  tauto

@[simp] lemma isSingleLine_append {front text : List Char} :
    IsSingleLine (front ++ text) ↔ IsSingleLine front ∧ IsSingleLine text := by
  simp only [IsSingleLine, List.mem_append, not_or]
  tauto

lemma isSingleLine_of_not_blank {text : List Char} (h : ∀ c ∈ text, isBlank c = false) :
    IsSingleLine text := by
  constructor
  · intro mem
    exact absurd (h _ mem) (by decide)
  · intro mem
    exact absurd (h _ mem) (by decide)

lemma lineContent_line {line : List Char} (free : '\n' ∉ line) (rest : List Char) :
    lineContent (line ++ '\n' :: rest) = line := by
  unfold lineContent
  exact takeWhile_run (forall_bne_of_not_mem free) (forall_head?_cons rfl rest)

lemma lineContent_append {front : List Char} (free : '\n' ∉ front) (rest : List Char) :
    lineContent (front ++ rest) = front ++ lineContent rest :=
  List.takeWhile_append_of_pos (forall_bne_of_not_mem free)

lemma lineContent_open {line : List Char} (free : '\n' ∉ line) : lineContent line = line := by
  have whole := lineContent_append free []
  rw [List.append_nil] at whole
  exact whole.trans (List.append_nil line)

/-- The first line of a text goes up to its first line feed. -/
lemma head?_rawLines {text : List Char} (ne : text ≠ []) :
    ∃ raw, (rawLines text).head? = some raw ∧ lineContent raw = lineContent text := by
  induction text using lineInduction with
  | nil => contradiction
  | last line _ free => exact ⟨line, by rw [rawLines_open ne free]; rfl, rfl⟩
  | cons line rest free =>
    refine ⟨line ++ ['\n'], by rw [rawLines_line free]; rfl, ?_⟩
    rw [lineContent_line free, lineContent_line free]

lemma map_text_linesFrom (offset : Nat) (raws : List (List Char)) :
    (linesFrom offset raws).map Line.text = raws.map lineContent := by
  induction raws generalizing offset with
  | nil => rfl
  | cons raw raws ih => rw [linesFrom, List.map_cons, List.map_cons, ih]

/-- The text of a line is its raw line up to the line feed. -/
lemma map_text_lines (text : List Char) :
    (lines text).map Line.text = (rawLines text).map lineContent :=
  map_text_linesFrom 0 (rawLines text)

lemma joinPairs_append (front : List Char) {text : List Char} (h : text.head? ≠ some '\n') :
    joinPairs (front ++ text) = joinPairs front ++ joinPairs text := by
  fun_induction joinPairs front with
  | case1 => rfl
  | case2 c =>
    cases text with
    | nil => rfl
    | cons d text =>
      have hd : d ≠ '\n' := by simpa using h
      simp [joinPairs, hd]
  | case3 c d rest pair ih => simp [joinPairs, pair, ih]
  | case4 c d rest other ih =>
    rw [List.cons_append] at ih
    simp [joinPairs, other, ih]

/-- Normalising a text in two parts is the same unless the parting splits a pair. -/
theorem normalize_append (front : List Char) {text : List Char} (h : text.head? ≠ some '\n') :
    normalize (front ++ text) = normalize front ++ normalize text := by
  rw [normalize_eq_toFeeds, normalize_eq_toFeeds, normalize_eq_toFeeds, toFeeds,
    joinPairs_append front h, List.map_append]
  rfl

lemma head?_normalize {text : List Char} (h : text.head? = some '\n') :
    (normalize text).head? = some '\n' := by
  rcases text with _ | ⟨c, _ | ⟨d, text⟩⟩
  · cases h
  · cases h
    rfl
  · cases h
    simp [normalize_eq_toFeeds, toFeeds, joinPairs]

lemma getLast?_joinPairs (text : List Char) : (joinPairs text).getLast? = text.getLast? := by
  fun_induction joinPairs text with
  | case1 => rfl
  | case2 => rfl
  | case3 c d rest pair ih =>
    rw [List.getLast?_cons, ih, List.getLast?_cons_cons, List.getLast?_cons, pair.2]
  | case4 c d rest other ih =>
    rw [List.getLast?_cons, ih, List.getLast?_cons_cons, List.getLast?_cons]
    rfl

/-- Any line break at the end of a text ends its last line once the text is in normal form. -/
lemma endsLine_normalize {text : List Char} (h : ∀ c ∈ text.getLast?, c = '\n' ∨ c = '\r') :
    EndsLine (normalize text) := by
  intro c last
  rw [normalize_eq_toFeeds, toFeeds, List.getLast?_map, getLast?_joinPairs, Option.mem_def,
    Option.map_eq_some_iff] at last
  obtain ⟨d, found, rfl⟩ := last
  rcases h d found with rfl | rfl <;> rfl

end ParamPanel.Text
