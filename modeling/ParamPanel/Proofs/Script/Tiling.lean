import ParamPanel.Proofs.Script.Block

/-!
# Sections tile a text

From the first heading on, sections lie one behind the other up to the end of the text, so that their
codes joined give the text back. There is one section for each heading, which is the first line of
its code and the only heading in it.
-/

namespace ParamPanel.Script

open Text

/-! ### Labels of lines -/

/-- The labels of the headings among raw lines. -/
def labels (raws : List (List Char)) : List (List Char) :=
  (raws.map lineContent).filterMap headingLabel?

lemma labels_append (raws more : List (List Char)) :
    labels (raws ++ more) = labels raws ++ labels more := by
  rw [labels, List.map_append, List.filterMap_append]
  rfl

lemma labels_heading {raw label : List Char} (h : headingLabel? (lineContent raw) = some label)
    (raws : List (List Char)) : labels (raw :: raws) = label :: labels raws := by
  rw [labels, List.map_cons, List.filterMap_cons_some h]
  rfl

lemma labels_other {raw : List Char} (h : headingLabel? (lineContent raw) = none)
    (raws : List (List Char)) : labels (raw :: raws) = labels raws := by
  rw [labels, List.map_cons, List.filterMap_cons_none h]
  rfl

lemma labels_eq_nil_iff {raws : List (List Char)} : labels raws = [] ↔ (cut raws).2 = [] := by
  induction raws with
  | nil => simp [labels, cut]
  | cons raw raws ih =>
    cases h : headingLabel? (lineContent raw) with
    | some label => simp [cut_heading h, labels_heading h]
    | none => rw [cut_other h, labels_other h, ih]

lemma labels_cut_fst (raws : List (List Char)) : labels (cut raws).1 = [] := by
  induction raws with
  | nil => rfl
  | cons raw raws ih =>
    cases h : headingLabel? (lineContent raw) with
    | some label =>
      rw [cut_heading h]
      rfl
    | none => rw [cut_other h, labels_other h, ih]

/-- Of the lines of a block only the first is a heading. -/
lemma labels_lines {raws : List (List Char)} {block : Block} (mem : block ∈ (cut raws).2) :
    labels block.lines = [block.label] := by
  induction raws with
  | nil => cases mem
  | cons raw raws ih =>
    cases h : headingLabel? (lineContent raw) with
    | some label =>
      rw [cut_heading h] at mem
      rcases List.mem_cons.mp mem with rfl | later
      · rw [Block.lines, labels_heading h, labels_cut_fst]
      · exact ih later
    | none =>
      rw [cut_other h] at mem
      exact ih mem

/-! ### Tilings -/

/-- Sections one behind the other from behind `front` to the end of a text, each from the start of a
line on, and `P` tells what their code has to look like. -/
inductive Tiles (P : Section → List Char → Prop) (text : List Char) :
    List Char → List Section → Prop
  | done : Tiles P text text []
  | next {front code : List Char} {part : Section} {parts : List Section}
      (endsLine : EndsLine front)
      (span_eq : part.span = ⟨byteLength front, byteLength front + byteLength code⟩)
      (suits : P part code) (later : Tiles P text (front ++ code) parts) :
      Tiles P text front (part :: parts)

namespace Tiles

variable {P : Section → List Char → Prop} {text front : List Char} {parts : List Section}

lemma exists_append (h : Tiles P text front parts) : ∃ rest, front ++ rest = text := by
  induction h with
  | done => exact ⟨[], List.append_nil text⟩
  | @next front code part parts _ _ _ _ ih =>
    obtain ⟨rest, whole⟩ := ih
    exact ⟨code ++ rest, by rw [← List.append_assoc, whole]⟩

lemma eq_or_endsLine (h : Tiles P text front parts) : front = text ∨ EndsLine front := by
  cases h with
  | done => exact .inl rfl
  | next endsLine _ _ _ => exact .inr endsLine

/-- A section stands between two parts of the text, and its code ends its last line unless it is the
last part. -/
lemma exists_code (h : Tiles P text front parts) {part : Section} (mem : part ∈ parts) :
    ∃ before code post, before ++ code ++ post = text ∧ EndsLine before ∧
      (post ≠ [] → EndsLine code) ∧
      part.span = ⟨byteLength before, byteLength before + byteLength code⟩ ∧ P part code := by
  induction h with
  | done => cases mem
  | @next front code first parts endsLine span_eq suits later ih =>
    rcases List.mem_cons.mp mem with rfl | mem
    · obtain ⟨post, whole⟩ := later.exists_append
      refine ⟨front, code, post, whole, endsLine, ?_, span_eq, suits⟩
      intro ne
      rcases later.eq_or_endsLine with same | ends
      · rw [same] at whole
        exact absurd (List.append_right_eq_self.mp whole) ne
      · by_cases empty : code = []
        · rw [empty]
          exact endsLine_nil
        · exact ends.of_append empty
    · exact ih mem

lemma start_eq (h : Tiles P text front parts) :
    ∀ part ∈ parts.head?, part.span.start = byteLength front := by
  cases h with
  | done => simp
  | next _ span_eq _ _ => simp [span_eq]

lemma stop_eq (h : Tiles P text front parts) :
    ∀ part ∈ parts.getLast?, part.span.stop = byteLength text := by
  induction h with
  | done => simp
  | @next front code part parts _ span_eq _ later ih =>
    cases later with
    | done => simp [span_eq]
    | next _ _ _ _ => simpa using ih

lemma isChain (h : Tiles P text front parts) :
    parts.IsChain fun part next => part.span.stop = next.span.start := by
  induction h with
  | done => exact .nil
  | @next front code part parts _ span_eq _ later ih =>
    cases later with
    | done => exact .singleton part
    | next _ next_eq _ _ =>
      refine .cons_cons ?_ ih
      rw [span_eq, next_eq, byteLength_append]

lemma code_eq (h : Tiles P text front parts) {part : Section} (mem : part ∈ parts) :
    P part (part.code text) := by
  obtain ⟨before, code, post, rfl, -, -, span_eq, suits⟩ := h.exists_code mem
  rwa [Section.code, span_eq, Span.slice_append]

lemma append_flatMap_code (h : Tiles P text front parts) :
    front ++ parts.flatMap (fun part => part.code text) = text := by
  induction h with
  | done => simp
  | @next front code part parts _ span_eq _ later ih =>
    obtain ⟨post, whole⟩ := later.exists_append
    have own : part.code text = code := by
      rw [Section.code, span_eq, ← whole, Span.slice_append]
    rw [List.flatMap_cons, own, ← List.append_assoc, ih]

end Tiles

/-- Sections that are parts of a text: each starts where a line starts and stops where the next one
starts, and the last one stops where the text ends. -/
structure IsTiling (text : List Char) (parts : List Section) : Prop where
  parted : ∀ part ∈ parts, ∃ front code post, front ++ code ++ post = text ∧ EndsLine front ∧
    part.span = ⟨byteLength front, byteLength front + byteLength code⟩ ∧ part.code text = code
  contiguous : parts.IsChain fun part next => part.span.stop = next.span.start
  stop_eq : ∀ part ∈ parts.getLast?, part.span.stop = byteLength text

lemma Tiles.isTiling {P : Section → List Char → Prop} {text front : List Char}
    {parts : List Section} (h : Tiles P text front parts) : IsTiling text parts := by
  refine ⟨fun part mem => ?_, h.isChain, h.stop_eq⟩
  obtain ⟨before, code, post, rfl, ends, -, span_eq, -⟩ := h.exists_code mem
  refine ⟨before, code, post, rfl, ends, span_eq, ?_⟩
  rw [Section.code, span_eq, Span.slice_append]

/-! ### Sections of blocks -/

/-- A section is that of one of the blocks, whose text is its code. -/
def Section.IsOf (blocks : List Block) (part : Section) (code : List Char) : Prop :=
  ∃ block ∈ blocks, AreLines block.lines ∧ code = block.code ∧
    part.heading = trim (lineContent block.heading) ∧ part.label = some block.label

lemma tiles_blockSections {all : List Block} {front : List Char} {blocks : List Block}
    (lines_eq : AreLines (blocks.flatMap Block.lines)) (hf : blocks ≠ [] → EndsLine front)
    (among : blocks ⊆ all) :
    Tiles (Section.IsOf all) (front ++ (blocks.flatMap Block.lines).flatten) front
      (blockSections (byteLength front) blocks) := by
  -- The front takes in the blocks that are done, and the text of the whole never changes.
  induction blocks generalizing front with
  | nil =>
    rw [List.flatMap_nil, List.flatten_nil, List.append_nil]
    exact .done
  | cons block blocks ih =>
    obtain ⟨own, later, ends⟩ := areLines_blocks lines_eq
    obtain ⟨mem, among⟩ := List.cons_subset.mp among
    have closed : blocks ≠ [] → EndsLine (front ++ block.code) :=
      fun ne => endsLine_append (hf (by simp)) (ends ne)
    have rest := ih later closed among
    have whole : front ++ ((block :: blocks).flatMap Block.lines).flatten =
        front ++ block.code ++ (blocks.flatMap Block.lines).flatten := by
      rw [List.flatMap_cons, List.flatten_append, List.append_assoc]
      rfl
    rw [byteLength_append] at rest
    rw [whole, blockSections]
    exact .next (hf (by simp)) rfl ⟨block, mem, own, rfl, rfl, rfl⟩ rest

/-- The sections of the blocks of a text are its tiles from behind the lines above the first one. -/
theorem tiles_cut (text : List Char) :
    Tiles (Section.IsOf (cut (rawLines text)).2) text (cut (rawLines text)).1.flatten
      (blockSections (byteLength (cut (rawLines text)).1.flatten) (cut (rawLines text)).2) := by
  obtain ⟨blocks, closed⟩ := areLines_cut text
  have tiles := tiles_blockSections blocks closed (List.Subset.refl _)
  rwa [← List.flatten_append, cut_lines, flatten_rawLines] at tiles

/-! ### Headings of sections -/

/-- Whether a line is a heading. -/
def isHeading (line : Line) : Bool := (headingLabel? line.text).isSome

/-- A section with its code: the first line of the code is the heading of the section, and no other
line is a heading. -/
def Section.IsHeaded (part : Section) (code : List Char) : Prop :=
  ∃ first rest, lines code = first :: rest ∧ isHeading first = true ∧
    (∀ line ∈ rest, isHeading line = false) ∧
    part.heading = trim first.text ∧ part.label = headingLabel? part.heading

lemma Section.IsOf.isHeaded {raws : List (List Char)} {part : Section} {code : List Char}
    (h : part.IsOf (cut raws).2 code) : part.IsHeaded code := by
  obtain ⟨block, mem, own, rfl, heading_eq, label_eq⟩ := h
  have heading := headingLabel?_of_mem_cut mem
  have others : labels block.body = [] := by
    have single := labels_lines mem
    rw [Block.lines, labels_heading heading] at single
    exact (List.cons.inj single).2
  rw [labels, List.filterMap_eq_nil_iff] at others
  refine ⟨⟨⟨0, 0 + byteLength (lineContent block.heading)⟩, lineContent block.heading⟩,
    linesFrom (0 + byteLength block.heading) block.body, ?_, ?_, ?_, heading_eq, ?_⟩
  · rw [lines, Block.code, own.rawLines_flatten, Block.lines, linesFrom]
  · rw [isHeading, heading]
    rfl
  · intro line below
    have text_mem := List.mem_map_of_mem (f := Line.text) below
    rw [map_text_linesFrom] at text_mem
    rw [isHeading, others _ text_mem]
    rfl
  · rw [heading_eq, headingLabel?_trim, heading, label_eq]

lemma map_sectionsOf (stop : Nat) (found : List Heading) :
    (sectionsOf stop found).map (fun part => (part.span.start, part.heading, part.label)) =
      found.map fun heading => (heading.start, heading.text, some heading.label) := by
  induction found with
  | nil => rfl
  | cons heading found ih => rw [sectionsOf, List.map_cons, List.map_cons, ih]

lemma map_filterMap_ofLine? (found : List Line) :
    (found.filterMap Heading.ofLine?).map
        (fun heading => (heading.start, heading.text, some heading.label)) =
      (found.filter isHeading).map fun line =>
        (line.span.start, trim line.text, headingLabel? line.text) := by
  induction found with
  | nil => rfl
  | cons line found ih =>
    cases h : headingLabel? line.text with
    | none =>
      rw [List.filterMap_cons_none (by rw [Heading.ofLine?, h]; rfl),
        List.filter_cons_of_neg (by simp [isHeading, h]), ih]
    | some label =>
      rw [List.filterMap_cons_some (b := ⟨line.span.start, trim line.text, label⟩)
          (by rw [Heading.ofLine?, h]; rfl),
        List.filter_cons_of_pos (by simp [isHeading, h]), List.map_cons, List.map_cons, ih, h]

lemma filter_isHeading_eq_nil_iff {text : List Char} :
    (lines text).filter isHeading = [] ↔ headings text = [] := by
  have same := map_filterMap_ofLine? (lines text)
  rw [← List.map_eq_nil_iff (f := fun line : Line =>
    (line.span.start, trim line.text, headingLabel? line.text)), ← same, List.map_eq_nil_iff]
  rfl

/-- Where there are headings, there is one section for each, in the same order. -/
lemma map_sections {text : List Char} (headed : (lines text).filter isHeading ≠ []) :
    (sections text).map (fun part => (part.span.start, part.heading, part.label)) =
      ((lines text).filter isHeading).map fun line =>
        (line.span.start, trim line.text, headingLabel? line.text) := by
  rw [Ne, filter_isHeading_eq_nil_iff] at headed
  obtain ⟨heading, found, some_found⟩ := List.exists_cons_of_ne_nil headed
  rw [← map_filterMap_ofLine?, sections]
  change _ = (headings text).map _
  rw [some_found]
  exact map_sectionsOf _ _

lemma head?_map_sections {text : List Char} (headed : (lines text).filter isHeading ≠ []) :
    (sections text).head?.map (fun part => part.span.start) =
      ((lines text).filter isHeading).head?.map fun line => line.span.start := by
  have first := congrArg (fun starts => starts.head?.map Prod.fst) (map_sections headed)
  simpa only [List.head?_map, Option.map_map, Function.comp_def] using first

lemma sections_ne_nil (text : List Char) : sections text ≠ [] := by
  rw [sections]
  cases headings text with
  | nil => exact List.cons_ne_nil _ _
  | cons heading found => exact List.cons_ne_nil _ _

/-- Where there are headings, the sections of a text are its tiles from the first one on. -/
lemma tiles_sections {text : List Char} (headed : (lines text).filter isHeading ≠ []) :
    Tiles (Section.IsOf (cut (rawLines text)).2) text (cut (rawLines text)).1.flatten
      (sections text) := by
  rw [Ne, filter_isHeading_eq_nil_iff, headings_eq_nil_iff] at headed
  rw [sections_eq, if_neg headed]
  exact tiles_cut text

/-- The sections of a text are never none, and they tile it: joined, their codes are the text from its
first heading on. With headings there is one section for each, in order, which has its text and label
from the first line of its code, and no other line of its code is a heading. Without headings there
is one section without either, and it is the whole text. -/
theorem sections_tile (text : List Char) :
    let found := (lines text).filter isHeading
    let parts := sections text
    parts ≠ [] ∧ IsTiling text parts ∧
      (∃ front, front ++ parts.flatMap (fun part => part.code text) = text ∧
        byteLength front = (found.head?.map fun line => line.span.start).getD 0) ∧
      (found ≠ [] →
        parts.map (fun part => (part.span.start, part.heading, part.label)) =
            found.map (fun line => (line.span.start, trim line.text, headingLabel? line.text)) ∧
          ∀ part ∈ parts, part.IsHeaded (part.code text)) ∧
      (found = [] → parts.map (fun part => (part.heading, part.label)) = [([], none)]) := by
  intro found parts
  by_cases headed : found = []
  · have whole : parts = [⟨[], none, ⟨0, byteLength text⟩⟩] := by
      unfold parts sections
      rw [filter_isHeading_eq_nil_iff.mp headed]
    have tiles : Tiles (fun _ _ => True) text [] parts := by
      rw [whole]
      exact .next endsLine_nil (by simp) trivial .done
    refine ⟨sections_ne_nil text, tiles.isTiling, ⟨[], tiles.append_flatMap_code, ?_⟩,
      fun ne => absurd headed ne, fun _ => by rw [whole]; rfl⟩
    rw [headed]
    rfl
  · have tiles := tiles_sections headed
    obtain ⟨part, later, first⟩ := List.exists_cons_of_ne_nil (sections_ne_nil text)
    refine ⟨sections_ne_nil text, tiles.isTiling, ⟨_, tiles.append_flatMap_code, ?_⟩,
      fun _ => ⟨map_sections headed, fun part mem => (tiles.code_eq mem).isHeaded⟩,
      fun none_left => absurd none_left headed⟩
    have begins := tiles.start_eq part (by rw [first]; rfl)
    rw [← head?_map_sections headed, first]
    exact begins.symm

example :
    sections "a = 1;\n/* [é] */\n /* [B] */ \nb = 2;".toList =
      [⟨"/* [é] */".toList, some ['é'], ⟨7, 18⟩⟩, ⟨"/* [B] */".toList, some ['B'], ⟨18, 36⟩⟩] := by
  decide +kernel

end ParamPanel.Script
