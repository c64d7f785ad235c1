import ParamPanel.Script.Extraction
import ParamPanel.Proofs.Text.Offset
import ParamPanel.Proofs.Script.Heading

/-!
# Sections as blocks of lines

Cutting the lines of a text in front of every heading gives the sections of the text without any
offset. Each block makes the parameters that it would make as a text of its own, so what is declared
is put together from the blocks.
-/

namespace ParamPanel.Script

open Text

/-- The raw lines from a heading up to the next one. -/
structure Block where
  label : List Char
  heading : List Char
  body : List (List Char)
deriving DecidableEq, Repr

namespace Block

def lines (block : Block) : List (List Char) := block.heading :: block.body

def code (block : Block) : List Char := block.lines.flatten

end Block

/-- Raw lines cut in front of every heading: what stands before the first one, and the blocks. -/
def cut : List (List Char) → List (List Char) × List Block
  | [] => ([], [])
  | raw :: raws =>
    match headingLabel? (lineContent raw) with
    | some label => ([], ⟨label, raw, (cut raws).1⟩ :: (cut raws).2)
    | none => (raw :: (cut raws).1, (cut raws).2)

lemma cut_heading {raw label : List Char} (h : headingLabel? (lineContent raw) = some label)
    (raws : List (List Char)) :
    cut (raw :: raws) = ([], ⟨label, raw, (cut raws).1⟩ :: (cut raws).2) := by
  rw [cut, h]

lemma cut_other {raw : List Char} (h : headingLabel? (lineContent raw) = none)
    (raws : List (List Char)) : cut (raw :: raws) = (raw :: (cut raws).1, (cut raws).2) := by
  rw [cut, h]

/-- No line is lost or moved. -/
lemma cut_lines (raws : List (List Char)) :
    (cut raws).1 ++ (cut raws).2.flatMap Block.lines = raws := by
  induction raws with
  | nil => rfl
  | cons raw raws ih =>
    cases h : headingLabel? (lineContent raw) with
    | some label =>
      rw [cut_heading h, List.flatMap_cons, Block.lines, List.cons_append, ih]
      rfl
    | none => rw [cut_other h, List.cons_append, ih]

lemma cut_append (earlier : List (List Char)) {later : List (List Char)}
    (h : (cut later).1 = []) :
    cut (earlier ++ later) = ((cut earlier).1, (cut earlier).2 ++ (cut later).2) := by
  induction earlier with
  | nil => exact Prod.ext h rfl
  | cons raw raws ih =>
    rw [List.cons_append]
    cases label : headingLabel? (lineContent raw) with
    | some label => rw [cut_heading label, cut_heading label, ih, List.cons_append]
    | none => rw [cut_other label, cut_other label, ih]

lemma headingLabel?_of_mem_cut {raws : List (List Char)} {block : Block}
    (mem : block ∈ (cut raws).2) :
    headingLabel? (lineContent block.heading) = some block.label := by
  induction raws with
  | nil => cases mem
  | cons raw raws ih =>
    cases h : headingLabel? (lineContent raw) with
    | some label =>
      rw [cut_heading h] at mem
      rcases List.mem_cons.mp mem with rfl | later
      · exact h
      · exact ih later
    | none =>
      rw [cut_other h] at mem
      exact ih mem

lemma flatMap_lines_ne_nil {blocks : List Block} (ne : blocks ≠ []) :
    blocks.flatMap Block.lines ≠ [] := by
  obtain ⟨block, blocks, rfl⟩ := List.exists_cons_of_ne_nil ne
  simp [Block.lines]

/-- Blocks that are made of lines are parted between lines. -/
lemma areLines_blocks {block : Block} {blocks : List Block}
    (h : AreLines ((block :: blocks).flatMap Block.lines)) :
    AreLines block.lines ∧ AreLines (blocks.flatMap Block.lines) ∧
      (blocks ≠ [] → EndsLine block.code) := by
  rw [List.flatMap_cons] at h
  obtain ⟨own, later, ends⟩ := h.of_append
  exact ⟨own, later, fun ne => ends (flatMap_lines_ne_nil ne)⟩

/-- The text up to the first heading ends a line. -/
lemma areLines_cut (text : List Char) :
    AreLines ((cut (rawLines text)).2.flatMap Block.lines) ∧
      ((cut (rawLines text)).2 ≠ [] → EndsLine (cut (rawLines text)).1.flatten) := by
  have raws := areLines_rawLines text
  rw [← cut_lines (rawLines text)] at raws
  obtain ⟨-, blocks, ends⟩ := raws.of_append
  exact ⟨blocks, fun ne => ends (flatMap_lines_ne_nil ne)⟩

/-- The headings of blocks, the first of which starts at `offset`. -/
def blockHeadings (offset : Nat) : List Block → List Heading
  | [] => []
  | block :: blocks =>
    ⟨offset, trim (lineContent block.heading), block.label⟩ ::
      blockHeadings (offset + byteLength block.code) blocks

/-- The sections of blocks, the first of which starts at `offset`. -/
def blockSections (offset : Nat) : List Block → List Section
  | [] => []
  | block :: blocks =>
    ⟨trim (lineContent block.heading), some block.label,
        ⟨offset, offset + byteLength block.code⟩⟩ ::
      blockSections (offset + byteLength block.code) blocks

lemma headings_linesFrom (offset : Nat) (raws : List (List Char)) :
    (linesFrom offset raws).filterMap Heading.ofLine? =
      blockHeadings (offset + byteLength (cut raws).1.flatten) (cut raws).2 := by
  induction raws generalizing offset with
  | nil => rfl
  | cons raw raws ih =>
    rw [linesFrom]
    cases h : headingLabel? (lineContent raw) with
    | some label =>
      rw [List.filterMap_cons_some (b := ⟨offset, trim (lineContent raw), label⟩)
        (by rw [Heading.ofLine?, h]; rfl), ih, cut_heading h, blockHeadings]
      simp [Block.code, Block.lines, Nat.add_assoc]
    | none =>
      rw [List.filterMap_cons_none (by rw [Heading.ofLine?, h]; rfl), ih, cut_other h]
      simp [Nat.add_assoc]

lemma headings_eq (text : List Char) :
    headings text = blockHeadings (byteLength (cut (rawLines text)).1.flatten)
      (cut (rawLines text)).2 := by
  have h := headings_linesFrom 0 (rawLines text)
  rwa [Nat.zero_add] at h

lemma headings_eq_nil_iff {text : List Char} :
    headings text = [] ↔ (cut (rawLines text)).2 = [] := by
  rw [headings_eq]
  cases (cut (rawLines text)).2 with
  | nil => simp [blockHeadings]
  | cons block blocks => simp [blockHeadings]

lemma sectionsOf_blockHeadings (offset : Nat) (blocks : List Block) :
    sectionsOf (offset + byteLength (blocks.flatMap Block.lines).flatten)
      (blockHeadings offset blocks) = blockSections offset blocks := by
  induction blocks generalizing offset with
  | nil => rfl
  | cons block blocks ih =>
    have stop : offset + byteLength ((block :: blocks).flatMap Block.lines).flatten =
        offset + byteLength block.code + byteLength (blocks.flatMap Block.lines).flatten := by
      simp [Block.code, Nat.add_assoc]
    rw [stop, blockHeadings, sectionsOf, ih, blockSections]
    cases blocks <;> simp [blockHeadings]

/-- Sections follow the blocks from where the first heading starts. -/
theorem sections_eq (text : List Char) :
    sections text = if (cut (rawLines text)).2 = [] then [⟨[], none, ⟨0, byteLength text⟩⟩]
      else blockSections (byteLength (cut (rawLines text)).1.flatten) (cut (rawLines text)).2 := by
  have stop : byteLength text = byteLength (cut (rawLines text)).1.flatten +
      byteLength ((cut (rawLines text)).2.flatMap Block.lines).flatten := by
    rw [← byteLength_append, ← List.flatten_append, cut_lines, flatten_rawLines]
  rw [sections, headings_eq]
  cases h : (cut (rawLines text)).2 with
  | nil => rfl
  | cons block blocks =>
    rw [if_neg (by simp), ← sectionsOf_blockHeadings, ← h, ← stop]
    rw [h, blockHeadings]

/-- The description that the line above a line gives, among raw lines. -/
def descriptionAbove (raws : List (List Char)) : Nat → Option String
  | 0 => none
  | above + 1 => raws[above]?.bind fun raw => description? (lineContent raw)

lemma description?_eq (assignment : Assignment) (text : List Char) :
    assignment.description? (lines text).toArray =
      descriptionAbove (rawLines text) assignment.line := by
  rw [Assignment.description?]
  cases h : assignment.line with
  | zero => rfl
  | succ above =>
    have same := congrArg (·[above]?.bind Script.description?) (map_text_lines text)
    simp only [List.getElem?_map, Option.bind_map] at same
    simpa [descriptionAbove, Function.comp_def] using same

/-- Only the lines of a part count for a line below the first of that part. -/
lemma descriptionAbove_append (front raws post : List (List Char)) {line : Nat}
    (first : 1 ≤ line) (last : line ≤ raws.length) :
    descriptionAbove (front ++ raws ++ post) (line + front.length) =
      descriptionAbove raws line := by
  obtain ⟨above, rfl⟩ := Nat.exists_eq_add_of_le' first
  rw [Nat.add_right_comm, descriptionAbove, descriptionAbove, List.append_assoc,
    List.getElem?_append_right (by omega), Nat.add_sub_cancel, List.getElem?_append_left (by omega)]

lemma parameter_congr {earlier later : Assignment} {lines lines' : Array Line}
    (name : earlier.name = later.name) (expression : earlier.expression = later.expression)
    (comment : earlier.comment = later.comment)
    (description : earlier.description? lines = later.description? lines')
    (group : Option String) : earlier.parameter lines group = later.parameter lines' group := by
  unfold Assignment.parameter Assignment.hint Assignment.bareParameter
  rw [name, expression, comment, description]

lemma spanCursor?_append (front code post : List Char) :
    spanCursor? (front ++ code ++ post) ⟨byteLength front, byteLength front + byteLength code⟩ =
      some (.between front.reverse code) := by
  have length : Span.length ⟨byteLength front, byteLength front + byteLength code⟩ =
      byteLength code := Nat.add_sub_cancel_left _ _
  rw [spanCursor?, List.append_assoc, seek?_append]
  dsimp only
  rw [if_pos (Nat.le_add_right _ _), length, seek?_append]
  simp [Cursor.between, Position.ofBefore]

/-- A scan of a part of a text finds what it finds in that part alone, further down. -/
theorem findings_append {front : List Char} (hf : EndsLine front) (code post : List Char) :
    findings (front ++ code ++ post)
        ⟨byteLength front, byteLength front + byteLength code⟩ =
      (scan (.ofText code)).map (Finding.behind front) := by
  rw [findings, spanCursor?_append]
  dsimp only
  rw [← scan_behind hf, Cursor.ofText_eq_between, Cursor.behind_between hf, List.nil_append]

lemma findings_whole (code : List Char) :
    findings code ⟨0, byteLength code⟩ = scan (.ofText code) := by
  have alone := spanCursor?_append [] code []
  rw [List.append_nil, List.nil_append, byteLength_nil, Nat.zero_add] at alone
  rw [findings, alone]
  rfl

lemma assignments_whole (code : List Char) :
    assignments code ⟨0, byteLength code⟩ =
      (scan (.ofText code)).filterMap Finding.assignment? := by
  rw [assignments, findings_whole]

lemma filterMap_behind (front : List Char) (found : List Finding) :
    (found.map (Finding.behind front)).filterMap Finding.assignment? =
      (found.filterMap Finding.assignment?).map (Assignment.behind front) := by
  rw [List.filterMap_map, List.map_filterMap]
  apply List.filterMap_congr
  intro finding _
  cases finding <;> rfl

lemma assignments_append {front : List Char} (hf : EndsLine front) (code post : List Char) :
    assignments (front ++ code ++ post)
        ⟨byteLength front, byteLength front + byteLength code⟩ =
      (assignments code ⟨0, byteLength code⟩).map (Assignment.behind front) := by
  rw [assignments_whole, assignments, findings_append hf, filterMap_behind]

lemma mem_filterMap_assignment?_iff {assignment : Assignment} {found : List Finding} :
    assignment ∈ found.filterMap Finding.assignment? ↔ .assignment assignment ∈ found := by
  rw [List.mem_filterMap]
  constructor
  · rintro ⟨_ | line, mem, same⟩
    · cases same
      exact mem
    · cases same
  · intro mem
    exact ⟨_, mem, rfl⟩

lemma mem_scan_of_mem_assignments {code : List Char} {assignment : Assignment}
    (mem : assignment ∈ assignments code ⟨0, byteLength code⟩) :
    .assignment assignment ∈ scan (.ofText code) := by
  rwa [assignments_whole, mem_filterMap_assignment?_iff] at mem

lemma line_le_length_rawLines {code : List Char} {assignment : Assignment}
    (mem : assignment ∈ assignments code ⟨0, byteLength code⟩) :
    assignment.line ≤ (rawLines code).length :=
  (line_le_of_mem_scan (mem_scan_of_mem_assignments mem)).trans
    (count_le_length_rawLines code)

/-- No assignment starts on a first line that does not start with a name. -/
lemma one_le_line {code : List Char} (nameless : ∀ c ∈ code.head?, isNameChar c = false)
    {assignment : Assignment} (mem : assignment ∈ assignments code ⟨0, byteLength code⟩) :
    1 ≤ assignment.line := by
  have found := mem_scan_of_mem_assignments mem
  induction code using lineInduction with
  | nil => rw [scan_of_isAtEnd rfl] at found; cases found
  | last line ne free =>
    rw [scan_nameless_open free nameless] at found
    cases found
  | cons line rest free =>
    have first : ∀ c ∈ line.head?, isNameChar c = false := by
      intro c h
      apply nameless c
      rw [List.head?_append, Option.mem_def.mp h]
      rfl
    rw [scan_nameless_line free first, List.mem_map] at found
    obtain ⟨finding, -, h⟩ := found
    cases finding with
    | assignment other =>
      cases h
      simp only [Assignment.behind, List.count_append, List.count_singleton_self]
      omega
    | stopped line => cases h

/-- The parameters of a section that is the whole text. -/
def codeParameters (label : Option (List Char)) (code : List Char) : List Parameter :=
  Section.parameters ⟨[], label, ⟨0, byteLength code⟩⟩ code (lines code).toArray

/-- A section below a line that ends makes the parameters that its code makes alone, as long as its
own first line starts with no name and its last line is not continued. -/
theorem parameters_section {front code post : List Char} (hf : EndsLine front)
    (hc : post ≠ [] → EndsLine code) (nameless : ∀ c ∈ code.head?, isNameChar c = false)
    (heading : List Char) (label : Option (List Char)) :
    Section.parameters
        ⟨heading, label, ⟨byteLength front, byteLength front + byteLength code⟩⟩
        (front ++ code ++ post) (lines (front ++ code ++ post)).toArray =
      codeParameters label code := by
  have split : rawLines (front ++ code ++ post) =
      rawLines front ++ rawLines code ++ rawLines post := by
    rw [List.append_assoc, rawLines_append hf, rawLines_append_of_ne hc, List.append_assoc]
  rw [Section.parameters, codeParameters, Section.parameters, assignments_append hf, List.map_map]
  apply List.map_congr_left
  intro assignment mem
  rw [Function.comp_apply]
  apply parameter_congr
  · rfl
  · rfl
  · rfl
  rw [description?_eq, description?_eq, split]
  have line : (assignment.behind front).line = assignment.line + (rawLines front).length := by
    rw [length_rawLines hf]
    rfl
  rw [line]
  exact descriptionAbove_append _ _ _ (one_le_line nameless mem) (line_le_length_rawLines mem)

/-- A text that starts with a heading does not start with a name. -/
lemma nameless_of_heading {raw label : List Char}
    (heading : headingLabel? (lineContent raw) = some label) (rest : List Char) :
    ∀ c ∈ (raw ++ rest).head?, isNameChar c = false := by
  obtain ⟨c, first, nameless⟩ := head?_of_headingLabel? heading
  obtain ⟨content, begins⟩ := List.head?_eq_some_iff.mp first
  have whole : lineContent raw ++ raw.dropWhile (· != '\n') = raw :=
    List.takeWhile_append_dropWhile
  rw [← whole, begins]
  exact forall_head?_cons nameless _

lemma parameters_blockSections {front : List Char} {blocks : List Block}
    (lines_eq : AreLines (blocks.flatMap Block.lines)) (hf : blocks ≠ [] → EndsLine front)
    (nameless : ∀ block ∈ blocks, ∀ c ∈ block.code.head?, isNameChar c = false) :
    (blockSections (byteLength front) blocks).flatMap (fun part =>
        part.parameters (front ++ (blocks.flatMap Block.lines).flatten)
          (lines (front ++ (blocks.flatMap Block.lines).flatten)).toArray) =
      blocks.flatMap fun block => codeParameters (some block.label) block.code := by
  -- The front takes in the blocks that are done, and the text of the whole never changes.
  induction blocks generalizing front with
  | nil => rfl
  | cons block blocks ih =>
    obtain ⟨-, later, ends⟩ := areLines_blocks lines_eq
    have whole : front ++ ((block :: blocks).flatMap Block.lines).flatten =
        front ++ block.code ++ (blocks.flatMap Block.lines).flatten := by
      rw [List.flatMap_cons, List.flatten_append, List.append_assoc]
      rfl
    have hc : (blocks.flatMap Block.lines).flatten ≠ [] → EndsLine block.code := by
      intro ne
      apply ends
      rintro rfl
      exact ne rfl
    have first := parameters_section (hf (by simp)) hc (nameless block (by simp))
      (trim (lineContent block.heading)) (some block.label)
    have closed : blocks ≠ [] → EndsLine (front ++ block.code) :=
      fun ne => endsLine_append (hf (by simp)) (ends ne)
    have rest := ih later closed fun other mem => nameless other (by simp [mem])
    rw [byteLength_append] at rest
    rw [whole, blockSections, List.flatMap_cons, first, rest, List.flatMap_cons]

/-- Declarations are put together from their blocks. Without a heading they are one section. -/
theorem declaredParameters_eq (text : List Char) :
    declaredParameters text = if (cut (rawLines text)).2 = [] then codeParameters none text
      else (cut (rawLines text)).2.flatMap fun block =>
        codeParameters (some block.label) block.code := by
  rw [declaredParameters, sections_eq]
  split
  · rw [List.flatMap_singleton]
    rfl
  · have whole : (cut (rawLines text)).1.flatten ++
        ((cut (rawLines text)).2.flatMap Block.lines).flatten = text := by
      rw [← List.flatten_append, cut_lines, flatten_rawLines]
    obtain ⟨blocks, closed⟩ := areLines_cut text
    have parts := parameters_blockSections blocks closed fun block mem =>
      nameless_of_heading (headingLabel?_of_mem_cut mem) block.body.flatten
    rw [whole] at parts
    exact parts

end ParamPanel.Script
