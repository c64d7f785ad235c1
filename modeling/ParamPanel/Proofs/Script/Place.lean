import Mathlib.Data.List.Basic
import ParamPanel.Proofs.Script.LineByLine
import ParamPanel.Proofs.Script.Tiling
import ParamPanel.Proofs.Text.Lookup

/-!
# Where assignments stand

An assignment stands between two parts of a text, and its section stands between two others. The
heading of the section is the last one above the assignment, and none stands between the start of
the assignment and the end of the section.
-/

namespace ParamPanel.Script

open Text

/-! ### Sections -/

/-- A section stands between lines that end. Its code has no heading but its own, which is its first
line; without a heading it is the whole text. -/
structure Section.Stands (part : Section) (front code post : List Char) : Prop where
  endsLine_front : EndsLine front
  endsLine_code : post ≠ [] → EndsLine code
  span_eq : part.span = ⟨byteLength front, byteLength front + byteLength code⟩
  labels_code : labels (rawLines code) = part.label.toList
  whole : part.label = none → front = [] ∧ post = []
  heading : ∀ label ∈ part.label, ∃ raw ∈ (rawLines code).head?,
    headingLabel? (lineContent raw) = some label

lemma Section.Stands.nameless {part : Section} {front code post : List Char}
    (h : part.Stands front code post) {label : List Char} (headed : part.label = some label) :
    ∀ c ∈ code.head?, isNameChar c = false := by
  obtain ⟨raw, first, heading⟩ := h.heading label headed
  obtain ⟨raws, whole⟩ := List.head?_eq_some_iff.mp first
  rw [← flatten_rawLines code, whole, List.flatten_cons]
  exact nameless_of_heading heading raws.flatten

lemma stands_of_mem_sections {text : List Char} {part : Section} (mem : part ∈ sections text) :
    ∃ front code post, front ++ code ++ post = text ∧ part.Stands front code post := by
  rw [sections_eq] at mem
  split at mem
  · rename_i no_block
    rw [List.mem_singleton] at mem
    subst mem
    refine ⟨[], text, [], by simp, endsLine_nil, fun ne => absurd rfl ne, ?_,
      labels_eq_nil_iff.mpr no_block, fun _ => ⟨rfl, rfl⟩, ?_⟩
    · simp
    · rintro label ⟨⟩
  · obtain ⟨front, code, post, whole, ends, closed, span_eq, block, inside, own, rfl, -, label_eq⟩ :=
      (tiles_cut text).exists_code mem
    have code_lines : rawLines block.code = block.lines := own.rawLines_flatten
    refine ⟨front, block.code, post, whole, ends, closed, span_eq, ?_, ?_, ?_⟩
    · rw [code_lines, labels_lines inside, label_eq]
      rfl
    · intro h
      rw [label_eq] at h
      cases h
    · intro label headed
      rw [label_eq] at headed
      cases headed
      exact ⟨block.heading, by rw [code_lines]; rfl, headingLabel?_of_mem_cut inside⟩

lemma headings_eq_nil_of_label_eq_none {text : List Char} {part : Section}
    (mem : part ∈ sections text) (unlabelled : part.label = none) : headings text = [] := by
  obtain ⟨front, code, post, rfl, stands⟩ := stands_of_mem_sections mem
  obtain ⟨rfl, rfl⟩ := stands.whole unlabelled
  have none_left := stands.labels_code
  rw [unlabelled] at none_left
  rw [headings_eq_nil_iff, List.nil_append, List.append_nil, ← labels_eq_nil_iff, none_left]
  rfl

/-! ### Assignments -/

lemma Assignment.Stands.behind {assignment : Assignment} {before inside front : List Char}
    (h : assignment.Stands before inside) (hf : EndsLine front) :
    (assignment.behind front).Stands (front ++ before) inside := by
  refine ⟨endsLine_append hf h.endsLine, h.nonempty, ?_, ?_⟩
  · simp only [Assignment.behind, h.span_eq, byteLength_append, Span.mk.injEq]
    omega
  · simp only [Assignment.behind, h.line_eq, List.count_append]
    omega

lemma Assignment.Stands.take_line {assignment : Assignment} {before inside : List Char}
    (h : assignment.Stands before inside) (after : List Char) :
    (rawLines (before ++ after)).take assignment.line = rawLines before := by
  rw [rawLines_append h.endsLine, h.line_eq, ← length_rawLines h.endsLine, List.take_left]

/-- An assignment stands in a section under the last heading above it, if there is one. No heading
stands in what is left of the section, and the section ends its last line. -/
structure Assignment.StandsUnder (assignment : Assignment) (label : Option (List Char))
    (before inside rest post : List Char) : Prop extends assignment.Stands before inside where
  label_eq : (labels (rawLines before)).getLast? = label
  unheaded : labels (rawLines (inside ++ rest)) = []
  endsLine_rest : post ≠ [] → EndsLine (inside ++ rest)

theorem standsUnder_of_mem_assignments {text : List Char} {part : Section}
    (mem : part ∈ sections text) {assignment : Assignment}
    (found : assignment ∈ assignments text part.span) :
    ∃ before inside rest post, before ++ (inside ++ rest) ++ post = text ∧
      assignment.StandsUnder part.label before inside rest post := by
  obtain ⟨front, code, post, rfl, section_stands⟩ := stands_of_mem_sections mem
  rw [section_stands.span_eq, assignments_append section_stands.endsLine_front] at found
  obtain ⟨own, inside_code, rfl⟩ := List.mem_map.mp found
  have found := mem_scan_of_mem_assignments inside_code
  rw [Cursor.ofText_eq_between] at found
  obtain ⟨before, inside, rest, rfl, stands⟩ := stands_of_mem_scan found
  rw [List.reverse_nil, List.nil_append] at stands
  have parted := section_stands.labels_code
  rw [List.append_assoc, rawLines_append stands.endsLine, labels_append] at parted
  -- With a heading, the assignment stands below the first line of the section's code.
  have own_label : labels (rawLines before) = part.label.toList := by
    cases headed : part.label with
    | none =>
      rw [headed] at parted
      exact (List.append_eq_nil_iff.mp parted).1
    | some label =>
      obtain ⟨raw, first, heading⟩ := section_stands.heading label headed
      have below := one_le_line (section_stands.nameless headed) inside_code
      rw [stands.line_eq, ← length_rawLines stands.endsLine] at below
      obtain ⟨line, raws, above⟩ := List.exists_cons_of_length_pos below
      rw [List.append_assoc, rawLines_append stands.endsLine, above] at first
      cases first
      rw [above, labels_heading heading] at parted ⊢
      rw [headed] at parted
      obtain ⟨-, none_left⟩ := List.cons.inj parted
      rw [(List.append_eq_nil_iff.mp none_left).1]
      rfl
  refine ⟨front ++ before, inside, rest, post, by simp,
    stands.behind section_stands.endsLine_front, ?_, ?_, ?_⟩
  · rw [rawLines_append section_stands.endsLine_front, labels_append, own_label]
    cases headed : part.label with
    | none =>
      rw [(section_stands.whole headed).1]
      rfl
    | some label => simp
  · rw [own_label] at parted
    exact List.append_right_eq_self.mp parted
  · intro ne
    have ends := section_stands.endsLine_code ne
    rw [List.append_assoc] at ends
    exact ends.of_append (by simp [stands.nonempty])

end ParamPanel.Script
