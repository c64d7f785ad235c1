import ParamPanel.Proofs.Script.Concatenation
import ParamPanel.Proofs.Script.Place

/-!
# Where parameters come from

Every parameter of a script comes from the last assignment of its name, and the lines above that
assignment give its group and its description. Nothing in front of the first heading has a part in
it.
-/

namespace ParamPanel.Script

open Text

/-- The assignments of declarations, in the order of their sections. -/
def declaredAssignments (text : List Char) : List Assignment :=
  (sections text).flatMap fun part => assignments text part.span

/-- All of a parameter comes from an assignment and the lines above it: the group is the label of
the nearest heading, the description that of the nearest line, and the rest is what the comment
makes of a parameter that has only a name and a value. -/
structure Assignment.AccountsFor (assignment : Assignment) (above : List Line)
    (parameter : Parameter) : Prop where
  value_eq : parameter.value = valueOf assignment.expression
  group_eq : parameter.group =
    ((above.map Line.text).filterMap headingLabel?).getLast?.map String.ofList
  description_iff : ∀ description, parameter.description = some description ↔
    ∃ line ∈ above.getLast?, ∃ comment, trim line.text = lineComment ++ comment ∧
      trim comment ≠ [] ∧ String.ofList (trim comment) = description
  decorated : parameter =
    { assignment.hint.apply
        (.ofValue (String.ofList assignment.name) (valueOf assignment.expression)) with
      description := parameter.description
      group := parameter.group }

lemma exists_standsUnder {text : List Char} {assignment : Assignment}
    (mem : assignment ∈ declaredAssignments text) :
    ∃ part ∈ sections text, ∃ before inside rest post, before ++ (inside ++ rest) ++ post = text ∧
      assignment.StandsUnder part.label before inside rest post := by
  obtain ⟨part, inside, found⟩ := List.mem_flatMap.mp mem
  exact ⟨part, inside, standsUnder_of_mem_assignments inside found⟩

/-- The parameter that an assignment makes, its group told from the raw lines above it. -/
def Assignment.parameterIn (assignment : Assignment) (text : List Char) : Parameter :=
  assignment.parameter (lines text).toArray
    ((labels ((rawLines text).take assignment.line)).getLast?.map String.ofList)

lemma declaredParameters_eq_map (text : List Char) :
    declaredParameters text = (declaredAssignments text).map (·.parameterIn text) := by
  rw [declaredParameters, declaredAssignments, List.map_flatMap]
  apply List.flatMap_congr
  intro part mem
  apply List.map_congr_left
  intro assignment found
  obtain ⟨before, inside, rest, post, whole, stands⟩ := standsUnder_of_mem_assignments mem found
  rw [Assignment.parameterIn, ← whole, List.append_assoc, stands.take_line, stands.label_eq]
  rfl

lemma name_parameterIn (assignment : Assignment) (text : List Char) :
    (assignment.parameterIn text).name = String.ofList assignment.name := by
  change (assignment.hint.apply assignment.bareParameter).name = _
  rw [Hint.name_apply]
  rfl

/-- The description of an assignment is that of the line looked up from where it starts. -/
lemma Assignment.Stands.description?_eq {before inside : List Char} {assignment : Assignment}
    (stands : assignment.Stands before inside) (after : List Char) :
    assignment.description? (lines (before ++ after)).toArray =
      (precedingLine? (before ++ after) assignment.span.start).bind Script.description? := by
  rw [Script.description?_eq, stands.line_eq, descriptionAbove_eq_below stands.endsLine,
    descriptionBelow, stands.span_eq, precedingLine?_append stands.endsLine, ← List.getLast?_map,
    map_text_lines, List.getLast?_map, Option.bind_map]
  rfl

lemma accountsFor_parameterIn {text before inside after : List Char} {assignment : Assignment}
    (whole : before ++ after = text) (stands : assignment.Stands before inside) :
    assignment.AccountsFor (lines before) (assignment.parameterIn text) := by
  subst whole
  refine ⟨?_, ?_, ?_, rfl⟩
  · change (assignment.hint.apply assignment.bareParameter).value = _
    rw [Hint.value_apply]
    rfl
  · rw [Assignment.parameterIn, stands.take_line, map_text_lines]
    rfl
  · intro description
    change assignment.description? (lines (before ++ after)).toArray = _ ↔ _
    rw [stands.description?_eq, stands.span_eq, precedingLine?_append stands.endsLine,
      Option.bind_map, Option.bind_eq_some_iff]
    simp only [Function.comp_apply, description?_eq_some_iff, Option.mem_def]

/-- The line on which an assignment starts, and the lines above it. -/
lemma lines_of_stands {before inside : List Char} {assignment : Assignment}
    (stands : assignment.Stands before inside) (after : List Char) :
    ∃ line below, lines (before ++ (inside ++ after)) = lines before ++ line :: below ∧
      line.span.start = assignment.span.start := by
  rw [lines_append stands.endsLine]
  cases raws : rawLines (inside ++ after) with
  | nil =>
    have empty := flatten_rawLines (inside ++ after)
    rw [raws] at empty
    simp [stands.nonempty] at empty
  | cons raw raws => exact ⟨_, _, rfl, by rw [stands.span_eq]⟩

/-- A heading stands above an assignment or below it. -/
lemma heading_apart {label : Option (List Char)} {before inside rest post : List Char}
    {assignment : Assignment} (stands : assignment.StandsUnder label before inside rest post)
    {line : Line} (mem : line ∈ lines (before ++ (inside ++ rest) ++ post))
    (heading : headingLabel? line.text ≠ none) :
    assignment.span.stop ≤ line.span.start ∨ line.span.stop < assignment.span.start := by
  rw [List.append_assoc, lines_append stands.endsLine, rawLines_append_of_ne stands.endsLine_rest,
    linesFrom_append, flatten_rawLines, List.mem_append, List.mem_append] at mem
  rw [stands.span_eq]
  dsimp only
  rcases mem with above | own | below
  · right
    simpa [lines] using stop_lt_of_mem_linesFrom stands.endsLine above
  · refine absurd ?_ heading
    have text_mem := List.mem_map_of_mem (f := Line.text) own
    rw [map_text_linesFrom] at text_mem
    exact List.filterMap_eq_nil_iff.mp stands.unheaded _ text_mem
  · left
    have := start_le_of_mem_linesFrom below
    rw [byteLength_append] at this
    omega

/-- Where there is a heading, the first one stands above every assignment. -/
lemma heading_start_lt {text : List Char} {assignment : Assignment}
    (mem : assignment ∈ declaredAssignments text) {first : Heading}
    (heading : first ∈ (headings text).head?) : first.start < assignment.span.start := by
  obtain ⟨part, inside_sections, before, inside, rest, post, rfl, stands⟩ := exists_standsUnder mem
  have labelled : part.label ≠ none := by
    intro unlabelled
    rw [headings_eq_nil_of_label_eq_none inside_sections unlabelled] at heading
    cases heading
  have above : (lines before).filterMap Heading.ofLine? ≠ [] := by
    intro none_above
    rw [← headings, headings_eq_nil_iff, ← labels_eq_nil_iff] at none_above
    have label_eq := stands.label_eq
    rw [none_above] at label_eq
    exact labelled label_eq.symm
  rw [List.append_assoc, headings, lines_append stands.endsLine, List.filterMap_append,
    List.head?_append_of_ne_nil _ above] at heading
  obtain ⟨line, found, of_line⟩ := List.mem_filterMap.mp (List.mem_of_mem_head? heading)
  obtain ⟨label, -, rfl⟩ := Option.map_eq_some_iff.mp of_line
  have stop_lt := stop_lt_of_mem_linesFrom stands.endsLine found
  rw [stands.span_eq]
  have := start_le_stop_of_mem_linesFrom found
  dsimp only
  omega

/-! ### In front of the first heading -/

lemma cut_flatMap_lines (raws : List (List Char)) :
    cut ((cut raws).2.flatMap Block.lines) = ([], (cut raws).2) := by
  induction raws with
  | nil => rfl
  | cons raw raws ih =>
    cases h : headingLabel? (lineContent raw) with
    | some label =>
      rw [cut_heading h, List.flatMap_cons, Block.lines, List.cons_append, cut_lines,
        cut_heading h]
    | none => rw [cut_other h, ih]

lemma not_mem_declared (keywords : Keywords) (script : String) :
    '\r' ∉ declared keywords script := by
  intro mem
  obtain ⟨raw, kept, inside⟩ := List.mem_flatten.mp mem
  apply not_mem_normalize script.toList
  rw [← flatten_rawLines (normalize script.toList)]
  exact List.mem_flatten.mpr ⟨raw, (List.takeWhile_prefix _).subset kept, inside⟩

lemma not_endsDeclarations_of_mem {keywords : Keywords} {script : String} {raw : List Char}
    (mem : raw ∈ rawLines (declared keywords script)) : endsDeclarations keywords raw = false := by
  rw [declared, rawLines_declarations] at mem
  simpa using List.mem_takeWhile_imp mem

/-- A part of the declarations of a script that is made of whole lines declares itself. -/
lemma declared_of_lines {keywords : Keywords} {script : String} {front raws : List (List Char)}
    (parted : front ++ raws = rawLines (declared keywords script)) :
    declared keywords (String.ofList raws.flatten) = raws.flatten ∧
      rawLines raws.flatten = raws := by
  have lines_eq := areLines_rawLines (declared keywords script)
  rw [← parted] at lines_eq
  have raws_eq := lines_eq.of_append.2.1.rawLines_flatten
  have free := not_mem_declared keywords script
  rw [← flatten_rawLines (declared keywords script), ← parted, List.flatten_append,
    List.mem_append, not_or] at free
  have plain : hasDefinition keywords raws.flatten = false := by
    rw [hasDefinition, raws_eq, List.any_eq_false]
    intro raw mem
    have inside : raw ∈ rawLines (declared keywords script) := by
      rw [← parted]
      exact List.mem_append_right front mem
    simp [not_endsDeclarations_of_mem inside]
  exact ⟨declared_eq_self free.2 plain, raws_eq⟩

/-- From its first heading on, a script has the parameters that it has as a whole. -/
lemma parameters_from_heading {keywords : Keywords} {script : String} {first : Heading}
    (heading : first ∈ (headings (declared keywords script)).head?) :
    ∃ front rest, front ++ rest = declared keywords script ∧ byteLength front = first.start ∧
      parameters keywords (String.ofList rest) = parameters keywords script := by
  have parted := cut_lines (rawLines (declared keywords script))
  obtain ⟨alone, raws_eq⟩ := declared_of_lines parted
  have blocks_ne : (cut (rawLines (declared keywords script))).2 ≠ [] := by
    intro no_block
    rw [headings_eq_nil_iff.mpr no_block] at heading
    cases heading
  refine ⟨(cut (rawLines (declared keywords script))).1.flatten,
    ((cut (rawLines (declared keywords script))).2.flatMap Block.lines).flatten, ?_, ?_, ?_⟩
  · rw [← List.flatten_append, parted, flatten_rawLines]
  · rw [headings_eq] at heading
    obtain ⟨block, blocks, h⟩ := List.exists_cons_of_ne_nil blocks_ne
    rw [h, blockHeadings, List.head?_cons, Option.mem_some_iff] at heading
    rw [← heading]
  · rw [parameters_eq, parameters_eq, alone, declaredParameters_eq, declaredParameters_eq,
      raws_eq, cut_flatMap_lines, if_neg blocks_ne, if_neg blocks_ne]

/-- Every parameter of a script is accounted for by the last assignment of its name and the lines
above that. The names come in the order in which they are first assigned, no assignment runs into a
heading, and what stands in front of the first heading does not matter. -/
theorem parameters_accounted_for (keywords : Keywords) (script : String) :
    let text := declared keywords script
    let found := declaredAssignments text
    (parameters keywords script).map Parameter.name =
        (found.map fun assignment => String.ofList assignment.name).eraseDups ∧
      (∀ parameter ∈ parameters keywords script, ∃ earlier last later,
        found = earlier ++ last :: later ∧ String.ofList last.name = parameter.name ∧
        (∀ other ∈ later, String.ofList other.name ≠ parameter.name) ∧
        ∃ above line below, lines text = above ++ line :: below ∧
          line.span.start = last.span.start ∧ last.AccountsFor above parameter) ∧
      (∀ assignment ∈ found, ∀ line ∈ lines text, headingLabel? line.text ≠ none →
        assignment.span.stop ≤ line.span.start ∨ line.span.stop < assignment.span.start) ∧
      ∀ first ∈ (headings text).head?, (∀ assignment ∈ found, first.start < assignment.span.start) ∧
        ∃ front rest, front ++ rest = text ∧ byteLength front = first.start ∧
          parameters keywords (String.ofList rest) = parameters keywords script := by
  intro text found
  have names : (declaredParameters text).map Parameter.name =
      found.map fun assignment => String.ofList assignment.name := by
    rw [declaredParameters_eq_map, List.map_map]
    apply List.map_congr_left
    intro assignment _
    exact name_parameterIn assignment text
  refine ⟨?_, ?_, ?_, ?_⟩
  · rw [parameters_eq, map_name_lastOfEach, names]
  · intro parameter mem
    rw [parameters_eq, mem_lastOfEach_iff] at mem
    obtain ⟨earlier, later, split, others⟩ := exists_split_of_lastNamed? mem
    rw [declaredParameters_eq_map] at split
    obtain ⟨before, behind, found_eq, rfl, h⟩ := List.map_eq_append_iff.mp split
    obtain ⟨last, after, rfl, rfl, rfl⟩ := List.map_eq_cons_iff.mp h
    have inside : last ∈ declaredAssignments text := by
      rw [found_eq]
      simp
    obtain ⟨part, -, front, own, rest, post, whole, stands⟩ := exists_standsUnder inside
    rw [List.append_assoc, List.append_assoc] at whole
    obtain ⟨line, below, lines_eq, start⟩ := lines_of_stands stands.toStands (rest ++ post)
    refine ⟨before, last, after, found_eq, (name_parameterIn last text).symm, ?_, lines front, line,
      below, ?_, start, accountsFor_parameterIn whole stands.toStands⟩
    · intro other later_mem
      rw [← name_parameterIn other text]
      exact others _ (List.mem_map_of_mem later_mem)
    · rw [← lines_eq, whole]
  · intro assignment mem line line_mem heading
    obtain ⟨part, -, front, own, rest, post, whole, stands⟩ := exists_standsUnder mem
    rw [← whole] at line_mem
    exact heading_apart stands line_mem heading
  · intro first heading
    exact ⟨fun assignment mem => heading_start_lt mem heading, parameters_from_heading heading⟩

/-- A name that comes up in front of the first heading and under both headings, where the second
time a comment describes it. -/
theorem accounted_for_under_second_heading :
    let script :=
      "x = true;\n/* [A] */\n// one\nx = \"p;\ny = \"q\n\";\n/* [B] */\n// two\nx = \"z\"; // [z,w:W]\n"
    let parameter : Parameter := ⟨"x", .string, .string "z", some "two", some "B", none,
      some [⟨.string "z", "z"⟩, ⟨.string "w", "W"⟩], none⟩
    parameter ∈ parameters .standard script ∧ ∃ earlier last later,
      declaredAssignments (declared .standard script) = earlier ++ last :: later ∧
        String.ofList last.name = "x" ∧ (∀ other ∈ later, String.ofList other.name ≠ "x") ∧
        ∃ above line below, lines (declared .standard script) = above ++ line :: below ∧
          line.span.start = last.span.start ∧ last.AccountsFor above parameter := by
  intro script parameter
  have mem : parameter ∈ parameters .standard script := by decide +kernel
  exact ⟨mem, (parameters_accounted_for .standard script).2.1 parameter mem⟩

end ParamPanel.Script
