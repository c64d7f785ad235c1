import Mathlib.Data.List.Basic
import ParamPanel.Proofs.Script.Concatenation
import ParamPanel.Proofs.Script.Constant
import ParamPanel.Proofs.Script.Grammar
import ParamPanel.Proofs.Script.LineByLine

/-!
# Canonical scripts

A canonical script gives every declaration a line of its own, with its description above it and its
annotation behind it, and every group a heading. Whatever the texts in it look like, extraction
reads back what was written.
-/

namespace ParamPanel.Script

open Text

/-- A text on one line that is not empty and has no blanks around it. -/
structure Phrase where
  text : List Char
  ne_nil : text ≠ []
  trimmed : trim text = text
  single : IsSingleLine text

/-- Any text on one line. -/
structure Remark where
  text : List Char
  single : IsSingleLine text

/-- A constant declared under a name that opens no definition. -/
structure Declaration (keywords : Keywords) where
  name : List Char
  ne_nil : name ≠ []
  isNameChar_of_mem : ∀ c ∈ name, isNameChar c = true
  not_keyword : keywords.contains (String.ofList name) = false
  constant : Constant
  description : Option Phrase
  annotation : Option Remark

namespace Declaration

variable {keywords : Keywords}

def comment (declaration : Declaration keywords) : Option (List Char) :=
  declaration.annotation.map fun remark => lineComment ++ ' ' :: remark.text

/-- What stands behind the semicolon. -/
def trailer (declaration : Declaration keywords) : List Char :=
  (declaration.comment.map (' ' :: ·)).getD []

def statement (declaration : Declaration keywords) : List Char :=
  declaration.name ++ ([' '] ++ assignmentSign :: (' ' :: declaration.constant.text ++
    statementEnd :: declaration.trailer))

def lines (declaration : Declaration keywords) : List (List Char) :=
  (declaration.description.map fun phrase => lineComment ++ ' ' :: phrase.text).toList ++
    [declaration.statement]

def hint (declaration : Declaration keywords) : Hint :=
  match declaration.comment with
  | some comment => .ofComment comment
  | none => .remark

/-- The parameter that a declaration stands for in a group. -/
def parameter (declaration : Declaration keywords) (group : Option String) : Parameter :=
  { declaration.hint.apply
      (.ofValue (String.ofList declaration.name) declaration.constant.value) with
    description := declaration.description.map fun phrase => String.ofList phrase.text
    group := group }

end Declaration

/-- Declarations under a heading. -/
structure Chapter (keywords : Keywords) where
  label : Phrase
  no_open : bracketOpen ∉ label.text
  no_close : bracketClose ∉ label.text
  declarations : List (Declaration keywords)

namespace Chapter

variable {keywords : Keywords}

def heading (chapter : Chapter keywords) : List Char :=
  blockOpen ++ ' ' :: bracketOpen :: chapter.label.text ++ bracketClose :: ' ' :: blockClose

def lines (chapter : Chapter keywords) : List (List Char) :=
  chapter.heading :: chapter.declarations.flatMap Declaration.lines

def parameters (chapter : Chapter keywords) : List Parameter :=
  chapter.declarations.map (·.parameter (some (String.ofList chapter.label.text)))

end Chapter

/-- Declarations without a heading, or one chapter and more. -/
inductive CanonicalScript (keywords : Keywords) where
  | plain (declarations : List (Declaration keywords))
  | chapters (first : Chapter keywords) (later : List (Chapter keywords))

namespace CanonicalScript

variable {keywords : Keywords}

def lines : CanonicalScript keywords → List (List Char)
  | plain declarations => declarations.flatMap Declaration.lines
  | chapters first later => (first :: later).flatMap Chapter.lines

/-- The text of a script. -/
def render (script : CanonicalScript keywords) : String := String.ofList (unlines script.lines)

/-- A parameter for each declaration, in order. -/
def parameters : CanonicalScript keywords → List Parameter
  | plain declarations => declarations.map (·.parameter none)
  | chapters first later => (first :: later).flatMap Chapter.parameters

end CanonicalScript

variable {keywords : Keywords}

/-! ### The lines of a canonical script -/

lemma isBlank_of_mem_getLast?_phrase (phrase : Phrase) (front : List Char) :
    ∀ c ∈ (front ++ phrase.text).getLast?, isBlank c = false := by
  intro c last
  rw [List.getLast?_append_of_ne_nil _ phrase.ne_nil] at last
  exact (trim_eq_self_iff.mp phrase.trimmed).2 c last

lemma trim_description (phrase : Phrase) :
    trim (lineComment ++ ' ' :: phrase.text) = lineComment ++ ' ' :: phrase.text := by
  rw [trim_eq_self_iff]
  constructor
  · exact forall_head?_cons rfl _
  · exact isBlank_of_mem_getLast?_phrase phrase (lineComment ++ [' '])

lemma description?_description (phrase : Phrase) :
    description? (lineComment ++ ' ' :: phrase.text) = some (String.ofList phrase.text) := by
  have marked : lineComment.isPrefixOf? (lineComment ++ ' ' :: phrase.text) =
      some (' ' :: phrase.text) := by
    rw [List.isPrefixOf?_eq_some_iff_append_eq]
  have text : trim (' ' :: phrase.text) = phrase.text := by
    rw [trim_cons_blank (by decide), phrase.trimmed]
  rw [description?, trim_description, marked]
  simp [text, phrase.ne_nil]

lemma headingLabel?_description (phrase : Phrase) :
    headingLabel? (lineComment ++ ' ' :: phrase.text) = none := by
  by_contra h
  obtain ⟨label, found⟩ := Option.ne_none_iff_exists'.mp h
  obtain ⟨comment, inner, commented, -⟩ := headingLabel?_eq_some_iff.mp found
  rw [trim_description] at commented
  cases commented

namespace Declaration

lemma head?_statement (declaration : Declaration keywords) :
    ∃ c, declaration.statement.head? = some c ∧ isNameChar c = true := by
  obtain ⟨c, rest, h⟩ := List.exists_cons_of_ne_nil declaration.ne_nil
  refine ⟨c, ?_, declaration.isNameChar_of_mem c (by simp [h])⟩
  rw [statement, h]
  rfl

lemma headingLabel?_statement (declaration : Declaration keywords) :
    headingLabel? declaration.statement = none := by
  by_contra h
  obtain ⟨label, found⟩ := Option.ne_none_iff_exists'.mp h
  obtain ⟨c, first, named⟩ := declaration.head?_statement
  obtain ⟨d, start, nameless⟩ := head?_of_headingLabel? found
  rw [first] at start
  cases start
  simp [named] at nameless

lemma description?_statement (declaration : Declaration keywords) :
    description? declaration.statement = none := by
  obtain ⟨c, first, named⟩ := declaration.head?_statement
  apply description?_eq_none
  · rw [first]
    simpa using isBlank_of_isNameChar named
  · rintro ⟨rest, start⟩
    rw [← start] at first
    cases first
    exact absurd named (by decide)

lemma opensDefinition_statement (declaration : Declaration keywords) :
    opensDefinition keywords declaration.statement = false := by
  have word : declaration.statement.takeWhile isNameChar = declaration.name :=
    takeWhile_run declaration.isNameChar_of_mem (forall_head?_cons rfl _)
  rw [opensDefinition, word, declaration.not_keyword, Bool.and_false]

lemma isSingleLine_comment (declaration : Declaration keywords) :
    ∀ comment ∈ declaration.comment, IsSingleLine comment := by
  intro comment mem
  obtain ⟨remark, -, rfl⟩ := Option.map_eq_some_iff.mp mem
  simp [lineComment, remark.single]

lemma isSingleLine_statement (declaration : Declaration keywords) :
    IsSingleLine declaration.statement := by
  have name : IsSingleLine declaration.name := isSingleLine_of_not_blank fun c mem =>
    isBlank_of_isNameChar (declaration.isNameChar_of_mem c mem)
  have trailer : IsSingleLine declaration.trailer := by
    rw [Declaration.trailer]
    cases h : declaration.comment with
    | none => exact isSingleLine_nil
    | some comment => simpa using declaration.isSingleLine_comment comment h
  simp [statement, name, trailer, declaration.constant.isSingleLine_text, assignmentSign,
    statementEnd]

/-- What holds of every description line and of the statement holds of every line. -/
lemma forall_mem_lines (declaration : Declaration keywords) {motive : List Char → Prop}
    (above : ∀ phrase : Phrase, motive (lineComment ++ ' ' :: phrase.text))
    (here : motive declaration.statement) : ∀ line ∈ declaration.lines, motive line := by
  intro line mem
  rcases List.mem_append.mp mem with described | last
  · obtain ⟨phrase, -, rfl⟩ := Option.map_eq_some_iff.mp (Option.mem_toList.mp described)
    exact above phrase
  · rw [List.mem_singleton.mp last]
    exact here

lemma isSingleLine_of_mem_lines (declaration : Declaration keywords) :
    ∀ line ∈ declaration.lines, IsSingleLine line := by
  refine declaration.forall_mem_lines (motive := IsSingleLine) ?_ ?_
  · intro phrase
    simp [lineComment, phrase.single]
  · exact declaration.isSingleLine_statement

lemma headingLabel?_of_mem_lines (declaration : Declaration keywords) :
    ∀ line ∈ declaration.lines, headingLabel? line = none :=
  declaration.forall_mem_lines headingLabel?_description declaration.headingLabel?_statement

lemma opensDefinition_of_mem_lines (declaration : Declaration keywords) :
    ∀ line ∈ declaration.lines, opensDefinition keywords line = false := by
  refine declaration.forall_mem_lines (motive := fun line => opensDefinition keywords line = false)
    ?_ ?_
  · intro phrase
    exact opensDefinition_of_nameless keywords (forall_head?_cons rfl _)
  · exact declaration.opensDefinition_statement

/-! ### What a declaration is read as -/

lemma trailer_comment (declaration : Declaration keywords) (rest : List Char) :
    Trailer ('\n' :: rest) declaration.comment declaration.trailer := by
  rw [trailer, comment]
  cases declaration.annotation with
  | none =>
    have inline : ∀ c ∈ ([] : List Char), isInlineBlank c = true := List.forall_mem_nil _
    exact .none inline (forall_head?_cons rfl rest) (by simp [lineComment])
  | some remark =>
    have inline : ∀ c ∈ [' '], isInlineBlank c = true := List.forall_mem_singleton.mpr rfl
    have single : '\n' ∉ lineComment ++ ' ' :: remark.text := by simp [lineComment, remark.single.1]
    have ends : ∀ c ∈ ('\n' :: rest).head?, c = '\n' := by simp
    exact .comment inline (List.prefix_append _ _) single ends

lemma scan_statement (declaration : Declaration keywords) (rest : List Char) :
    ∃ span, scan (.ofText (declaration.statement ++ '\n' :: rest)) =
      [.assignment ⟨declaration.name, declaration.constant.text, declaration.comment, span, 0⟩] ++
        (scan (.ofText rest)).map (Finding.behind (declaration.statement ++ ['\n'])) := by
  have gap : ∀ c ∈ [' '], isBlank c = true := List.forall_mem_singleton.mpr rfl
  have single : (' ' :: declaration.constant.text).head? ≠ some assignmentSign := by
    simp [assignmentSign]
  have unended : statementEnd ∉ ' ' :: declaration.constant.text := by
    rw [List.mem_cons, not_or]
    exact ⟨by decide, declaration.constant.statementEnd_not_mem_text⟩
  have expression : trim (' ' :: declaration.constant.text) = declaration.constant.text := by
    rw [trim_cons_blank (by decide), declaration.constant.trim_text]
  have filled : trim (' ' :: declaration.constant.text) ≠ [] := by
    rw [expression]
    exact declaration.constant.text_ne_nil
  obtain ⟨span, found⟩ := scan_written_line declaration.ne_nil declaration.isNameChar_of_mem gap
    single unended filled (declaration.trailer_comment rest).readComment_eq
  rw [expression] at found
  exact ⟨span, found⟩

/-- A declaration below its description is read as the parameter it stands for. -/
lemma parametersBelow_statement (declaration : Declaration keywords) {front : List Char}
    (hf : EndsLine front) (rest : List Char) (group : Option String)
    (above : descriptionBelow front = declaration.description.map fun phrase =>
      String.ofList phrase.text) :
    parametersBelow front (declaration.statement ++ '\n' :: rest) group =
      declaration.parameter group ::
        parametersBelow (front ++ (declaration.statement ++ ['\n'])) rest group := by
  obtain ⟨span, found⟩ := declaration.scan_statement rest
  let read : Assignment :=
    ⟨declaration.name, declaration.constant.text, declaration.comment, span, 0⟩
  have described : (read.behind front).description?
      (Text.lines (front ++ (declaration.statement ++ '\n' :: rest))).toArray =
      declaration.description.map fun phrase => String.ofList phrase.text := by
    have line : (read.behind front).line = front.count '\n' := Nat.zero_add _
    rw [description?_eq, line, descriptionAbove_eq_below hf, above]
  have made : (read.behind front).parameter
      (Text.lines (front ++ (declaration.statement ++ '\n' :: rest))).toArray group =
      declaration.parameter group := by
    rw [Assignment.parameter, described, Declaration.parameter, ← valueOf_text]
    rfl
  rw [parametersBelow_line found]
  exact congrArg (· :: _) made

/-- The lines of a declaration are read as its parameter, and describe nothing below them. -/
theorem parametersBelow_lines (declaration : Declaration keywords) {front : List Char}
    (hf : EndsLine front) (undescribed : descriptionBelow front = none)
    (later : List (List Char)) (group : Option String) :
    ∃ front', EndsLine front' ∧ descriptionBelow front' = none ∧
      parametersBelow front (unlines (declaration.lines ++ later)) group =
        declaration.parameter group :: parametersBelow front' (unlines later) group := by
  have free := declaration.isSingleLine_statement.1
  have below {front : List Char} (hf : EndsLine front) :
      EndsLine (front ++ (declaration.statement ++ ['\n'])) ∧
        descriptionBelow (front ++ (declaration.statement ++ ['\n'])) = none := by
    refine ⟨endsLine_append hf (endsLine_concat _), ?_⟩
    rw [descriptionBelow_line hf free, declaration.description?_statement]
  cases h : declaration.description with
  | none =>
    have above : descriptionBelow front = declaration.description.map fun phrase =>
        String.ofList phrase.text := by
      rw [undescribed, h]
      rfl
    refine ⟨_, (below hf).1, (below hf).2, ?_⟩
    rw [Declaration.lines, h, ← declaration.parametersBelow_statement hf _ group above,
      ← unlines_cons]
    rfl
  -- The description is passed as a line without a name, and is what the statement finds above it.
  | some phrase =>
    have single : '\n' ∉ lineComment ++ ' ' :: phrase.text := by
      simp [lineComment, phrase.single.1]
    have nameless : ∀ c ∈ (lineComment ++ ' ' :: phrase.text).head?, isNameChar c = false :=
      forall_head?_cons rfl _
    have hd : EndsLine (front ++ (lineComment ++ ' ' :: phrase.text ++ ['\n'])) :=
      endsLine_append hf (endsLine_concat _)
    have above : descriptionBelow (front ++ (lineComment ++ ' ' :: phrase.text ++ ['\n'])) =
        declaration.description.map fun phrase => String.ofList phrase.text := by
      rw [descriptionBelow_line hf single, description?_description, h]
      rfl
    refine ⟨_, (below hd).1, (below hd).2, ?_⟩
    rw [← declaration.parametersBelow_statement hd _ group above,
      ← parametersBelow_nameless single nameless, ← unlines_cons, ← unlines_cons,
      Declaration.lines, h]
    rfl

end Declaration

/-- Declarations one below the other are read as their parameters. -/
theorem parametersBelow_declarations (declarations : List (Declaration keywords))
    {front : List Char} (hf : EndsLine front) (undescribed : descriptionBelow front = none)
    (group : Option String) :
    parametersBelow front (unlines (declarations.flatMap Declaration.lines)) group =
      declarations.map (·.parameter group) := by
  induction declarations generalizing front with
  | nil => exact parametersBelow_nil front group
  | cons declaration declarations ih =>
    obtain ⟨front', hf', undescribed', read⟩ := declaration.parametersBelow_lines hf undescribed
      (declarations.flatMap Declaration.lines) group
    rw [List.flatMap_cons, read, ih hf' undescribed', List.map_cons]

/-! ### Chapters -/

namespace Chapter

lemma headingLabel?_heading (chapter : Chapter keywords) :
    headingLabel? chapter.heading = some chapter.label.text := by
  have blank : ∀ c ∈ [] ++ [' '] ++ [' '] ++ [], isBlank c = true := by simp [isBlank]
  simpa [heading] using headingLabel?_written chapter.label.ne_nil chapter.label.trimmed
    ⟨chapter.no_open, chapter.no_close⟩ blank

lemma isSingleLine_heading (chapter : Chapter keywords) : IsSingleLine chapter.heading := by
  simp [heading, blockOpen, blockClose, bracketOpen, bracketClose, chapter.label.single]

lemma opensDefinition_heading (chapter : Chapter keywords) :
    opensDefinition keywords chapter.heading = false :=
  opensDefinition_of_nameless keywords (forall_head?_cons rfl _)

lemma description?_heading (chapter : Chapter keywords) : description? chapter.heading = none := by
  apply description?_eq_none
  · exact forall_head?_cons rfl _
  · rintro ⟨rest, start⟩
    cases start

/-- The block of lines that a chapter is cut into. -/
def block (chapter : Chapter keywords) : Block :=
  ⟨chapter.label.text, chapter.heading ++ ['\n'],
    (chapter.declarations.flatMap Declaration.lines).map (· ++ ['\n'])⟩

lemma code_block (chapter : Chapter keywords) : chapter.block.code = unlines chapter.lines := by
  rw [unlines, List.flatMap_def]
  rfl

/-- A chapter is read as its parameters. -/
theorem codeParameters_block (chapter : Chapter keywords) :
    codeParameters (some chapter.label.text) chapter.block.code = chapter.parameters := by
  have free := chapter.isSingleLine_heading.1
  have nameless : ∀ c ∈ chapter.heading.head?, isNameChar c = false := forall_head?_cons rfl _
  have whole : EndsLine ([] ++ (chapter.heading ++ ['\n'])) := endsLine_concat _
  have undescribed : descriptionBelow ([] ++ (chapter.heading ++ ['\n'])) = none := by
    rw [descriptionBelow_line endsLine_nil free, chapter.description?_heading]
  rw [code_block, codeParameters_eq_below, Chapter.lines, unlines_cons,
    parametersBelow_nameless free nameless,
    parametersBelow_declarations _ whole undescribed]
  rfl

end Chapter

/-- Lines without a heading stay in front of everything. -/
lemma cut_unheaded {front : List (List Char)}
    (unheaded : ∀ raw ∈ front, headingLabel? (lineContent raw) = none) (raws : List (List Char)) :
    cut (front ++ raws) = (front ++ (cut raws).1, (cut raws).2) := by
  induction front with
  | nil => rfl
  | cons raw front ih =>
    rw [List.cons_append, cut_other (unheaded raw (by simp)),
      ih fun other mem => unheaded other (by simp [mem])]
    rfl

lemma headingLabel?_of_mem_declarations (declarations : List (Declaration keywords)) :
    ∀ raw ∈ (declarations.flatMap Declaration.lines).map (· ++ ['\n']),
      headingLabel? (lineContent raw) = none := by
  intro raw mem
  obtain ⟨line, line_mem, rfl⟩ := List.mem_map.mp mem
  obtain ⟨declaration, -, inside⟩ := List.mem_flatMap.mp line_mem
  rw [lineContent_line (declaration.isSingleLine_of_mem_lines line inside).1]
  exact declaration.headingLabel?_of_mem_lines line inside

lemma cut_declarations (declarations : List (Declaration keywords)) :
    (cut ((declarations.flatMap Declaration.lines).map (· ++ ['\n']))).2 = [] := by
  have h := cut_unheaded (headingLabel?_of_mem_declarations declarations) []
  rw [List.append_nil] at h
  rw [h]
  rfl

lemma cut_chapters (chapters : List (Chapter keywords)) :
    cut ((chapters.flatMap Chapter.lines).map (· ++ ['\n'])) =
      ([], chapters.map Chapter.block) := by
  induction chapters with
  | nil => rfl
  | cons chapter chapters ih =>
    have heading : headingLabel? (lineContent (chapter.heading ++ ['\n'])) =
        some chapter.label.text := by
      rw [lineContent_line chapter.isSingleLine_heading.1, chapter.headingLabel?_heading]
    rw [List.flatMap_cons, List.map_append, Chapter.lines, List.map_cons, List.cons_append,
      cut_heading heading, cut_unheaded (headingLabel?_of_mem_declarations _), ih, List.append_nil]
    rfl

namespace CanonicalScript

/-- What holds of every heading and of every line of a declaration holds of every line. -/
lemma forall_mem_lines (script : CanonicalScript keywords) {motive : List Char → Prop}
    (heading : ∀ chapter : Chapter keywords, motive chapter.heading)
    (inside : ∀ declaration : Declaration keywords, ∀ line ∈ declaration.lines, motive line) :
    ∀ line ∈ script.lines, motive line := by
  intro line mem
  cases script with
  | plain declarations =>
    obtain ⟨declaration, -, mem⟩ := List.mem_flatMap.mp mem
    exact inside declaration line mem
  | chapters first later =>
    obtain ⟨chapter, -, mem⟩ := List.mem_flatMap.mp mem
    rcases List.mem_cons.mp mem with rfl | mem
    · exact heading chapter
    · obtain ⟨declaration, -, mem⟩ := List.mem_flatMap.mp mem
      exact inside declaration line mem

lemma isSingleLine_of_mem_lines (script : CanonicalScript keywords) :
    ∀ line ∈ script.lines, IsSingleLine line :=
  script.forall_mem_lines Chapter.isSingleLine_heading Declaration.isSingleLine_of_mem_lines

lemma rawLines_unlines (script : CanonicalScript keywords) :
    rawLines (unlines script.lines) = script.lines.map (· ++ ['\n']) :=
  Text.rawLines_unlines fun line mem => (script.isSingleLine_of_mem_lines line mem).1

/-- A canonical script is in normal form, and no line of it opens a definition. -/
lemma declared_render (script : CanonicalScript keywords) :
    declared keywords script.render = unlines script.lines := by
  have free : '\r' ∉ unlines script.lines := by
    intro mem
    obtain ⟨line, line_mem, mem⟩ := List.mem_flatMap.mp mem
    rcases List.mem_append.mp mem with inside | feed
    · exact (script.isSingleLine_of_mem_lines line line_mem).2 inside
    · exact absurd feed (by decide)
  have plain : hasDefinition keywords (unlines script.lines) = false := by
    have closed : ∀ line ∈ script.lines, opensDefinition keywords line = false :=
      script.forall_mem_lines Chapter.opensDefinition_heading
        Declaration.opensDefinition_of_mem_lines
    rw [hasDefinition, script.rawLines_unlines, List.any_eq_false]
    intro raw mem
    obtain ⟨line, line_mem, rfl⟩ := List.mem_map.mp mem
    rw [endsDeclarations, lineContent_line (script.isSingleLine_of_mem_lines line line_mem).1,
      closed line line_mem]
    simp
  exact declared_eq_self free plain

lemma declaredParameters_unlines (script : CanonicalScript keywords) :
    declaredParameters (unlines script.lines) = script.parameters := by
  rw [declaredParameters_eq, script.rawLines_unlines]
  cases script with
  | plain declarations =>
    rw [lines, if_pos (cut_declarations declarations), codeParameters_eq_below,
      parametersBelow_declarations declarations endsLine_nil rfl]
    rfl
  | chapters first later =>
    rw [lines, cut_chapters, if_neg (by simp), List.flatMap_map]
    exact List.flatMap_congr fun chapter _ => chapter.codeParameters_block

end CanonicalScript

/-- A canonical script is read back exactly: the last declaration of each name makes a parameter,
and the first one gives it its place. -/
theorem parameters_render (script : CanonicalScript keywords) :
    parameters keywords script.render = lastOfEach script.parameters := by
  rw [parameters_eq, script.declared_render, script.declaredParameters_unlines]

/-- Two chapters under one label. Both declare `w`, and the texts in them look like headings,
comments, statements and definitions. -/
def twoChapters : CanonicalScript .standard :=
  let label : Phrase := ⟨"/* module x */".toList, by decide, by decide +kernel, by decide⟩
  let early : Declaration .standard :=
    { name := ['w']
      ne_nil := by decide
      isNameChar_of_mem := List.all_eq_true.mp rfl
      not_keyword := by decide
      constant := .string "// \"[a]\" */".toList (by decide) (by decide)
      description := some ⟨"/* [B] */ w = 1;".toList, by decide, by decide +kernel, by decide⟩
      annotation := some ⟨"[a:A, b]".toList, by decide⟩ }
  let scale : Declaration .standard :=
    { name := ['$', '2']
      ne_nil := by decide
      isNameChar_of_mem := List.all_eq_true.mp rfl
      not_keyword := by decide
      constant := .number ⟨['1', '2'], by decide⟩ (some ⟨['5'], by decide⟩)
      description := none
      annotation := some ⟨"[0:20]".toList, by decide⟩ }
  let late : Declaration .standard :=
    { early with constant := .boolean true, description := none, annotation := none }
  .chapters ⟨label, by decide, by decide, [early, scale]⟩
    [⟨label, by decide, by decide, [late]⟩]

/-- The second chapter decides what `w` is, and the first one where it stands. -/
theorem parameters_render_two_chapters :
    twoChapters.render =
        "/* [/* module x */] */\n" ++
        "// /* [B] */ w = 1;\n" ++
        "w = \"// \"[a]\" */\"; // [a:A, b]\n" ++
        "$2 = 12.5; // [0:20]\n" ++
        "/* [/* module x */] */\n" ++
        "w = true;\n" ∧
      parameters .standard twoChapters.render =
        [⟨"w", .boolean, .boolean true, none, some "/* module x */", none, none, none⟩,
          ⟨"$2", .number, .number 12.5, none, some "/* module x */",
            some ⟨some 0, some 20, none⟩, none, none⟩] := by
  constructor
  · decide +kernel
  · rw [parameters_render]
    decide +kernel

end ParamPanel.Script
