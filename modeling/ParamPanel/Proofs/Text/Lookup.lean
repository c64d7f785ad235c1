import Mathlib.Data.List.Basic
import Mathlib.Data.List.Chain
import ParamPanel.Proofs.Text.Lines
import ParamPanel.Proofs.Text.Offset

/-!
# Lines by offset

A line of a text stands between two parts of it. The lines from front to back are all that stand so,
and the line that is looked up backwards from an offset is the one that ends right in front of it, so
the two agree on every line that has one below it.
-/

namespace ParamPanel.Text

/-! ### Lines from front to back -/

lemma linesFrom_append (offset : Nat) (raws more : List (List Char)) :
    linesFrom offset (raws ++ more) =
      linesFrom offset raws ++ linesFrom (offset + byteLength raws.flatten) more := by
  induction raws generalizing offset with
  | nil => rfl
  | cons raw raws ih => simp [linesFrom, ih, Nat.add_assoc]

lemma start_le_of_mem_linesFrom {offset : Nat} {raws : List (List Char)} {line : Line}
    (mem : line ∈ linesFrom offset raws) : offset ≤ line.span.start := by
  induction raws generalizing offset with
  | nil => cases mem
  | cons raw raws ih =>
    rcases List.mem_cons.mp mem with rfl | later
    · exact Nat.le_refl _
    · exact (Nat.le_add_right _ _).trans (ih later)

lemma start_le_stop_of_mem_linesFrom {offset : Nat} {raws : List (List Char)} {line : Line}
    (mem : line ∈ linesFrom offset raws) : line.span.start ≤ line.span.stop := by
  induction raws generalizing offset with
  | nil => cases mem
  | cons raw raws ih =>
    rcases List.mem_cons.mp mem with rfl | later
    · exact Nat.le_add_right _ _
    · exact ih later

/-- A line that is closed stops in front of its line feed. -/
lemma stop_lt_of_mem_linesFrom {text : List Char} (h : EndsLine text) {offset : Nat} {line : Line}
    (mem : line ∈ linesFrom offset (rawLines text)) :
    line.span.stop < offset + byteLength text := by
  have feed : '\n'.utf8Size = 1 := rfl
  induction text using lineInduction generalizing offset with
  | nil => cases mem
  | last content ne free => exact absurd h (not_endsLine ne free)
  | cons content rest free ih =>
    rw [rawLines_line free, linesFrom, lineContent_line free] at mem
    simp only [byteLength_append, byteLength_cons, byteLength_nil, feed] at mem ⊢
    rcases List.mem_cons.mp mem with rfl | later
    · dsimp only
      omega
    · have := ih h.of_line later
      omega

lemma lines_append {front : List Char} (hf : EndsLine front) (text : List Char) :
    lines (front ++ text) = lines front ++ linesFrom (byteLength front) (rawLines text) := by
  rw [lines, rawLines_append hf, linesFrom_append, flatten_rawLines, Nat.zero_add]
  rfl

/-- A line stands between two parts of a text: it starts where a line starts, it breaks no line, and
only a line feed comes right behind it. -/
structure Line.Stands (line : Line) (front post : List Char) : Prop where
  endsLine : EndsLine front
  free : '\n' ∉ line.text
  stops : ∀ c ∈ post.head?, c = '\n'
  span_eq : line.span = ⟨byteLength front, byteLength front + byteLength line.text⟩

lemma exists_stands_of_mem_linesFrom {front text : List Char} (hf : EndsLine front) {line : Line}
    (mem : line ∈ linesFrom (byteLength front) (rawLines text)) :
    ∃ above post, above ++ line.text ++ post = front ++ text ∧ line.Stands above post := by
  -- The front takes in the lines that are passed, and the whole never changes.
  induction text using lineInduction generalizing front with
  | nil => cases mem
  | last content ne free =>
    rw [rawLines_open ne free, linesFrom, linesFrom, List.mem_singleton, lineContent_open free]
      at mem
    subst mem
    exact ⟨front, [], by simp, hf, free, by simp, rfl⟩
  | cons content rest free ih =>
    rw [rawLines_line free, linesFrom, lineContent_line free] at mem
    rcases List.mem_cons.mp mem with rfl | later
    · exact ⟨front, '\n' :: rest, by simp, hf, free, by simp, rfl⟩
    · rw [← byteLength_append] at later
      obtain ⟨above, post, whole, stands⟩ := ih (endsLine_append hf (endsLine_concat content)) later
      exact ⟨above, post, by simp [whole], stands⟩

lemma exists_stands_of_mem_lines {text : List Char} {line : Line} (mem : line ∈ lines text) :
    ∃ front post, front ++ line.text ++ post = text ∧ line.Stands front post :=
  exists_stands_of_mem_linesFrom endsLine_nil mem

/-- What stands between two parts of a text with a line feed behind it is one of its lines. -/
lemma mem_lines_append {front content : List Char} (ends : EndsLine front) (free : '\n' ∉ content)
    (rest : List Char) :
    ⟨⟨byteLength front, byteLength front + byteLength content⟩, content⟩ ∈
      lines (front ++ content ++ '\n' :: rest) := by
  rw [List.append_assoc, lines_append ends, rawLines_line free, linesFrom, lineContent_line free]
  exact List.mem_append_right _ List.mem_cons_self

lemma start_eq_of_mem_head?_linesFrom {offset : Nat} {raws : List (List Char)} {line : Line}
    (first : line ∈ (linesFrom offset raws).head?) : line.span.start = offset := by
  cases raws with
  | nil => cases first
  | cons raw raws =>
    cases first
    rfl

/-- Each line starts one byte behind where the line above it stops. -/
lemma isChain_linesFrom (offset : Nat) (text : List Char) :
    (linesFrom offset (rawLines text)).IsChain fun line next =>
      next.span.start = line.span.stop + 1 := by
  induction text using lineInduction generalizing offset with
  | nil => exact .nil
  | last content ne free =>
    rw [rawLines_open ne free]
    exact .singleton _
  | cons content rest free ih =>
    have feed : '\n'.utf8Size = 1 := rfl
    rw [rawLines_line free, linesFrom, lineContent_line free, List.isChain_cons]
    refine ⟨fun next first => ?_, ih _⟩
    rw [start_eq_of_mem_head?_linesFrom first, byteLength_append, byteLength_cons, feed]
    rfl

/-- Lines with a line feed between neighbours give the text back, but for one at its end. -/
lemma intercalate_lines (text : List Char) :
    ['\n'].intercalate ((lines text).map Line.text) ++
      (if text.getLast? = some '\n' then ['\n'] else []) = text := by
  rw [map_text_lines]
  induction text using lineInduction with
  | nil => rfl
  | last content ne free =>
    have open_ended : content.getLast? ≠ some '\n' :=
      fun last => free (List.mem_of_getLast? last)
    rw [rawLines_open ne free, if_neg open_ended, List.append_nil, List.map_singleton,
      lineContent_open free]
    exact List.intercalate_singleton
  | cons content rest free ih =>
    rw [rawLines_line free, List.map_cons, lineContent_line free]
    by_cases last : rest = []
    · subst last
      simp [rawLines]
    · have more : (rawLines rest).map lineContent ≠ [] := by
        intro none_left
        apply last
        rw [← flatten_rawLines rest, List.map_eq_nil_iff.mp none_left]
        rfl
      have step : content ++ '\n' :: rest = content ++ ['\n'] ++ rest := by simp
      rw [List.intercalate_cons_of_ne_nil more, step, List.getLast?_append_of_ne_nil _ last,
        List.append_assoc, ih]

/-! ### One line from behind -/

/-- The line in front of an offset is the one that ends with a line feed right there. -/
lemma precedingLine?_eq_some_iff {text content : List Char} {offset : Nat} :
    precedingLine? text offset = some content ↔ ∃ front rest,
      front ++ content ++ '\n' :: rest = text ∧ EndsLine front ∧ '\n' ∉ content ∧
        byteLength front + byteLength content + 1 = offset := by
  have feed : '\n'.utf8Size = 1 := rfl
  constructor
  · intro found
    rw [precedingLine?] at found
    split at found
    · rename_i before rest parted
      obtain ⟨whole, offset_eq⟩ := seek?_eq_some_iff.mp parted
      -- In front of the line feed stand lines that end and the one that it ends.
      obtain ⟨front, last, split_eq, ends, free⟩ := exists_open_line before.reverse
      have before_eq : before = (front ++ last).reverse := by
        rw [split_eq, List.reverse_reverse]
      subst before_eq
      rw [takeWhile_reverse_append ends free, List.reverse_reverse, Option.some.injEq] at found
      subst found
      refine ⟨front, rest, by simp [whole], ends, free, ?_⟩
      rw [← offset_eq, byteLength_cons, feed, byteLength_reverse, byteLength_append, Nat.add_comm]
    · cases found
  · rintro ⟨front, rest, rfl, ends, free, rfl⟩
    have parted : seek? (front ++ content ++ '\n' :: rest)
        (byteLength front + byteLength content + 1) =
        some ('\n' :: (front ++ content).reverse, rest) := by
      rw [seek?_eq_some_iff]
      refine ⟨by simp, ?_⟩
      rw [byteLength_cons, feed, byteLength_reverse, byteLength_append, Nat.add_comm]
    simp only [precedingLine?, parted]
    rw [takeWhile_reverse_append ends free, List.reverse_reverse]

/-- What stops before its text does has a line feed behind it. -/
lemma Line.Stands.exists_feed {line : Line} {front post : List Char} (h : line.Stands front post)
    (short : line.span.stop < byteLength (front ++ line.text ++ post)) :
    ∃ rest, post = '\n' :: rest := by
  cases post with
  | nil =>
    rw [h.span_eq, List.append_nil, byteLength_append] at short
    exact absurd short (Nat.lt_irrefl _)
  | cons c rest =>
    cases h.stops c rfl
    exact ⟨rest, rfl⟩

/-- The line that is looked up from an offset is the line of the text that stops one byte before it,
if the text goes on as far as that. -/
lemma precedingLine?_eq_some_iff_mem {text content : List Char} {offset : Nat} :
    precedingLine? text offset = some content ↔
      ∃ line ∈ lines text,
        line.span.stop + 1 = offset ∧ offset ≤ byteLength text ∧ line.text = content := by
  have feed : '\n'.utf8Size = 1 := rfl
  rw [precedingLine?_eq_some_iff]
  constructor
  · rintro ⟨front, rest, rfl, ends, free, rfl⟩
    refine ⟨_, mem_lines_append ends free rest, rfl, ?_, rfl⟩
    simp only [byteLength_append, byteLength_cons, feed]
    omega
  · rintro ⟨line, mem, rfl, short, rfl⟩
    obtain ⟨front, post, rfl, stands⟩ := exists_stands_of_mem_lines mem
    obtain ⟨rest, rfl⟩ := stands.exists_feed short
    refine ⟨front, rest, rfl, stands.endsLine, stands.free, ?_⟩
    rw [stands.span_eq]

lemma isSome_precedingLine?_iff {text : List Char} {offset : Nat} :
    (precedingLine? text offset).isSome = true ↔
      offset ≤ byteLength text ∧ 0 < offset ∧
        Span.slice? ⟨offset - 1, offset⟩ text = some ['\n'] := by
  have feed : byteLength ['\n'] = 1 := rfl
  simp only [Option.isSome_iff_exists, precedingLine?_eq_some_iff, Span.slice?_eq_some_iff, feed]
  constructor
  · rintro ⟨content, front, rest, rfl, -, -, rfl⟩
    refine ⟨?_, by omega, front ++ content, rest, by simp, by simp, by simp⟩
    have wide : '\n'.utf8Size = 1 := rfl
    simp only [byteLength_append, byteLength_cons, wide]
    omega
  · rintro ⟨-, inside, before, rest, rfl, start_eq, -⟩
    obtain ⟨front, content, rfl, ends, free⟩ := exists_open_line before
    refine ⟨content, front, rest, by simp, ends, free, ?_⟩
    rw [byteLength_append] at start_eq
    omega

/-- From behind lines that end, the last of them is looked up. -/
lemma precedingLine?_append {front : List Char} (ends : EndsLine front) (rest : List Char) :
    precedingLine? (front ++ rest) (byteLength front) = (lines front).getLast?.map Line.text := by
  rcases List.eq_nil_or_concat front with rfl | ⟨closed, c, rfl⟩
  · cases rest <;> rfl
  · rw [List.concat_eq_append] at ends ⊢
    obtain rfl : c = '\n' := ends c List.getLast?_concat
    obtain ⟨above, content, rfl, above_ends, free⟩ := exists_open_line closed
    have last : precedingLine? (above ++ content ++ ['\n'] ++ rest)
        (byteLength (above ++ content ++ ['\n'])) = some content := by
      rw [precedingLine?_eq_some_iff]
      refine ⟨above, rest, by simp, above_ends, free, ?_⟩
      rw [byteLength_append, byteLength_append]
      rfl
    rw [last, List.append_assoc, lines_append above_ends, rawLines_line free []]
    simp [rawLines, linesFrom, lineContent_line free]

/-! ### Both ways -/

/-- Lines that make up a text: each is the slice in its span, the first stands at the start, one line
feed stands between each and the next, and so they give the text back when they are joined. -/
structure AreLinesOf (text : List Char) (found : List Line) : Prop where
  free : ∀ line ∈ found, '\n' ∉ line.text
  slice_eq : ∀ line ∈ found, line.span.slice text = line.text
  slice?_eq : ∀ line ∈ found, line.span.slice? text = some line.text
  start_eq : ∀ line ∈ found.head?, line.span.start = 0
  separated : ∀ i (_ : i + 1 < found.length),
    Span.slice? ⟨found[i].span.stop, found[i + 1].span.start⟩ text = some ['\n']
  joined : ['\n'].intercalate (found.map Line.text) ++
    (if text.getLast? = some '\n' then ['\n'] else []) = text

lemma slice?_of_mem_lines {text : List Char} {line : Line} (mem : line ∈ lines text) :
    line.span.slice? text = some line.text := by
  obtain ⟨front, post, rfl, stands⟩ := exists_stands_of_mem_lines mem
  rw [stands.span_eq]
  exact Span.slice?_append front line.text post

lemma slice?_feed_of_mem_lines {text : List Char} {line : Line} (mem : line ∈ lines text)
    (short : line.span.stop < byteLength text) :
    Span.slice? ⟨line.span.stop, line.span.stop + 1⟩ text = some ['\n'] := by
  obtain ⟨front, post, rfl, stands⟩ := exists_stands_of_mem_lines mem
  obtain ⟨rest, rfl⟩ := stands.exists_feed short
  rw [Span.slice?_eq_some_iff, stands.span_eq]
  refine ⟨front ++ line.text, rest, by simp, byteLength_append front line.text, ?_⟩
  rw [byteLength_append]
  rfl

/-- A line that is not the last stops one byte before the next one starts. -/
lemma stop_of_lines {text : List Char} {i : Nat} (h : i + 1 < (lines text).length) :
    (lines text)[i + 1].span.start = (lines text)[i].span.stop + 1 ∧
      (lines text)[i].span.stop < byteLength text := by
  have next : (lines text)[i + 1].span.start = (lines text)[i].span.stop + 1 :=
    List.isChain_iff_getElem.mp (isChain_linesFrom 0 text) i h
  obtain ⟨front, post, whole, start_eq, -⟩ :=
    Span.slice?_eq_some_iff.mp (slice?_of_mem_lines (List.getElem_mem h))
  have inside := congrArg byteLength whole
  rw [byteLength_append, byteLength_append] at inside
  exact ⟨next, by omega⟩

lemma areLinesOf_lines (text : List Char) : AreLinesOf text (lines text) := by
  refine ⟨?_, ?_, fun line => slice?_of_mem_lines,
    fun line first => start_eq_of_mem_head?_linesFrom first, ?_, intercalate_lines text⟩
  · intro line mem
    obtain ⟨front, post, -, stands⟩ := exists_stands_of_mem_lines mem
    exact stands.free
  · intro line mem
    rw [Span.slice_eq_getD_slice?, slice?_of_mem_lines mem]
    rfl
  · intro i h
    obtain ⟨next, short⟩ := stop_of_lines h
    rw [next]
    exact slice?_feed_of_mem_lines (List.getElem_mem (Nat.lt_of_succ_lt h)) short

/-- The lines of a text make it up. From the start of each line but the first the line above it is
looked up. From any offset at all a line is found if and only if a line feed stands right in front of
that offset, and it is the line of the text that stops there. -/
theorem lines_agree (text : List Char) :
    AreLinesOf text (lines text) ∧
    (∀ i (_ : i + 1 < (lines text).length),
      precedingLine? text (lines text)[i + 1].span.start = some (lines text)[i].text) ∧
    ∀ offset,
      ((precedingLine? text offset).isSome = true ↔ offset ≤ byteLength text ∧ 0 < offset ∧
        Span.slice? ⟨offset - 1, offset⟩ text = some ['\n']) ∧
      ∀ content, precedingLine? text offset = some content ↔
        ∃ line ∈ lines text,
          line.span.stop + 1 = offset ∧ offset ≤ byteLength text ∧ line.text = content := by
  refine ⟨areLinesOf_lines text, ?_,
    fun offset => ⟨isSome_precedingLine?_iff, fun content => precedingLine?_eq_some_iff_mem⟩⟩
  intro i h
  obtain ⟨next, short⟩ := stop_of_lines h
  rw [next, precedingLine?_eq_some_iff_mem]
  exact ⟨_, List.getElem_mem (Nat.lt_of_succ_lt h), rfl, short, rfl⟩

/-- A blank line is looked up from the line below it, and nothing from inside the accent above. -/
theorem blank_line_below_accent :
    let text := "// é\n\nx = 1;".toList
    1 + 1 < (lines text).length ∧ precedingLine? text 7 = some [] ∧ precedingLine? text 4 = none := by
  intro text
  have long : 1 + 1 < (lines text).length := by decide
  obtain ⟨-, above, found⟩ := lines_agree text
  have blank : precedingLine? text 7 = some [] := above 1 long
  refine ⟨long, blank, ?_⟩
  rw [← Option.not_isSome_iff_eq_none, (found 4).1]
  decide

end ParamPanel.Text
