import ParamPanel.Proofs.Script.Block

/-!
# Scans of a range

A scan of a range reads the text up to where the range stops, from where it starts, and what it finds
stands in between. A range that stops inside a character lets it read on to the end of the text.
-/

namespace ParamPanel.Text

namespace Span

/-- The text up to where a range stops; all of the text when it cannot be parted there. -/
def reach (span : Span) (text : List Char) : List Char :=
  match seek? text span.stop with
  | some (before, _) => before.reverse
  | none => text

variable {span : Span} {text : List Char}

lemma reach_append {front : List Char} (stops : byteLength front = span.stop) (post : List Char) :
    span.reach (front ++ post) = front := by
  rw [reach, ← stops, seek?_append]
  exact List.reverse_reverse front

lemma reach_of_not_isBoundary (inside : ¬ IsBoundary text span.stop) : span.reach text = text := by
  rw [reach, seek?_eq_none_iff.mpr inside]

lemma exists_reach_append (span : Span) (text : List Char) : ∃ post, span.reach text ++ post = text := by
  by_cases stops : IsBoundary text span.stop
  · obtain ⟨front, post, rfl, stop_eq⟩ := stops
    exact ⟨post, by rw [reach_append stop_eq]⟩
  · exact ⟨[], by rw [reach_of_not_isBoundary stops, List.append_nil]⟩

end Span

end ParamPanel.Text

namespace ParamPanel.Script

open Text

/-- A scan of a range stands where the range starts, with what the range lets it read behind it. -/
theorem spanCursor?_eq (text : List Char) (span : Span) :
    spanCursor? text span = (seek? (span.reach text) span.start).map fun place =>
      .between place.1 place.2 := by
  by_cases stops : IsBoundary text span.stop
  · obtain ⟨front, post, rfl, stop_eq⟩ := stops
    rw [Span.reach_append stop_eq]
    by_cases starts : IsBoundary front span.start
    · obtain ⟨before, inside, rfl, start_eq⟩ := starts
      have parted : span = ⟨byteLength before, byteLength before + byteLength inside⟩ := by
        rw [← byteLength_append, start_eq, stop_eq]
      rw [parted, spanCursor?_append, seek?_append]
      rfl
    · rw [seek?_eq_none_iff.mpr starts, spanCursor?]
      cases found : seek? (front ++ post) span.start with
      | none => rfl
      | some place =>
        obtain ⟨whole, start_eq⟩ := seek?_eq_some_iff.mp found
        have reversed : ¬ span.start ≤ span.stop := by
          intro ordered
          rw [← start_eq, ← stop_eq, ← byteLength_reverse place.1] at ordered
          obtain ⟨inside, rfl, -⟩ := exists_append_of_byteLength_le whole.symm ordered
          exact starts ⟨_, inside, rfl, by rw [byteLength_reverse, start_eq]⟩
        have good : (seek? (front ++ post) span.stop).isSome = true :=
          isBoundary_iff.mp ⟨front, post, rfl, stop_eq⟩
        dsimp only
        rw [if_neg reversed, if_pos good]
        rfl
  · rw [Span.reach_of_not_isBoundary stops, spanCursor?]
    cases found : seek? text span.start with
    | none => rfl
    | some place =>
      obtain ⟨rfl, start_eq⟩ := seek?_eq_some_iff.mp found
      have place_eq : Cursor.between place.1 place.2 = ⟨place.1, place.2,
          ⟨span.start, place.1.count '\n', (place.1.takeWhile (· != '\n')).length⟩⟩ := by
        rw [← start_eq]
        rfl
      dsimp only [Option.map_some]
      rw [place_eq]
      split
      · rename_i ordered
        have open_ended : seek? place.2 span.length = none := by
          rw [seek?_eq_none_iff]
          rintro ⟨inside, post, rest_eq, length_eq⟩
          refine stops ⟨place.1.reverse ++ inside, post, by rw [List.append_assoc, rest_eq], ?_⟩
          rw [byteLength_append, byteLength_reverse, start_eq, length_eq, Span.length]
          omega
        rw [open_ended]
      · rw [if_neg (mt isBoundary_iff.mpr stops)]

/-! ### A part of a text as a text of its own -/

/-- What is found in a part of a text that starts with a line depends on that part only, but for its
place: offsets grow by the bytes in front of the part, and lines by the lines in front of it. -/
theorem findings_in_part {front : List Char} (h : EndsLine front) (code post : List Char) :
    let part : Span := ⟨byteLength front, byteLength front + byteLength code⟩
    let whole : Span := ⟨0, byteLength code⟩
    findings (front ++ code ++ post) part = (findings code whole).map (Finding.behind front) ∧
      assignments (front ++ code ++ post) part = (assignments code whole).map fun found =>
        { found with
          span := ⟨found.span.start + byteLength front, found.span.stop + byteLength front⟩
          line := found.line + front.count '\n' } := by
  intro part whole
  have moved : findings (front ++ code ++ post) part =
      (findings code whole).map (Finding.behind front) := by
    rw [findings_append h, findings_whole]
  refine ⟨moved, ?_⟩
  rw [assignments, moved, filterMap_behind]
  rfl

/-- Below a line with an accent, a part that stops in the middle of a comment. -/
theorem findings_in_part_below_accent :
    let front := "/* é */\n".toList
    let code := "size = 4; // [1".toList
    EndsLine front ∧
      assignments (front ++ code ++ ":9]\n".toList)
          ⟨byteLength front, byteLength front + byteLength code⟩ =
        [⟨"size".toList, ['4'], some "// [1".toList, ⟨9, 24⟩, 1⟩] := by
  intro front code
  have ends : EndsLine front := endsLine_concat "/* é */".toList
  obtain ⟨-, moved⟩ := findings_in_part ends code ":9]\n".toList
  refine ⟨ends, ?_⟩
  rw [moved]
  decide +kernel

/-! ### Where the findings of a range stand -/

/-- What is found in a range stands in the text that the range lets a scan read, behind its start. -/
lemma exists_stands_of_mem_assignments {text : List Char} {span : Span} {found : Assignment}
    (mem : found ∈ assignments text span) :
    ∃ front inside after, front ++ inside ++ after = span.reach text ∧
      span.start ≤ byteLength front ∧ found.Stands front inside := by
  rw [assignments, findings, spanCursor?_eq] at mem
  cases place : seek? (span.reach text) span.start with
  | none =>
    rw [place] at mem
    cases mem
  | some parts =>
    obtain ⟨whole, start_eq⟩ := seek?_eq_some_iff.mp place
    rw [place] at mem
    obtain ⟨passed, inside, after, rest_eq, stands⟩ :=
      stands_of_mem_scan (mem_filterMap_assignment?_iff.mp mem)
    refine ⟨_, inside, after, ?_, ?_, stands⟩
    · rw [whole, ← rest_eq, List.append_assoc, List.append_assoc, List.append_assoc]
    · rw [byteLength_append, byteLength_reverse, start_eq]
      exact Nat.le_add_right _ _

/-- Every range can be scanned: a scan starts where the range does when the text that it may read can
be parted there, and finds nothing otherwise. All that it finds stands in the range, between two
boundaries of the text, unless the range stops inside a character: then it reads on to the end. -/
theorem assignments_in_range (text : List Char) (span : Span) :
    (∀ front rest, front ++ rest = span.reach text → byteLength front = span.start →
      ∃ cursor, Cursor.at? (span.reach text) (.ofBefore front.reverse) = some cursor ∧
        findings text span = scan cursor) ∧
    (¬ IsBoundary (span.reach text) span.start → findings text span = []) ∧
    (¬ IsBoundary text span.stop →
      findings text span = findings text ⟨span.start, byteLength text⟩) ∧
    ∀ found ∈ assignments text span,
      IsBoundary text found.span.start ∧ IsBoundary text found.span.stop ∧
      span.start ≤ found.span.start ∧ found.span.start < found.span.stop ∧
      (found.span.stop ≤ span.stop ∨ span.stop < byteLength text ∧ ¬ IsBoundary text span.stop) := by
  refine ⟨?_, ?_, ?_, ?_⟩
  · intro front rest whole start_eq
    have cursor_eq := Cursor.at?_ofBefore front.reverse rest
    rw [List.reverse_reverse, whole] at cursor_eq
    refine ⟨_, cursor_eq, ?_⟩
    rw [findings, spanCursor?_eq, ← whole, ← start_eq, seek?_append]
    rfl
  · intro outside
    rw [findings, spanCursor?_eq, seek?_eq_none_iff.mpr outside]
    rfl
  · intro inside
    have all : Span.reach ⟨span.start, byteLength text⟩ (text ++ []) = text :=
      Span.reach_append rfl []
    rw [List.append_nil] at all
    rw [findings, findings, spanCursor?_eq, spanCursor?_eq, all,
      Span.reach_of_not_isBoundary inside]
  · intro found mem
    obtain ⟨front, inside, after, reach_eq, behind_start, stands⟩ :=
      exists_stands_of_mem_assignments mem
    obtain ⟨post, whole⟩ := span.exists_reach_append text
    have filled : 0 < byteLength inside := by
      rw [Nat.pos_iff_ne_zero, Ne, byteLength_eq_zero_iff]
      exact stands.nonempty
    rw [← whole, ← reach_eq, stands.span_eq]
    refine ⟨⟨front, inside ++ after ++ post, by simp, rfl⟩,
      ⟨front ++ inside, after ++ post, by simp, byteLength_append _ _⟩, behind_start, ?_, ?_⟩
    · dsimp only
      omega
    · rw [reach_eq, whole]
      have read : byteLength front + byteLength inside ≤ byteLength (span.reach text) := by
        rw [← reach_eq]
        simp
      by_cases stops : IsBoundary text span.stop
      · obtain ⟨reached, post, rfl, stop_eq⟩ := stops
        rw [Span.reach_append stop_eq, stop_eq] at read
        exact .inl read
      · rw [Span.reach_of_not_isBoundary stops] at read
        by_cases past : byteLength text ≤ span.stop
        · exact .inl (read.trans past)
        · exact .inr ⟨Nat.lt_of_not_le past, stops⟩

/-- A range that stops between two characters, behind an accent. -/
theorem assignment_in_range_below_accent :
    let text := "// é\nwidth = 10; // mm\n".toList
    ∃ found ∈ assignments text ⟨6, 17⟩, IsBoundary text found.span.stop ∧
      6 ≤ found.span.start ∧ found.span.start < found.span.stop ∧ found.span.stop ≤ 17 := by
  intro text
  have mem : ⟨"width".toList, "10".toList, none, ⟨6, 17⟩, 1⟩ ∈ assignments text ⟨6, 17⟩ := by
    decide +kernel
  obtain ⟨-, stop, behind_start, filled, before_stop | ⟨-, crossed⟩⟩ :=
    (assignments_in_range text ⟨6, 17⟩).2.2.2 _ mem
  · exact ⟨_, mem, stop, behind_start, filled, before_stop⟩
  · exact absurd (isBoundary_iff.mpr (by decide +kernel)) crossed

/-- A range that stops inside the accent does not hold the semicolon, and it is read all the same. -/
theorem assignment_past_range :
    let text := "a = \"é\";".toList
    ∃ found ∈ assignments text ⟨0, 6⟩, 6 < found.span.stop := by
  intro text
  have mem : ⟨['a'], ['"', 'é', '"'], none, ⟨0, 9⟩, 0⟩ ∈ assignments text ⟨0, 6⟩ := by
    decide +kernel
  exact ⟨_, mem, by decide⟩

end ParamPanel.Script
