import Mathlib.Data.List.Basic
import ParamPanel.Text.Cursor
import ParamPanel.Proofs.Text.Lines
import ParamPanel.Proofs.Text.Offset

/-!
# Where cursors stand

`Cursor.between before rest` is the cursor whose position is that of the text it has passed, and
reading keeps it so. `Cursor.behind front` is a cursor moved behind more text: it reads as before,
and only the offsets and lines that it reports grow.
-/

namespace ParamPanel.Text

namespace Position

/-- The place behind a text, which is given nearest character first. -/
def ofBefore (before : List Char) : Position :=
  ⟨byteLength before, before.count '\n', (before.takeWhile (· != '\n')).length⟩

/-- A place moved down by some bytes and lines. -/
def shift (bytes lines : Nat) (position : Position) : Position :=
  ⟨position.byte + bytes, position.line + lines, position.column⟩

lemma past_ofBefore (before : List Char) (c : Char) :
    (ofBefore before).past c = ofBefore (c :: before) := by
  by_cases h : c = '\n'
  · subst h
    simp [past, ofBefore, Nat.add_comm]
  · simp [past, ofBefore, h, Nat.add_comm]

lemma pastAll_ofBefore (before run : List Char) :
    (ofBefore before).pastAll run = ofBefore (run.reverse ++ before) := by
  induction run generalizing before with
  | nil => rfl
  | cons c run ih =>
    rw [pastAll, List.foldl_cons, past_ofBefore, ← pastAll, ih, List.reverse_cons,
      List.append_assoc, List.singleton_append]

lemma past_shift (bytes lines : Nat) (position : Position) (c : Char) :
    (position.shift bytes lines).past c = (position.past c).shift bytes lines := by
  by_cases h : c = '\n'
  · simp only [past, shift, h, if_true]
    congr 1 <;> omega
  · simp only [past, shift, h, if_false]
    congr 1
    omega

lemma pastAll_shift (bytes lines : Nat) (position : Position) (run : List Char) :
    (position.shift bytes lines).pastAll run = (position.pastAll run).shift bytes lines := by
  induction run generalizing position with
  | nil => rfl
  | cons c run ih =>
    rw [pastAll, List.foldl_cons, past_shift, ← pastAll, ih]
    rfl

/-- Behind a text that ends its last line, columns are counted as if that text were not there. -/
lemma ofBefore_append_reverse {front : List Char} (hf : EndsLine front) (before : List Char) :
    ofBefore (before ++ front.reverse) =
      (ofBefore before).shift (byteLength front) (front.count '\n') := by
  have column : ((before ++ front.reverse).takeWhile (· != '\n')).length =
      (before.takeWhile (· != '\n')).length := by
    have stops : front.reverse.takeWhile (· != '\n') = [] := by
      simpa using takeWhile_reverse_append hf List.not_mem_nil
    rw [List.takeWhile_append]
    split
    · rw [stops, List.append_nil]
      rename_i whole
      exact whole.symm
    · rfl
  simp [ofBefore, shift, column]

end Position

namespace Cursor

/-- The cursor between two parts of a text, the first part given nearest character first. -/
def between (before rest : List Char) : Cursor := ⟨before, rest, .ofBefore before⟩

/-- A cursor moved behind more text. -/
def behind (front : List Char) (cursor : Cursor) : Cursor :=
  ⟨cursor.before ++ front.reverse, cursor.rest,
    cursor.position.shift (byteLength front) (front.count '\n')⟩

lemma ofText_eq_between (text : List Char) : ofText text = between [] text := rfl

lemma at?_ofBefore (before rest : List Char) :
    at? (before.reverse ++ rest) (.ofBefore before) = some (between before rest) := by
  have clamped : min (byteLength before) (byteLength (before.reverse ++ rest)) =
      byteLength before.reverse := by
    rw [byteLength_append, byteLength_reverse, Nat.min_eq_left (Nat.le_add_right _ _)]
  rw [at?]
  dsimp only [Position.ofBefore]
  rw [clamped, seek?_append, byteLength_reverse, List.reverse_reverse]
  rfl

@[simp] lemma rest_between (before rest : List Char) : (between before rest).rest = rest := rfl

lemma advance_between (before rest : List Char) (c : Char) :
    (between before (c :: rest)).advance = between (c :: before) rest := by
  rw [advance, between, between, ← Position.past_ofBefore]

lemma dropWhile_between (before rest : List Char) (p : Char → Bool) :
    (between before rest).dropWhile p =
      between ((rest.takeWhile p).reverse ++ before) (rest.dropWhile p) := by
  rw [dropWhile, between, between, takeWhile, ← Position.pastAll_ofBefore]

lemma takeWhile_between_append {p : Char → Bool} {run rest : List Char} (before : List Char)
    (all : ∀ c ∈ run, p c = true) (stops : ∀ c ∈ rest.head?, p c = false) :
    (between before (run ++ rest)).takeWhile p = run := by
  unfold takeWhile
  exact takeWhile_run all stops

/-- A run is passed whole when what follows it does not go on with it. -/
lemma dropWhile_between_append {p : Char → Bool} {run rest : List Char} (before : List Char)
    (all : ∀ c ∈ run, p c = true) (stops : ∀ c ∈ rest.head?, p c = false) :
    (between before (run ++ rest)).dropWhile p = between (run.reverse ++ before) rest := by
  rw [dropWhile_between, takeWhile_run all stops, dropWhile_run all stops]

lemma eat?_between (before rest : List Char) (c : Char) :
    (between before (c :: rest)).eat? c = some (between (c :: before) rest) := by
  have next : (between before (c :: rest)).peek? = some c := rfl
  rw [eat?, if_pos next, advance_between]

lemma skipLine_between {line : List Char} (free : '\n' ∉ line) (before rest : List Char) :
    (between before (line ++ '\n' :: rest)).skipLine =
      between ((line ++ ['\n']).reverse ++ before) rest := by
  have passes := forall_bne_of_not_mem free
  rw [skipLine, dropWhile_between_append before passes (forall_head?_cons rfl rest),
    advance_between, List.reverse_append]
  rfl

lemma skipLine_between_open {line : List Char} (free : '\n' ∉ line) (before : List Char) :
    (between before line).skipLine = between (line.reverse ++ before) [] := by
  have ends : ∀ c ∈ ([] : List Char).head?, (c != '\n') = false := by simp
  have passed := dropWhile_between_append before (forall_bne_of_not_mem free) ends
  rw [List.append_nil] at passed
  rw [skipLine, passed]
  rfl

/-- A cursor on a text stands between two parts of it, at the place behind the first. -/
def IsOn (text : List Char) (cursor : Cursor) : Prop :=
  ∃ before rest, cursor = between before rest ∧ before.reverse ++ rest = text

lemma isOn_ofText (text : List Char) : (ofText text).IsOn text :=
  ⟨[], text, rfl, rfl⟩

lemma IsOn.advance {text : List Char} {cursor : Cursor} (h : cursor.IsOn text) :
    cursor.advance.IsOn text := by
  obtain ⟨before, rest, rfl, rfl⟩ := h
  cases rest with
  | nil => exact ⟨before, [], rfl, rfl⟩
  | cons c rest => exact ⟨c :: before, rest, advance_between before rest c, by simp⟩

lemma IsOn.dropWhile {text : List Char} {cursor : Cursor} (h : cursor.IsOn text)
    (p : Char → Bool) : (cursor.dropWhile p).IsOn text := by
  obtain ⟨before, rest, rfl, rfl⟩ := h
  refine ⟨_, _, dropWhile_between before rest p, ?_⟩
  rw [List.reverse_append, List.reverse_reverse, List.append_assoc,
    List.takeWhile_append_dropWhile]

lemma IsOn.eat? {text : List Char} {cursor next : Cursor} {c : Char} (h : cursor.IsOn text)
    (eaten : cursor.eat? c = some next) : next.IsOn text := by
  unfold Cursor.eat? at eaten
  split at eaten
  · cases eaten
    exact h.advance
  · cases eaten

lemma IsOn.skipLine {text : List Char} {cursor : Cursor} (h : cursor.IsOn text) :
    cursor.skipLine.IsOn text := (h.dropWhile _).advance

/-- Of two cursors on one text, the one with less text left has passed more of it. -/
lemma IsOn.exists_between {before rest : List Char} {next : Cursor}
    (h : next.IsOn (before.reverse ++ rest)) (shorter : next.rest.length ≤ rest.length) :
    ∃ inside after, rest = inside ++ after ∧ next = between (inside.reverse ++ before) after := by
  obtain ⟨before', after, rfl, whole⟩ := h
  rw [eq_comm, List.append_eq_append_iff] at whole
  simp only [rest_between] at shorter
  obtain ⟨inside, passed, rfl⟩ | ⟨inside, passed, rfl⟩ := whole
  · refine ⟨inside, after, rfl, ?_⟩
    rw [← List.reverse_reverse before', passed, List.reverse_append, List.reverse_reverse]
  · have none_left : inside = [] := by
      rw [← List.length_eq_zero_iff]
      simp only [List.length_append] at shorter
      omega
    subst none_left
    rw [List.append_nil, List.reverse_inj] at passed
    subst passed
    exact ⟨[], rest, rfl, rfl⟩

lemma isAtLineStart_between_iff {before rest : List Char} :
    (between before rest).isAtLineStart = true ↔ EndsLine before.reverse := by
  rw [EndsLine, List.getLast?_reverse]
  cases before with
  | nil => simp [between, isAtLineStart]
  | cons c before => simp [between, isAtLineStart]

lemma behind_between {front : List Char} (hf : EndsLine front) (before rest : List Char) :
    (between before rest).behind front = between (before ++ front.reverse) rest := by
  rw [behind, between, between, Position.ofBefore_append_reverse hf]

lemma advance_behind (front : List Char) (cursor : Cursor) :
    (cursor.behind front).advance = cursor.advance.behind front := by
  rcases cursor with ⟨before, _ | ⟨c, rest⟩, position⟩
  · rfl
  · simp only [advance, behind, Position.past_shift, List.cons_append]

lemma dropWhile_behind (front : List Char) (cursor : Cursor) (p : Char → Bool) :
    (cursor.behind front).dropWhile p = (cursor.dropWhile p).behind front := by
  simp only [dropWhile, behind, takeWhile, Position.pastAll_shift, List.append_assoc]

lemma eat?_behind (front : List Char) (cursor : Cursor) (c : Char) :
    (cursor.behind front).eat? c = (cursor.eat? c).map (behind front) := by
  rw [eat?, eat?, advance_behind]
  change (if cursor.peek? = some c then _ else _) = _
  split <;> rfl

lemma skipLine_behind (front : List Char) (cursor : Cursor) :
    (cursor.behind front).skipLine = cursor.skipLine.behind front := by
  rw [skipLine, dropWhile_behind, advance_behind, skipLine]

lemma isAtLineStart_behind {front : List Char} (hf : EndsLine front) (cursor : Cursor) :
    (cursor.behind front).isAtLineStart = cursor.isAtLineStart := by
  rcases cursor with ⟨_ | ⟨c, before⟩, rest, position⟩
  · have ends : ∀ c ∈ front.reverse.head?, c = '\n' := by
      rw [List.head?_reverse]
      exact hf
    simp only [behind, isAtLineStart, List.nil_append]
    cases h : front.reverse with
    | nil => rfl
    | cons c rest =>
      rw [h] at ends
      simpa using ends c rfl
  · rfl

end Cursor

end ParamPanel.Text
