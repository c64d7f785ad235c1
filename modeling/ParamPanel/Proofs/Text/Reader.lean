import Mathlib.Data.List.Basic
import Mathlib.Data.List.Induction
import ParamPanel.Proofs.Text.Cursor

/-!
# Reading with cursors

A reader moves a cursor over a text, keeps clones of it and goes back to them. Wherever it gets, the
place of its cursor counts the text in front of it in bytes, in lines and in columns. So the place
alone is enough: a move that cuts the text at offsets whenever it looks at it finds a boundary at
each of them, and it passes the same text.
-/

namespace ParamPanel.Text

/-! ### Places in a text -/

namespace Position

/-- The place that a text leads to: its bytes, its line feeds, and its characters behind the last of
those. -/
structure IsBehind (front : List Char) (position : Position) : Prop where
  byte_eq : position.byte = byteLength front
  line_eq : position.line = front.count '\n'
  column_eq : ∃ above last, above ++ last = front ∧ EndsLine above ∧ '\n' ∉ last ∧
    position.column = last.length

/-- A place in a text: one that the text in front of it leads to. -/
def IsIn (text : List Char) (position : Position) : Prop :=
  ∃ front rest, front ++ rest = text ∧ position.IsBehind front

lemma isBehind_iff {front : List Char} {position : Position} :
    position.IsBehind front ↔ position = ofBefore front.reverse := by
  constructor
  · rintro ⟨byte_eq, line_eq, above, last, rfl, ends, free, column_eq⟩
    rw [ofBefore, byteLength_reverse, List.count_reverse, takeWhile_reverse_append ends free,
      List.length_reverse, ← byte_eq, ← line_eq, ← column_eq]
  · rintro rfl
    obtain ⟨above, last, rfl, ends, free⟩ := exists_open_line front
    refine ⟨byteLength_reverse _, List.count_reverse, above, last, rfl, ends, free, ?_⟩
    rw [ofBefore, takeWhile_reverse_append ends free, List.length_reverse]

/-! ### Reading by offset

These look at a text only by slices of it, and have no answer where there is no such slice. -/

/-- The text from a place on. -/
def ahead? (text : List Char) (position : Position) : Option (List Char) :=
  Span.slice? ⟨position.byte, byteLength text⟩ text

/-- Whether a line starts at a place. -/
def isLineStart? (text : List Char) (position : Position) : Option Bool :=
  if position.byte = 0 then some true
  else do
    let front ← Span.slice? ⟨0, position.byte⟩ text
    return front.getLast? == some '\n'

/-- The next character, if there is one, and the place behind it. -/
def advance? (text : List Char) (position : Position) : Option (List Char × Position) := do
  match ← position.ahead? text with
  | [] => return ([], position)
  | c :: _ => return ([c], position.past c)

/-- The next character if it is `c`, and the place behind it. -/
def eat? (text : List Char) (c : Char) (position : Position) :
    Option (List Char × Position) := do
  if (← position.ahead? text).head? = some c then position.advance? text
  else return ([], position)

lemma byte_lt_of_ahead? {text rest : List Char} {position : Position} {c : Char}
    (look : position.ahead? text = some (c :: rest)) : position.byte < byteLength text := by
  obtain ⟨front, post, -, start_eq, stop_eq⟩ := Span.slice?_eq_some_iff.mp look
  have wide := Char.utf8Size_pos c
  rw [byteLength_cons] at stop_eq
  dsimp only at start_eq stop_eq
  omega

/-- The place behind the characters from here on that satisfy `p`, each looked at in its turn. -/
def pastWhile? (text : List Char) (p : Char → Bool) (position : Position) : Option Position :=
  match look : position.ahead? text with
  | none => none
  | some [] => some position
  | some (c :: _) =>
    have := byte_lt_of_ahead? look
    if p c then (position.past c).pastWhile? text p else some position
termination_by byteLength text - position.byte
decreasing_by
  have wide := Char.utf8Size_pos c
  have step : (position.past c).byte = position.byte + c.utf8Size := by
    unfold past
    split <;> rfl
  omega

lemma pastWhile?_of_ahead? {text rest : List Char} {position : Position} (p : Char → Bool)
    (look : position.ahead? text = some rest) :
    position.pastWhile? text p = match rest with
      | [] => some position
      | c :: _ => if p c then (position.past c).pastWhile? text p else some position := by
  rw [pastWhile?]
  split <;> rename_i found <;> rw [look] at found <;> cases found <;> rfl

/-- The characters from here on that satisfy `p`, and the place behind them. -/
def advanceWhile? (text : List Char) (p : Char → Bool) (position : Position) :
    Option (List Char × Position) := do
  let stop ← position.pastWhile? text p
  let run ← Span.slice? ⟨position.byte, stop.byte⟩ text
  return (run, stop)

/-- The rest of the line with its line feed, and the place behind it. -/
def skipLine? (text : List Char) (position : Position) : Option (List Char × Position) := do
  let (line, stop) ← position.advanceWhile? text (· != '\n')
  let (feed, next) ← stop.advance? text
  return (line ++ feed, next)

variable (before rest : List Char)

lemma slice?_ofBefore (inside : List Char) :
    Span.slice? ⟨(ofBefore before).byte, (ofBefore (inside.reverse ++ before)).byte⟩
      (before.reverse ++ (inside ++ rest)) = some inside := by
  rw [Span.slice?_eq_some_iff]
  refine ⟨before.reverse, rest, List.append_assoc _ _ _, byteLength_reverse before, ?_⟩
  simp [ofBefore, Nat.add_comm]

lemma ahead?_ofBefore : (ofBefore before).ahead? (before.reverse ++ rest) = some rest := by
  rw [ahead?, Span.slice?_eq_some_iff]
  refine ⟨before.reverse, [], List.append_nil _, byteLength_reverse before, ?_⟩
  rw [byteLength_append]

lemma isLineStart?_ofBefore :
    (ofBefore before).isLineStart? (before.reverse ++ rest) =
      some (Cursor.between before rest).isAtLineStart := by
  cases before with
  | nil => rfl
  | cons c before =>
    have wide := Char.utf8Size_pos c
    have inside : (ofBefore (c :: before)).byte ≠ 0 := by
      simp only [ofBefore, byteLength_cons]
      omega
    have front : Span.slice? ⟨0, (ofBefore (c :: before)).byte⟩ ((c :: before).reverse ++ rest) =
        some (c :: before).reverse := by
      rw [Span.slice?_eq_some_iff]
      refine ⟨[], rest, rfl, rfl, ?_⟩
      rw [byteLength_reverse, byteLength_nil, Nat.zero_add]
      rfl
    rw [isLineStart?, if_neg inside, front]
    simp [Cursor.isAtLineStart, Cursor.between]

lemma advance?_ofBefore :
    (ofBefore before).advance? (before.reverse ++ rest) =
      some (rest.head?.toList, (Cursor.between before rest).advance.position) := by
  rw [advance?, ahead?_ofBefore]
  cases rest <;> rfl

lemma pastWhile?_ofBefore (p : Char → Bool) :
    (ofBefore before).pastWhile? (before.reverse ++ rest) p =
      some (ofBefore ((rest.takeWhile p).reverse ++ before)) := by
  -- A character that is passed goes over to the front, and the whole text never changes.
  induction rest generalizing before with
  | nil =>
    rw [pastWhile?_of_ahead? p (ahead?_ofBefore before [])]
    rfl
  | cons c rest ih =>
    have text_eq : before.reverse ++ c :: rest = (c :: before).reverse ++ rest := by simp
    rw [pastWhile?_of_ahead? p (ahead?_ofBefore before (c :: rest))]
    dsimp only
    by_cases h : p c = true
    · rw [if_pos h, past_ofBefore, text_eq, ih, List.takeWhile_cons_of_pos h]
      simp
    · rw [if_neg h, List.takeWhile_cons_of_neg h]
      rfl

lemma advanceWhile?_ofBefore (p : Char → Bool) :
    (ofBefore before).advanceWhile? (before.reverse ++ rest) p =
      some (rest.takeWhile p, ofBefore ((rest.takeWhile p).reverse ++ before)) := by
  have run := slice?_ofBefore before (rest.dropWhile p) (rest.takeWhile p)
  rw [List.takeWhile_append_dropWhile] at run
  rw [advanceWhile?, pastWhile?_ofBefore]
  simp [run]

lemma skipLine?_ofBefore :
    (ofBefore before).skipLine? (before.reverse ++ rest) =
      some (rest.takeWhile (· != '\n') ++ (rest.dropWhile (· != '\n')).head?.toList,
        (Cursor.between before rest).skipLine.position) := by
  have parted : before.reverse ++ rest = ((rest.takeWhile (· != '\n')).reverse ++ before).reverse ++
      rest.dropWhile (· != '\n') := by
    rw [List.reverse_append, List.reverse_reverse, List.append_assoc,
      List.takeWhile_append_dropWhile]
  rw [skipLine?, advanceWhile?_ofBefore, Cursor.skipLine, Cursor.dropWhile_between]
  simp only [Option.bind_eq_bind, Option.bind_some]
  rw [parted, advance?_ofBefore]
  rfl

end Position

/-! ### Moves -/

namespace Cursor

/-- What a cursor can be moved past: the next character, that character if it is a given one, a run
of characters, or the rest of its line. -/
inductive Move where
  | advance
  | eat (c : Char)
  | dropWhile (p : Char → Bool)
  | skipLine

/-- The cursor behind a move; it stays where it is when the character to eat does not come next. -/
def move (cursor : Cursor) : Move → Cursor
  | .advance => cursor.advance
  | .eat c => (cursor.eat? c).getD cursor
  | .dropWhile p => cursor.dropWhile p
  | .skipLine => cursor.skipLine

/-- The text that a move passes. -/
def passed (cursor : Cursor) : Move → List Char
  | .advance => cursor.peek?.toList
  | .eat c => if cursor.peek? = some c then [c] else []
  | .dropWhile p => cursor.takeWhile p
  | .skipLine => (rawLines cursor.rest).head?.getD []

/-- A move made with the place alone: the text that it passes and the place behind it. -/
def Move.byOffset? (text : List Char) (position : Position) :
    Move → Option (List Char × Position)
  | advance => position.advance? text
  | eat c => position.eat? text c
  | dropWhile p => position.advanceWhile? text p
  | skipLine => position.skipLine? text

lemma takeWhile_append_feed (rest : List Char) :
    rest.takeWhile (· != '\n') ++ (rest.dropWhile (· != '\n')).head?.toList =
      (rawLines rest).head?.getD [] := by
  induction rest using lineInduction with
  | nil => rfl
  | last line ne free =>
    have ends : ∀ c ∈ ([] : List Char).head?, (c != '\n') = false := by simp
    have passes := forall_bne_of_not_mem free
    have whole := takeWhile_run passes ends
    have none_left := dropWhile_run passes ends
    rw [List.append_nil] at whole none_left
    rw [rawLines_open ne free, whole, none_left]
    exact List.append_nil line
  | cons line rest free =>
    have passes := forall_bne_of_not_mem free
    have feed : ∀ d ∈ ('\n' :: rest).head?, (d != '\n') = false := forall_head?_cons rfl rest
    rw [rawLines_line free, takeWhile_run passes feed, dropWhile_run passes feed]
    rfl

/-- A move goes from between two parts of a text to behind what it passes. -/
lemma exists_move_between (before rest : List Char) (move : Move) :
    ∃ after, (between before rest).passed move ++ after = rest ∧
      (between before rest).move move =
        between (((between before rest).passed move).reverse ++ before) after := by
  cases move with
  | advance =>
    cases rest with
    | nil => exact ⟨[], rfl, rfl⟩
    | cons c rest => exact ⟨rest, rfl, advance_between before rest c⟩
  | eat c =>
    by_cases next : (between before rest).peek? = some c
    · obtain ⟨rest, rfl⟩ := List.head?_eq_some_iff.mp next
      refine ⟨rest, ?_, ?_⟩
      · rw [passed, if_pos next]
        rfl
      · rw [move, eat?_between, passed, if_pos next]
        rfl
    · refine ⟨rest, ?_, ?_⟩
      · rw [passed, if_neg next]
        rfl
      · rw [move, eat?, if_neg next, passed, if_neg next]
        rfl
  | dropWhile p =>
    exact ⟨rest.dropWhile p, List.takeWhile_append_dropWhile, dropWhile_between before rest p⟩
  | skipLine =>
    induction rest using lineInduction with
    | nil => exact ⟨[], rfl, rfl⟩
    | last line ne free =>
      have own : (between before line).passed .skipLine = line := by
        rw [passed, rest_between, rawLines_open ne free]
        rfl
      exact ⟨[], by rw [own, List.append_nil], by rw [own]; exact skipLine_between_open free before⟩
    | cons line rest free =>
      have own : (between before (line ++ '\n' :: rest)).passed .skipLine = line ++ ['\n'] := by
        rw [passed, rest_between, rawLines_line free]
        rfl
      exact ⟨rest, by rw [own]; simp, by rw [own]; exact skipLine_between free before rest⟩

/-- The place alone is enough for a move. -/
lemma byOffset?_ofBefore (before rest : List Char) (move : Move) :
    move.byOffset? (before.reverse ++ rest) (.ofBefore before) =
      some ((between before rest).passed move, ((between before rest).move move).position) := by
  cases move with
  | advance => exact Position.advance?_ofBefore before rest
  | eat c =>
    rw [Move.byOffset?, Position.eat?, Position.ahead?_ofBefore, passed, move, eat?]
    simp only [Option.bind_eq_bind, Option.bind_some]
    by_cases next : rest.head? = some c
    · have here : (between before rest).peek? = some c := next
      rw [if_pos next, if_pos here, if_pos here, Position.advance?_ofBefore, next]
      rfl
    · have other : (between before rest).peek? ≠ some c := next
      rw [if_neg next, if_neg other, if_neg other]
      rfl
  | dropWhile p =>
    rw [Move.byOffset?, Position.advanceWhile?_ofBefore, move, dropWhile_between]
    rfl
  | skipLine =>
    rw [Move.byOffset?, Position.skipLine?_ofBefore, takeWhile_append_feed]
    rfl

/-! ### What holds of a cursor wherever it stands -/

/-- A cursor on a text stands at a place in it, a line starts there if and only if the column is the
first, and the place tells what the cursor holds. -/
structure IsInPlace (text : List Char) (cursor : Cursor) : Prop where
  isIn : cursor.position.IsIn text
  isBoundary : IsBoundary text cursor.position.byte
  byte_le : cursor.position.byte ≤ byteLength text
  isAtLineStart_iff : cursor.isAtLineStart = true ↔ cursor.position.column = 0
  isLineStart?_eq : cursor.position.isLineStart? text = some cursor.isAtLineStart
  ahead?_eq : cursor.position.ahead? text = some cursor.rest

lemma isAtLineStart_iff_column (before rest : List Char) :
    (between before rest).isAtLineStart = true ↔ (between before rest).position.column = 0 := by
  cases before with
  | nil => simp [between, isAtLineStart, Position.ofBefore]
  | cons c before =>
    by_cases feed : c = '\n' <;> simp [between, isAtLineStart, Position.ofBefore, feed]

lemma IsOn.isInPlace {text : List Char} {cursor : Cursor} (h : cursor.IsOn text) :
    cursor.IsInPlace text := by
  obtain ⟨before, rest, rfl, rfl⟩ := h
  have boundary : IsBoundary (before.reverse ++ rest) (between before rest).position.byte :=
    ⟨before.reverse, rest, rfl, byteLength_reverse before⟩
  refine ⟨⟨before.reverse, rest, rfl, ?_⟩, boundary, boundary.le,
    isAtLineStart_iff_column before rest, Position.isLineStart?_ofBefore before rest,
    Position.ahead?_ofBefore before rest⟩
  rw [Position.isBehind_iff, List.reverse_reverse]
  rfl

/-- The longest run of characters that satisfy `p` at the front of a text. -/
structure IsLongestRun (p : Char → Bool) (text run : List Char) : Prop where
  starts : run <+: text
  all : ∀ c ∈ run, p c = true
  longest : ∀ other, other <+: text → (∀ c ∈ other, p c = true) → other <+: run

lemma isLongestRun_takeWhile (p : Char → Bool) (text : List Char) :
    IsLongestRun p text (text.takeWhile p) := by
  refine ⟨List.takeWhile_prefix p, fun c mem => List.mem_takeWhile_imp mem, ?_⟩
  rintro other ⟨rest, rfl⟩ all
  rw [List.takeWhile_append_of_pos all]
  exact List.prefix_append other _

/-- A move passes the text between the two places where the cursor stands before and after it. -/
structure Passes (text : List Char) (cursor : Cursor) (move : Move) : Prop where
  slice?_eq : Span.slice? ⟨cursor.position.byte, (cursor.move move).position.byte⟩ text =
    some (cursor.passed move)
  byOffset?_eq : move.byOffset? text cursor.position =
    some (cursor.passed move, (cursor.move move).position)
  isLongestRun : ∀ p, move = .dropWhile p → IsLongestRun p cursor.rest (cursor.passed move)

lemma IsOn.move {text : List Char} {cursor : Cursor} (h : cursor.IsOn text) (move : Move) :
    (cursor.move move).IsOn text := by
  obtain ⟨before, rest, rfl, rfl⟩ := h
  obtain ⟨after, rest_eq, moved⟩ := exists_move_between before rest move
  refine ⟨_, after, moved, ?_⟩
  rw [List.reverse_append, List.reverse_reverse, List.append_assoc, rest_eq]

lemma IsOn.passes {text : List Char} {cursor : Cursor} (h : cursor.IsOn text) (move : Move) :
    cursor.Passes text move := by
  obtain ⟨before, rest, rfl, rfl⟩ := h
  obtain ⟨after, rest_eq, moved⟩ := exists_move_between before rest move
  have slice := Position.slice?_ofBefore before after ((between before rest).passed move)
  rw [rest_eq] at slice
  refine ⟨?_, byOffset?_ofBefore before rest move, ?_⟩
  · rw [moved]
    exact slice
  · rintro p rfl
    exact isLongestRun_takeWhile p rest

lemma Passes.byte_le {text : List Char} {cursor : Cursor} {move : Move}
    (h : cursor.Passes text move) :
    cursor.position.byte ≤ (cursor.move move).position.byte := by
  obtain ⟨front, post, -, start_eq, stop_eq⟩ := Span.slice?_eq_some_iff.mp h.slice?_eq
  dsimp only at start_eq stop_eq
  omega

/-- A cursor starts in front of a text or at a place in it. -/
def IsStart (text : List Char) (cursor : Cursor) : Prop :=
  cursor = ofText text ∨ ∃ position : Position, position.IsIn text ∧ at? text position = some cursor

lemma at?_of_isIn {text : List Char} {position : Position} (h : position.IsIn text) :
    ∃ cursor, at? text position = some cursor ∧ cursor.position = position ∧ cursor.IsOn text := by
  obtain ⟨front, rest, rfl, behind⟩ := h
  rw [Position.isBehind_iff] at behind
  subst behind
  have found := at?_ofBefore front.reverse rest
  rw [List.reverse_reverse] at found
  exact ⟨_, found, rfl, front.reverse, rest, rfl, by rw [List.reverse_reverse]⟩

lemma IsStart.isOn {text : List Char} {cursor : Cursor} (h : cursor.IsStart text) :
    cursor.IsOn text := by
  rcases h with rfl | ⟨position, inside, found⟩
  · exact isOn_ofText text
  · obtain ⟨other, same, -, on_text⟩ := at?_of_isIn inside
    rw [found] at same
    cases same
    exact on_text

end Cursor

/-! ### Readers -/

/-- A cursor that is read with, and the clones of it that are kept, the latest first. -/
structure Reader where
  cursor : Cursor
  kept : List Cursor

/-- What is done in reading: the cursor is moved, it is cloned, or a clone takes its place. -/
inductive Reader.Action where
  | move (move : Cursor.Move)
  | keep
  | goBack (clone : Nat)

namespace Reader

/-- The reader after an action; there is no going back to a clone that was not kept. -/
def after (reader : Reader) : Action → Reader
  | .move move => { reader with cursor := reader.cursor.move move }
  | .keep => { reader with kept := reader.cursor :: reader.kept }
  | .goBack clone => { reader with cursor := reader.kept[clone]?.getD reader.cursor }

/-- The reader after a run of actions that starts with a cursor and no clones. -/
def afterAll (start : Cursor) (actions : List Action) : Reader := actions.foldl after ⟨start, []⟩

def IsOn (text : List Char) (reader : Reader) : Prop :=
  ∀ cursor ∈ reader.cursor :: reader.kept, cursor.IsOn text

lemma IsOn.after {text : List Char} {reader : Reader} (h : reader.IsOn text) (action : Action) :
    (reader.after action).IsOn text := by
  obtain ⟨cursor, kept⟩ := List.forall_mem_cons.mp h
  cases action with
  | move move => exact List.forall_mem_cons.mpr ⟨cursor.move move, kept⟩
  | keep => exact List.forall_mem_cons.mpr ⟨cursor, h⟩
  | goBack clone =>
    refine List.forall_mem_cons.mpr ⟨?_, kept⟩
    cases found : reader.kept[clone]? with
    | none => simpa [Reader.after, found] using cursor
    | some other => simpa [Reader.after, found] using kept other (List.mem_of_getElem? found)

lemma isOn_afterAll {text : List Char} {start : Cursor} (h : start.IsOn text)
    (actions : List Action) : (afterAll start actions).IsOn text := by
  induction actions using List.reverseRecOn with
  | nil => simpa [IsOn, afterAll] using h
  | append_singleton actions action ih =>
    rw [afterAll, List.foldl_append]
    exact ih.after action

/-- A cursor can start at every place in a text. Whatever is done from its start on, the cursor and
its clones stand at places in the text, and a move from there passes the text up to the place where it
leads, also when it is made with the place alone; a run of characters is the longest there is. Only
going back leads nearer to the start of the text. -/
theorem cursors_in_place (text : List Char) :
    (∀ position : Position, position.IsIn text →
      ∃ start, Cursor.at? text position = some start ∧ start.position = position) ∧
    ∀ start : Cursor, start.IsStart text → ∀ actions : List Action,
      let reader := afterAll start actions
      (∀ cursor ∈ reader.cursor :: reader.kept, cursor.IsInPlace text) ∧
      (∀ move, reader.cursor.Passes text move) ∧
      ∀ action, (∀ clone, action ≠ .goBack clone) →
        reader.cursor.position.byte ≤ (reader.after action).cursor.position.byte := by
  constructor
  · intro position inside
    obtain ⟨start, found, place, -⟩ := Cursor.at?_of_isIn inside
    exact ⟨start, found, place⟩
  · intro start starts actions reader
    have on_text := isOn_afterAll starts.isOn actions
    have here := on_text reader.cursor List.mem_cons_self
    refine ⟨fun cursor mem => (on_text cursor mem).isInPlace, here.passes, ?_⟩
    intro action forward
    cases action with
    | move move => exact (here.passes move).byte_le
    | keep => exact Nat.le_refl _
    | goBack clone => exact absurd rfl (forward clone)

/-- Below a line with an accent, a name is read, and the reader goes back to where its line starts. -/
theorem in_place_below_accent :
    let text := "/* é */\nwide = 2;\n".toList
    let place : Position := ⟨9, 1, 0⟩
    let actions : List Action := [.keep, .move (.dropWhile isNameChar), .goBack 0]
    place.IsIn text ∧ ∃ start, Cursor.at? text place = some start ∧ start.IsStart text ∧
      (afterAll start actions).cursor.position = place ∧
      (afterAll start actions).cursor.IsInPlace text ∧
      (afterAll start actions).cursor.Passes text .skipLine ∧
      9 ≤ ((afterAll start actions).after (.move .skipLine)).cursor.position.byte := by
  intro text place actions
  have inside : place.IsIn text :=
    ⟨"/* é */\n".toList, "wide = 2;\n".toList, by decide, by decide, by decide,
      "/* é */\n".toList, [], by decide, endsLine_concat "/* é */".toList, List.not_mem_nil, rfl⟩
  obtain ⟨starting, reading⟩ := cursors_in_place text
  obtain ⟨start, found, at_place⟩ := starting place inside
  have starts : start.IsStart text := .inr ⟨place, inside, found⟩
  have back : (afterAll start actions).cursor = start := rfl
  obtain ⟨placed, passes, forward⟩ := reading start starts actions
  have further := forward (.move .skipLine) (fun clone => nofun)
  rw [back, at_place] at further
  refine ⟨inside, start, found, starts, ?_, placed _ List.mem_cons_self, passes .skipLine, further⟩
  rw [back, at_place]

end Reader

end ParamPanel.Text
