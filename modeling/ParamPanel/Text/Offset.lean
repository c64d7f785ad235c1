/-!
# Offsets

Places in a text are counted in the bytes of its UTF-8 form. An offset is good only where a
character starts or the text ends; `seek?` is the one place where that is decided.
-/

namespace ParamPanel.Text

def byteLength (text : List Char) : Nat := text.foldl (fun bytes c => bytes + c.utf8Size) 0

private theorem foldl_byteLength (text : List Char) (bytes : Nat) :
    text.foldl (fun bytes c => bytes + c.utf8Size) bytes = bytes + byteLength text := by
  induction text generalizing bytes with
  | nil => rfl
  | cons c text ih =>
    have front := ih (0 + c.utf8Size)
    simp only [List.foldl_cons, byteLength] at front ⊢
    rw [ih, front]
    simp only [byteLength]
    omega

@[simp] theorem byteLength_nil : byteLength [] = 0 := rfl

@[simp] theorem byteLength_cons (c : Char) (text : List Char) :
    byteLength (c :: text) = c.utf8Size + byteLength text := by
  have front := foldl_byteLength text (0 + c.utf8Size)
  rw [Nat.zero_add] at front
  simpa [byteLength] using front

@[simp] theorem byteLength_append (text more : List Char) :
    byteLength (text ++ more) = byteLength text + byteLength more := by
  induction text with
  | nil => simp
  | cons c text ih => simp [ih, Nat.add_assoc]

@[simp] theorem byteLength_reverse (text : List Char) :
    byteLength text.reverse = byteLength text := by
  induction text with
  | nil => rfl
  | cons c text ih => simp [ih, Nat.add_comm]

/-- Moves characters from `rest` onto `before`, nearest first, until `bytes` bytes are passed.
There is no answer when that place lies past the end or inside a character. -/
def passBytes? (before : List Char) : List Char → Nat → Option (List Char × List Char)
  | rest, 0 => some (before, rest)
  | [], _ + 1 => none
  | c :: rest, bytes + 1 =>
    if c.utf8Size ≤ bytes + 1 then passBytes? (c :: before) rest (bytes + 1 - c.utf8Size) else none

/-- Passing bytes moves exactly a stretch of text of that length. -/
theorem passBytes?_eq_some_iff {before rest before' rest' : List Char} {bytes : Nat} :
    passBytes? before rest bytes = some (before', rest') ↔
      ∃ passed, rest = passed ++ rest' ∧ before' = passed.reverse ++ before ∧
        byteLength passed = bytes := by
  induction rest generalizing before bytes with
  | nil =>
    cases bytes with
    | zero =>
      simp only [passBytes?, Option.some.injEq, Prod.mk.injEq]
      constructor
      · rintro ⟨rfl, rfl⟩
        exact ⟨[], by simp⟩
      · rintro ⟨passed, h, rfl, -⟩
        obtain ⟨rfl, rfl⟩ := List.nil_eq_append_iff.mp h
        simp
    | succ bytes =>
      simp only [passBytes?, reduceCtorEq, false_iff, not_exists]
      rintro passed ⟨h, -, length⟩
      obtain ⟨rfl, -⟩ := List.nil_eq_append_iff.mp h
      simp at length
  | cons c rest ih =>
    cases bytes with
    | zero =>
      simp only [passBytes?, Option.some.injEq, Prod.mk.injEq]
      constructor
      · rintro ⟨rfl, rfl⟩
        exact ⟨[], by simp⟩
      · rintro ⟨_ | ⟨d, passed⟩, h, rfl, none_passed⟩
        · simpa using h
        · have := Char.utf8Size_pos d
          simp at none_passed
          omega
    | succ bytes =>
      unfold passBytes?
      split
      · rename_i fits
        rw [ih]
        constructor
        · rintro ⟨passed, rfl, rfl, h⟩
          exact ⟨c :: passed, rfl, by simp, by simp; omega⟩
        · rintro ⟨_ | ⟨d, passed⟩, h, rfl, length⟩
          · simp at length
          · simp only [List.cons_append, List.cons.injEq] at h
            obtain ⟨rfl, rfl⟩ := h
            exact ⟨passed, rfl, by simp, by simp at length; omega⟩
      · rename_i crosses
        simp only [reduceCtorEq, false_iff, not_exists]
        rintro (_ | ⟨d, passed⟩) ⟨h, -, length⟩
        · simp at length
        · simp only [List.cons_append, List.cons.injEq] at h
          obtain ⟨rfl, -⟩ := h
          simp at length
          omega

/-- The text before an offset, nearest character first, and the text from there on. -/
def seek? (text : List Char) (offset : Nat) : Option (List Char × List Char) :=
  passBytes? [] text offset

/-- An offset is good when the text splits there. -/
theorem seek?_eq_some_iff {text before rest : List Char} {offset : Nat} :
    seek? text offset = some (before, rest) ↔
      text = before.reverse ++ rest ∧ byteLength before = offset := by
  rw [seek?, passBytes?_eq_some_iff]
  constructor
  · rintro ⟨passed, rfl, rfl, rfl⟩
    simp
  · rintro ⟨rfl, rfl⟩
    exact ⟨before.reverse, by simp⟩

/-- A range of byte offsets, the second excluded. Nothing keeps them in order or in the text. -/
structure Span where
  start : Nat
  stop : Nat
deriving DecidableEq, Repr

namespace Span

/-- The number of bytes in the range; a reversed range has none. -/
def length (span : Span) : Nat := span.stop - span.start

/-- A range is empty unless it starts before it stops. -/
def isEmpty (span : Span) : Bool := span.stop ≤ span.start

/-- The text in the range; no text when the range is reversed or an end is no good offset. -/
def slice (span : Span) (text : List Char) : List Char :=
  if span.start ≤ span.stop then
    match seek? text span.start with
    | none => []
    | some (_, rest) =>
      match seek? rest (span.stop - span.start) with
      | none => []
      | some (inside, _) => inside.reverse
  else []

end Span

/-- A place in a text: its byte offset, its line, and its column in characters, all from zero. -/
structure Position where
  byte : Nat
  line : Nat
  column : Nat
deriving DecidableEq, Repr

namespace Position

/-- The first place of a text. -/
def start : Position := ⟨0, 0, 0⟩

/-- The place behind one character: a line feed opens a line, any other character a column. -/
def past (position : Position) (c : Char) : Position :=
  if c = '\n' then ⟨position.byte + c.utf8Size, position.line + 1, 0⟩
  else ⟨position.byte + c.utf8Size, position.line, position.column + 1⟩

/-- The place behind a text that starts here. -/
def pastAll (position : Position) (text : List Char) : Position := text.foldl past position

end Position

end ParamPanel.Text
