import ParamPanel.Proofs.Json.Content
import ParamPanel.Proofs.Json.Token

/-!
# Reading what is written

In whatever containers a reader stands, the text of a value takes it over the value and puts it in.
So the text of a value alone is read as that value and nothing else.
-/

namespace ParamPanel.Json

mutual

/-- What the text of a value is read as. -/
def reading : Json → Reading
  | null => .null
  | bool flag => .bool flag
  | number x => (Reading.ofText (numberText x)).1
  | string text => .string (some text)
  | array items => .array (itemsReadings items) .closed
  | object members => .object (membersReadings members) .closed

def itemsReadings : List Json → List Reading
  | [] => []
  | item :: items => item.reading :: itemsReadings items

def membersReadings : List (String × Json) → List (Option String × Reading)
  | [] => []
  | (key, value) :: members => (some key, value.reading) :: membersReadings members

end

lemma itemsReadings_eq (items : List Json) : itemsReadings items = items.map reading := by
  induction items with
  | nil => rfl
  | cons item items ih => rw [itemsReadings, ih, List.map_cons]

lemma membersReadings_eq (members : List (String × Json)) :
    membersReadings members = members.map fun (key, value) => (some key, value.reading) := by
  induction members with
  | nil => rfl
  | cons member members ih => rw [membersReadings, ih, List.map_cons]

/-- The numbers among all values in a value are readable. -/
def HasReadableNumbers (json : Json) : Prop :=
  json.All fun inner => ∀ x, inner = number x → IsReadable x

lemma IsReadable.exists_reading {x : Float} (h : IsReadable x) :
    ∃ n : Numeral, n.toFloat = x ∧ (number x).reading = .number (some n) ∧
      ∀ rest, FollowsValue rest →
        tokens (numberText x ++ rest) = .number (some n) :: tokens rest := by
  obtain ⟨n, same, found⟩ := h.exists_tokens
  refine ⟨n, same, ?_, found⟩
  have alone := found [] followsValue_nil
  rw [List.append_nil] at alone
  rw [reading, Reading.ofText, alone, tokens_eq]
  rfl

/-- A reader after the tokens of a text. -/
def Reader.run (reader : Reader) (text : List Char) : Reader := (tokens text).foldl step reader

namespace Reader

variable {reader : Reader} {frames : List Frame} {text rest : List Char} {token : Token}

lemma run_token (first : tokens text = token :: tokens rest) :
    reader.run text = (reader.step token).run rest := by
  rw [run, first, List.foldl_cons, ← run]

lemma run_sign {c : Char} (visible : isBlank c = false)
    (sign : splitToken? c rest = some (token, rest)) :
    reader.run (c :: rest) = (reader.step token).run rest :=
  run_token (tokens_cons visible sign)

/-- Where a value may start, any token but the end of an array is taken as its start. -/
lemma step_value {awaited : Awaited} (starts : awaited = .value ∨ awaited = .itemOrClose)
    (other : token ≠ .arrayClose) : (within awaited frames).step token = value frames token := by
  rcases starts with rfl | rfl
  · rfl
  · simp [step, other]

lemma step_key {awaited : Awaited} (starts : awaited = .key ∨ awaited = .keyOrClose)
    (name : Option String) :
    (within awaited frames).step (.string name) = key frames (.string name) := by
  rcases starts with rfl | rfl
  · rfl
  · simp [step]

end Reader

-- The three follow the constructors: the text of an item or a member is that of a smaller value,
-- behind which more items or members follow or the container ends.
mutual

theorem run_text (json : Json) (readable : json.HasReadableNumbers) {awaited : Awaited}
    (starts : awaited = .value ∨ awaited = .itemOrClose) (frames : List Frame) {rest : List Char}
    (follows : FollowsValue rest) :
    (Reader.within awaited frames).run (json.text ++ rest) =
      (Reader.completed json.reading frames).run rest := by
  match json with
  | null =>
    have first : tokens (null.text ++ rest) = .null :: tokens rest := tokens_cons rfl rfl
    rw [Reader.run_token first, Reader.step_value starts (by simp)]
    rfl
  | bool flag =>
    have first : tokens ((bool flag).text ++ rest) = .bool flag :: tokens rest := by
      cases flag <;> exact tokens_cons rfl rfl
    rw [Reader.run_token first, Reader.step_value starts (by simp)]
    rfl
  | number x =>
    obtain ⟨n, -, read, found⟩ := (all_number_iff.mp readable x rfl).exists_reading
    rw [text, Reader.run_token (found rest follows), Reader.step_value starts (by simp), read]
    rfl
  | string s =>
    rw [text, Reader.run_token (tokens_stringText s rest), Reader.step_value starts (by simp)]
    rfl
  | array [] =>
    change (Reader.within awaited frames).run ('[' :: ']' :: rest) = _
    refine (Reader.run_sign rfl rfl).trans ?_
    rw [Reader.step_value starts (by simp)]
    refine (Reader.run_sign rfl rfl).trans ?_
    rfl
  | array (item :: items) =>
    rw [text, List.cons_append, List.cons_append, List.append_assoc, List.singleton_append]
    refine (Reader.run_sign rfl rfl).trans ?_
    rw [Reader.step_value starts (by simp)]
    refine (run_itemsText (item :: items) (all_array_iff.mp readable).2 (List.cons_ne_nil _ _)
      (.inr rfl) [] frames rest).trans ?_
    refine (Reader.run_sign rfl rfl).trans ?_
    rw [reading, List.append_nil]
    change (Reader.completed (.array (itemsReadings (item :: items)).reverse.reverse .closed)
      frames).run rest = _
    rw [List.reverse_reverse]
  | object [] =>
    change (Reader.within awaited frames).run ('{' :: '}' :: rest) = _
    refine (Reader.run_sign rfl rfl).trans ?_
    rw [Reader.step_value starts (by simp)]
    refine (Reader.run_sign rfl rfl).trans ?_
    rfl
  | object (member :: members) =>
    rw [text, List.cons_append, List.cons_append, List.append_assoc, List.singleton_append]
    refine (Reader.run_sign rfl rfl).trans ?_
    rw [Reader.step_value starts (by simp)]
    refine (run_membersText (member :: members) (all_object_iff.mp readable).2
      (List.cons_ne_nil _ _) (.inr rfl) [] frames rest).trans ?_
    refine (Reader.run_sign rfl rfl).trans ?_
    rw [reading, List.append_nil]
    change (Reader.completed (.object (membersReadings (member :: members)).reverse.reverse .closed)
      frames).run rest = _
    rw [List.reverse_reverse]

theorem run_itemsText (items : List Json) (readable : ∀ item ∈ items, item.HasReadableNumbers)
    (filled : items ≠ []) {awaited : Awaited} (starts : awaited = .value ∨ awaited = .itemOrClose)
    (done : List Reading) (frames : List Frame) (rest : List Char) :
    (Reader.within awaited (.array done :: frames)).run (itemsText items ++ ']' :: rest) =
      (Reader.within .commaOrClose
        (.array ((itemsReadings items).reverse ++ done) :: frames)).run (']' :: rest) := by
  match items with
  | [] => exact absurd rfl filled
  | [item] =>
    rw [itemsText, run_text item (readable item List.mem_cons_self) starts _
      (followsValue_cons (by simp) rest)]
    rfl
  | item :: other :: items =>
    change (Reader.within awaited _).run (item.text ++ (',' :: itemsText (other :: items)) ++
      ']' :: rest) = _
    rw [List.append_assoc, List.cons_append,
      run_text item (readable item List.mem_cons_self) starts _ (followsValue_cons (by simp) _)]
    refine (Reader.run_sign rfl rfl).trans ?_
    refine (run_itemsText (other :: items) (fun inner mem => readable inner
      (List.mem_cons_of_mem item mem)) (List.cons_ne_nil _ _) (.inl rfl) (item.reading :: done)
      frames rest).trans ?_
    have first : itemsReadings (item :: other :: items) =
        item.reading :: itemsReadings (other :: items) := rfl
    rw [first, List.reverse_cons, List.append_assoc, List.singleton_append]

theorem run_membersText (members : List (String × Json))
    (readable : ∀ member ∈ members, member.2.HasReadableNumbers) (filled : members ≠ [])
    {awaited : Awaited} (starts : awaited = .key ∨ awaited = .keyOrClose)
    (done : List (Option String × Reading)) (frames : List Frame) (rest : List Char) :
    (Reader.within awaited (.object done :: frames)).run (membersText members ++ '}' :: rest) =
      (Reader.within .commaOrClose
        (.object ((membersReadings members).reverse ++ done) :: frames)).run ('}' :: rest) := by
  match members with
  | [] => exact absurd rfl filled
  | [(key, value)] =>
    rw [membersText, List.append_assoc, Reader.run_token (tokens_stringText key _),
      Reader.step_key starts, List.cons_append]
    refine (Reader.run_sign rfl rfl).trans ?_
    exact run_text value (readable (key, value) List.mem_cons_self) (.inl rfl) _
      (followsValue_cons (by simp) rest)
  | (key, value) :: other :: members =>
    change (Reader.within awaited _).run (stringText key ++ ':' :: value.text ++
      (',' :: membersText (other :: members)) ++ '}' :: rest) = _
    rw [List.append_assoc, List.append_assoc, Reader.run_token (tokens_stringText key _),
      Reader.step_key starts, List.cons_append, List.cons_append]
    refine (Reader.run_sign rfl rfl).trans ?_
    refine (run_text value (readable (key, value) List.mem_cons_self) (.inl rfl) _
      (followsValue_cons (by simp) _)).trans ?_
    refine (Reader.run_sign rfl rfl).trans ?_
    refine (run_membersText (other :: members) (fun inner mem => readable inner
      (List.mem_cons_of_mem (key, value) mem)) (List.cons_ne_nil _ _) (.inl rfl)
      ((some key, value.reading) :: done) frames rest).trans ?_
    have first : membersReadings ((key, value) :: other :: members) =
        (some key, value.reading) :: membersReadings (other :: members) := rfl
    rw [first, List.reverse_cons, List.append_assoc, List.singleton_append]

end

/-- The text of a value is read as the value, and nothing is left of it. -/
theorem ofText_text {json : Json} (readable : json.HasReadableNumbers) :
    Reading.ofText json.text = (json.reading, true) := by
  have read := run_text json readable (.inl rfl) [] followsValue_nil
  rw [List.append_nil, Reader.run] at read
  rw [Reading.ofText, Reader.start, read, Reader.run, tokens_eq]
  rfl

end ParamPanel.Json
