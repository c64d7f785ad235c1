/-!
# Line endings

Lines may end in a line feed, a carriage return or the pair of both. `normalize` leaves line feeds
only, so that everything after it knows a single line ending. A text that has no others is not
written anew: it is lent out as it stands.
-/

namespace ParamPanel.Text

/-- Every carriage return that stands right before a line feed is dropped. -/
def joinPairs : List Char → List Char
  | [] => []
  | [c] => [c]
  | c :: d :: text =>
    if c = '\r' ∧ d = '\n' then '\n' :: joinPairs text else c :: joinPairs (d :: text)

/-- Pairs become one line feed, and so does each carriage return that is left. -/
def toFeeds (text : List Char) : List Char :=
  (joinPairs text).map fun c => if c = '\r' then '\n' else c

/-- A text in normal form: the one that was given, or a new one. -/
inductive Normalized where
  | borrowed (text : List Char)
  | owned (text : List Char)
deriving DecidableEq, Repr

namespace Normalized

def text : Normalized → List Char
  | borrowed text => text
  | owned text => text

def isBorrowed : Normalized → Bool
  | borrowed _ => true
  | owned _ => false

end Normalized

/-- Only a text with a carriage return in it is written anew. -/
def normalized (text : List Char) : Normalized :=
  if text.contains '\r' then .owned (toFeeds text) else .borrowed text

def normalize (text : List Char) : List Char := (normalized text).text

/-- Whether a text is in normal form already, so that normalising lends it out. -/
def isNormal (text : List Char) : Bool := (normalized text).isBorrowed

theorem joinPairs_eq_self {text : List Char} (h : '\r' ∉ text) : joinPairs text = text := by
  fun_induction joinPairs text with
  | case1 => rfl
  | case2 => rfl
  | case3 d text c pair ih => simp_all
  | case4 => simp_all

theorem toFeeds_eq_self {text : List Char} (free : '\r' ∉ text) : toFeeds text = text := by
  have kept : ∀ c ∈ text, (if c = '\r' then '\n' else c) = id c := by
    intro c mem
    have : c ≠ '\r' := by rintro rfl; exact free mem
    simp [this]
  rw [toFeeds, joinPairs_eq_self free, List.map_congr_left kept, List.map_id]

theorem normalized_of_mem {text : List Char} (mem : '\r' ∈ text) :
    normalized text = .owned (toFeeds text) := by
  simp [normalized, mem]

theorem normalized_of_not_mem {text : List Char} (free : '\r' ∉ text) :
    normalized text = .borrowed text := by
  simp [normalized, free]

/-- What is lent out is what writing the text anew would have given. -/
theorem normalize_eq_toFeeds (text : List Char) : normalize text = toFeeds text := by
  by_cases mem : '\r' ∈ text
  · rw [normalize, normalized_of_mem mem, Normalized.text]
  · rw [normalize, normalized_of_not_mem mem, Normalized.text, toFeeds_eq_self mem]

theorem not_mem_normalize (text : List Char) : '\r' ∉ normalize text := by
  intro h
  simp only [normalize_eq_toFeeds, toFeeds, List.mem_map] at h
  obtain ⟨c, -, h⟩ := h
  split at h
  · simp at h
  · simp_all

theorem normalized_eq_borrowed_iff {text kept : List Char} :
    normalized text = .borrowed kept ↔ kept = text ∧ '\r' ∉ text := by
  by_cases mem : '\r' ∈ text
  · simp [normalized_of_mem mem, mem]
  · simp [normalized_of_not_mem mem, mem, eq_comm]

theorem isNormal_iff {text : List Char} : isNormal text = true ↔ '\r' ∉ text := by
  by_cases mem : '\r' ∈ text
  · simp [isNormal, normalized_of_mem mem, Normalized.isBorrowed, mem]
  · simp [isNormal, normalized_of_not_mem mem, Normalized.isBorrowed, mem]

theorem normalize_eq_self {text : List Char} (free : '\r' ∉ text) : normalize text = text := by
  rw [normalize_eq_toFeeds, toFeeds_eq_self free]

end ParamPanel.Text
