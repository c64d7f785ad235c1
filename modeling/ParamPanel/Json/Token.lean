import ParamPanel.Json.Basic
import ParamPanel.Json.Numeral

/-!
# JSON tokens

A text as the tokens of JSON. A token that breaks off or does not exist is `malformed` and ends the
list. Strings and numbers that are well formed but have no value, for a surrogate without its
partner or a size beyond the doubles, keep their place: where a value is skipped they do no harm.
-/

namespace ParamPanel.Json

/-- The smallest parts of a JSON text. -/
inductive Token where
  | arrayOpen
  | arrayClose
  | objectOpen
  | objectClose
  | comma
  | colon
  | null
  | bool (flag : Bool)
  | number (value : Option Numeral)
  | string (value : Option String)
  | malformed
deriving DecidableEq

/-- A part of a string: a character as it is, or a code unit given by its number. -/
inductive StringPart where
  | char (c : Char)
  | unit (n : Nat)
deriving DecidableEq, Repr

/-- The digit that a character is in base sixteen, in either case. -/
def hexValue? (c : Char) : Option Nat :=
  if '0' ≤ c ∧ c ≤ '9' then some (c.toNat - '0'.toNat)
  else if 'a' ≤ c ∧ c ≤ 'f' then some (c.toNat - 'a'.toNat + 10)
  else if 'A' ≤ c ∧ c ≤ 'F' then some (c.toNat - 'A'.toNat + 10)
  else none

def codeUnit? (a b c d : Char) : Option Nat := do
  return (((← hexValue? a) * 16 + (← hexValue? b)) * 16 + (← hexValue? c)) * 16 + (← hexValue? d)

/-- The character that a letter behind a backslash stands for. -/
def unescape? (letter : Char) : Option Char :=
  if letter = '/' then some '/'
  else (letterEscapes.find? (·.2 = letter)).map Prod.fst

/-- The parts of a string up to its closing quote, and the text behind that. -/
def splitString? : List Char → Option (List StringPart × List Char)
  | [] => none
  | c :: text =>
    if c = '"' then some ([], text)
    else if c = '\\' then
      match text with
      | [] => none
      | letter :: text =>
        if letter = 'u' then
          match text with
          | h₁ :: h₂ :: h₃ :: h₄ :: text =>
            match codeUnit? h₁ h₂ h₃ h₄ with
            | none => none
            | some n => (splitString? text).map fun (parts, rest) => (.unit n :: parts, rest)
          | _ => none
        else match unescape? letter with
          | none => none
          | some c => (splitString? text).map fun (parts, rest) => (.char c :: parts, rest)
    else if c.toNat < 0x20 then none
    else (splitString? text).map fun (parts, rest) => (.char c :: parts, rest)

def isHighSurrogate (n : Nat) : Bool := 0xd800 ≤ n && n ≤ 0xdbff

def isLowSurrogate (n : Nat) : Bool := 0xdc00 ≤ n && n ≤ 0xdfff

/-- The characters of a string. Two halves of a pair that stand together make one character; a half
that stands alone makes none. -/
def assemble? : List StringPart → Option (List Char)
  | [] => some []
  | .char c :: parts => (assemble? parts).map (c :: ·)
  | .unit n :: parts =>
    if isHighSurrogate n then
      match parts with
      | .unit m :: parts =>
        if isLowSurrogate m then
          let c := Char.ofNat (0x10000 + (n - 0xd800) * 0x400 + (m - 0xdc00))
          (assemble? parts).map (c :: ·)
        else none
      | _ => none
    else if isLowSurrogate n then none
    else (assemble? parts).map (Char.ofNat n :: ·)

/-- The first token of a text that starts with `c`, and the text behind the token. -/
def splitToken? (c : Char) (text : List Char) : Option (Token × List Char) :=
  match c with
  | '[' => some (.arrayOpen, text)
  | ']' => some (.arrayClose, text)
  | '{' => some (.objectOpen, text)
  | '}' => some (.objectClose, text)
  | ',' => some (.comma, text)
  | ':' => some (.colon, text)
  | 'n' => (['u', 'l', 'l'].isPrefixOf? text).map (.null, ·)
  | 't' => (['r', 'u', 'e'].isPrefixOf? text).map (.bool true, ·)
  | 'f' => (['a', 'l', 's', 'e'].isPrefixOf? text).map (.bool false, ·)
  | '"' => (splitString? text).map fun (parts, rest) =>
      (.string ((assemble? parts).map String.ofList), rest)
  | _ => (splitNumber? (c :: text)).map fun (lexeme, rest) => (.number lexeme.value?, rest)

theorem length_of_splitString? {text rest : List Char} {parts : List StringPart}
    (h : splitString? text = some (parts, rest)) : rest.length ≤ text.length := by
  fun_induction splitString? text generalizing parts rest with
  | case1 => cases h
  | case2 => cases h; simp
  | case3 => cases h
  | case4 => cases h
  | case5 h₁ h₂ h₃ h₄ text n unit not_quote ih =>
    simp only [Option.map_eq_some_iff] at h
    obtain ⟨⟨more, behind⟩, found, same⟩ := h
    cases same
    have := ih found
    simp only [List.length_cons]
    omega
  | case6 => cases h
  | case7 => cases h
  | case8 letter text not_u c escape not_quote ih =>
    simp only [Option.map_eq_some_iff] at h
    obtain ⟨⟨more, behind⟩, found, same⟩ := h
    cases same
    have := ih found
    simp only [List.length_cons]
    omega
  | case9 => cases h
  | case10 c text not_quote not_escape not_control ih =>
    simp only [Option.map_eq_some_iff] at h
    obtain ⟨⟨more, behind⟩, found, same⟩ := h
    cases same
    have := ih found
    simp only [List.length_cons]
    omega

theorem length_of_isPrefixOf? {mark text rest : List Char}
    (h : mark.isPrefixOf? text = some rest) : rest.length ≤ text.length := by
  induction mark generalizing text with
  | nil =>
    have same : some text = some rest := h
    cases same
    exact Nat.le_refl _
  | cons c mark ih =>
    cases text with
    | nil => exact absurd (show none = some rest from h) (by simp)
    | cons d text =>
      have kept : (if c == d then mark.isPrefixOf? text else none) = some rest := h
      split at kept
      · exact Nat.le_succ_of_le (ih kept)
      · cases kept

theorem length_of_splitToken? {c : Char} {text rest : List Char} {token : Token}
    (h : splitToken? c text = some (token, rest)) : rest.length ≤ text.length := by
  unfold splitToken? at h
  split at h
  case h_11 =>
    simp only [Option.map_eq_some_iff] at h
    obtain ⟨⟨lexeme, behind⟩, found, same⟩ := h
    obtain ⟨-, rfl⟩ := Prod.mk.inj same
    have shorter : behind.length < (c :: text).length := length_of_splitNumber? found
    exact Nat.le_of_lt_succ shorter
  case h_10 =>
    simp only [Option.map_eq_some_iff] at h
    obtain ⟨⟨parts, behind⟩, found, same⟩ := h
    cases same
    exact length_of_splitString? found
  all_goals
    first
    | (cases h; exact Nat.le_refl _)
    | (simp only [Option.map_eq_some_iff] at h
       obtain ⟨behind, found, same⟩ := h
       cases same
       exact length_of_isPrefixOf? found)

/-- The blanks that may stand between tokens. -/
def isBlank (c : Char) : Bool := c == ' ' || c == '\t' || c == '\n' || c == '\r'

def tokens (text : List Char) : List Token :=
  match start : text.dropWhile isBlank with
  | [] => []
  | c :: rest =>
    match split : splitToken? c rest with
    | none => [.malformed]
    | some (token, behind) =>
      have : behind.length < text.length := by
        have token_length := length_of_splitToken? split
        have blanks := length_dropWhile_le isBlank text
        simp only [start, List.length_cons] at blanks
        omega
      token :: tokens behind
termination_by text.length

end ParamPanel.Json
