import ParamPanel.Text.CharClass
import ParamPanel.Text.Quoted

/-!
# Definition keywords

The words that open a definition in a script. There is at least one, and each is a word.
-/

namespace ParamPanel.Script

/-- Whether a text can be a keyword: it is not empty and holds word characters only. -/
def isKeyword (word : String) : Bool := word ≠ "" && word.toList.all Text.isWordChar

structure Keywords where
  words : List String
  words_ne_nil : words ≠ []
  isKeyword_of_mem : ∀ word ∈ words, isKeyword word = true

/-- Why a list of words does not serve as keywords. -/
inductive KeywordError where
  | noKeywords
  | notAWord (word : String)
deriving DecidableEq, Repr

def KeywordError.message : KeywordError → String
  | noKeywords => "at least one definition keyword is required"
  | notAWord word => "definition keyword must be an identifier: " ++ Text.quoted word

namespace Keywords

/-- Keywords from a list of words; the first word that is no keyword is the one reported. -/
def ofList (words : List String) : Except KeywordError Keywords :=
  if none_given : words = [] then .error .noKeywords
  else match bad : words.find? (!isKeyword ·) with
    | some word => .error (.notAWord word)
    | none => .ok ⟨words, none_given, by simpa using bad⟩

/-- Modules and functions are what scripts define unless a caller says otherwise. -/
def standard : Keywords where
  words := ["module", "function"]
  words_ne_nil := by simp
  isKeyword_of_mem := by decide

def contains (keywords : Keywords) (word : String) : Bool := keywords.words.contains word

end Keywords

end ParamPanel.Script
