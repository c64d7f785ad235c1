import Mathlib.Data.List.Basic
import Mathlib.Data.String.Basic

/-!
# The order of bytes

Texts are ordered by their characters. The bytes of their UTF-8 forms come in the same order.
-/

namespace ParamPanel.Text

/-- The bytes of the UTF-8 form of a text. -/
def bytes (text : String) : List UInt8 := text.toUTF8.data.toList

lemma bytes_eq (text : String) : bytes text = text.toList.flatMap String.utf8EncodeChar := by
  rw [bytes, String.toUTF8_eq_toByteArray, ← String.utf8Encode_toList, List.utf8Encode,
    List.toList_data_toByteArray]

lemma ofNat_lt_ofNat_iff {m n : Nat} (hm : m < 256) (hn : n < 256) :
    UInt8.ofNat m < UInt8.ofNat n ↔ m < n := by
  rw [UInt8.lt_iff_toNat_lt, UInt8.toNat_ofNat_of_lt' hm, UInt8.toNat_ofNat_of_lt' hn]

lemma ofNat_eq_ofNat_iff {m n : Nat} (hm : m < 256) (hn : n < 256) :
    UInt8.ofNat m = UInt8.ofNat n ↔ m = n := by
  rw [← UInt8.toNat_inj, UInt8.toNat_ofNat_of_lt' hm, UInt8.toNat_ofNat_of_lt' hn]

/-- Of two characters, the bytes of the smaller one come first, whatever follows on either side. -/
lemma encode_append_lt {c d : Char} (less : c < d) (rest more : List UInt8) :
    String.utf8EncodeChar c ++ rest < String.utf8EncodeChar d ++ more := by
  have value : c.val.toNat < d.val.toNat := less
  have last : d.val.toNat < 0x110000 := by
    rcases d.valid with h | h <;> omega
  have second (v : Nat) : v / 4096 = v / 64 / 64 := by omega
  have third (v : Nat) : v / 262144 = v / 64 / 64 / 64 := by omega
  simp only [String.utf8EncodeChar, second, third]
  generalize c.val.toNat = m at *
  generalize d.val.toNat = n at *
  -- A longer form has the greater first byte; forms of one length hold the digits to base 64.
  split_ifs <;> simp only [List.cons_append, List.nil_append, List.cons_lt_cons_iff]
  all_goals simp (disch := omega) only [ofNat_lt_ofNat_iff, ofNat_eq_ofNat_iff]
  all_goals omega

lemma flatMap_encode_lt {text more : List Char} (less : text < more) :
    text.flatMap String.utf8EncodeChar < more.flatMap String.utf8EncodeChar := by
  induction text generalizing more with
  | nil =>
    cases more with
    | nil => exact absurd less (List.not_lt_nil [])
    | cons d more =>
      obtain ⟨first, bytes, h⟩ := List.exists_cons_of_ne_nil (String.utf8EncodeChar_ne_nil (c := d))
      rw [List.flatMap_nil, List.flatMap_cons, h]
      exact List.nil_lt_cons first _
  | cons c text ih =>
    cases more with
    | nil => exact absurd less (List.not_lt_nil _)
    | cons d more =>
      rw [List.flatMap_cons, List.flatMap_cons]
      rcases List.cons_lt_cons_iff.mp less with first | ⟨rfl, later⟩
      · exact encode_append_lt first _ _
      · exact List.append_left_lt (ih later)

/-- Texts in order have their bytes in order. -/
theorem bytes_lt_of_lt {text more : String} (less : text < more) : bytes text < bytes more := by
  rw [bytes_eq, bytes_eq]
  exact flatMap_encode_lt (String.lt_iff_toList_lt.mp less)

end ParamPanel.Text
