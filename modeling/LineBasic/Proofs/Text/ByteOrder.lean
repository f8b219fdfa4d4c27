import Mathlib.Data.String.Basic
import Mathlib.Order.Compare

/-!
# The order of texts

Texts are ordered by the code points of their characters.  The bytes of a character tell by the
first of them how many there are, and of the same number of bytes the larger code point has the
larger ones, so the order by bytes is the same.
-/

namespace LineBasic.Text

/-- The code points of a text. -/
def codePoints (text : String) : List Nat :=
  text.toList.map Char.toNat

/-- The bytes of a text. -/
def bytes (text : String) : List Nat :=
  text.toUTF8.data.toList.map UInt8.toNat

/-- The bytes of a character. -/
def charBytes (c : Char) : List Nat :=
  (String.utf8EncodeChar c).map UInt8.toNat

theorem bytes_eq_flatMap (text : String) : bytes text = text.toList.flatMap charBytes := by
  conv => lhs; rw [← String.ofList_toList (s := text)]
  rw [bytes, String.toUTF8_eq_toByteArray, String.toByteArray_ofList, List.utf8Encode,
    List.data_toByteArray, List.map_flatMap]
  rfl

/-- The bytes of a character come before those of a larger one, whatever stands behind them. -/
theorem charBytes_append_lt {c d : Char} (hlt : c < d) (rest more : List Nat) :
    charBytes c ++ rest < charBytes d ++ more := by
  have hvalue : c.val.toNat < d.val.toNat := hlt
  have hvalid : d.val.toNat < 0xd800 ∨ 0xdfff < d.val.toNat ∧ d.val.toNat < 0x110000 := d.valid
  simp only [charBytes, String.utf8EncodeChar]
  generalize c.val.toNat = m at *
  generalize d.val.toNat = n at *
  -- one case for each number of bytes that the two characters can have
  split_ifs
  all_goals
    simp only [List.map_cons, List.map_nil, List.cons_append, List.nil_append,
      List.cons_lt_cons_iff, UInt8.toNat_ofNat']
    simp (disch := omega) only [Nat.mod_eq_of_lt]
    omega

theorem flatMap_charBytes_lt {left right : List Char} (hlt : left < right) :
    left.flatMap charBytes < right.flatMap charBytes := by
  induction left generalizing right with
  | nil =>
    cases right with
    | nil => exact absurd hlt (List.not_lt_nil [])
    | cons d right =>
      have hbytes : charBytes d ≠ [] := mt List.map_eq_nil_iff.mp String.utf8EncodeChar_ne_nil
      obtain ⟨byte, rest, hbyte⟩ := List.exists_cons_of_ne_nil hbytes
      rw [List.flatMap_nil, List.flatMap_cons, hbyte, List.cons_append]
      exact List.nil_lt_cons byte _
  | cons c left ih =>
    cases right with
    | nil => exact absurd hlt (List.not_lt_nil _)
    | cons d right =>
      rw [List.flatMap_cons, List.flatMap_cons]
      obtain hchar | ⟨rfl, hrest⟩ := List.cons_lt_cons_iff.mp hlt
      · exact charBytes_append_lt hchar _ _
      · exact List.append_left_lt (ih hrest)

/-! ## Texts -/

variable {left right : String} {order : Ordering}

theorem strictMono_codePoints : StrictMono codePoints := by
  intro left right hlt
  apply List.map_lt _ (String.lt_iff_toList_lt.mp hlt)
  intro c d hchar
  exact hchar

theorem strictMono_bytes : StrictMono bytes := by
  intro left right hlt
  rw [bytes_eq_flatMap, bytes_eq_flatMap]
  exact flatMap_charBytes_lt (String.lt_iff_toList_lt.mp hlt)

theorem compares_codePoints_iff :
    order.Compares (codePoints left) (codePoints right) ↔ order.Compares left right :=
  strictMono_codePoints.compares

/-- Texts are ordered by their bytes as they are by their code points. -/
theorem compares_bytes_iff :
    order.Compares (bytes left) (bytes right) ↔
      order.Compares (codePoints left) (codePoints right) := by
  rw [compares_codePoints_iff]
  exact strictMono_bytes.compares

end LineBasic.Text
