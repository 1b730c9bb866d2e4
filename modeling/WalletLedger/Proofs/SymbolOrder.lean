/-
The order of symbols is the order of their bytes.

Symbols are compared by their characters here (`symbolLE`), and as sequences of bytes in a database.
The two orders are the same, because UTF-8 keeps the order of characters: where the encodings of
two characters differ first, the smaller character has the smaller byte, and neither encoding begins
with the other (`utf8EncodeChar_append_lt`). So the order carries over to strings, and from there to
the sequences of symbols that routes pass.
-/
import WalletLedger.Routing.Rate
import Mathlib.Data.String.Basic
import Mathlib.Tactic.SplitIfs

set_option autoImplicit false

namespace WalletLedger

theorem symbolLE_iff {a b : String} : symbolLE a b = true ↔ a ≤ b := by
  rw [symbolLE, Bool.not_eq_true', decide_eq_false_iff_not, String.not_lt]

theorem symbolLE_trans {a b c : String} (hab : symbolLE a b = true) (hbc : symbolLE b c = true) :
    symbolLE a c = true :=
  symbolLE_iff.2 (String.le_trans (symbolLE_iff.1 hab) (symbolLE_iff.1 hbc))

theorem symbolLE_total (a b : String) : (symbolLE a b || symbolLE b a) = true := by
  rw [Bool.or_eq_true, symbolLE_iff, symbolLE_iff]
  exact String.le_total a b

/-- **The bytes of a string** in UTF-8. -/
def utf8Bytes (s : String) : List UInt8 := s.toUTF8.data.toList

theorem utf8Bytes_eq (s : String) : utf8Bytes s = s.toList.flatMap String.utf8EncodeChar := by
  rw [utf8Bytes, String.toUTF8_eq_toByteArray, ← String.utf8Encode_toList, List.utf8Encode,
    List.toList_data_toByteArray]

/-- The first digit in which two numbers differ decides, to the base of 64. -/
theorem digits_lt {m n : Nat} (h : m < n) :
    m / 64 < n / 64 ∨ m / 64 = n / 64 ∧ m % 64 < n % 64 := by omega

/-- **UTF-8 keeps the order of characters,** whatever follows them. -/
theorem utf8EncodeChar_append_lt {c d : Char} (h : c < d) (u v : List UInt8) :
    String.utf8EncodeChar c ++ u < String.utf8EncodeChar d ++ v := by
  have hlt : c.val.toNat < d.val.toNat := h
  have hd : d.val.toNat < 0x110000 := by
    have hvalid := d.valid
    simp only [UInt32.isValidChar, Nat.isValidChar] at hvalid
    omega
  unfold String.utf8EncodeChar
  dsimp only
  generalize c.val.toNat = m at *
  generalize d.val.toNat = n at *
  have hquotients : m / 64 / 64 = m / 4096 ∧ m / 4096 / 64 = m / 262144 ∧
      n / 64 / 64 = n / 4096 ∧ n / 4096 / 64 = n / 262144 := by omega
  -- The lengths differ, and then the first bytes do, or the digits decide one by one.
  have hdigits : m / 262144 < n / 262144 ∨ m / 262144 = n / 262144 ∧
      (m / 4096 % 64 < n / 4096 % 64 ∨ m / 4096 % 64 = n / 4096 % 64 ∧
        (m / 64 % 64 < n / 64 % 64 ∨ m / 64 % 64 = n / 64 % 64 ∧ m % 64 < n % 64)) := by
    rcases digits_lt hlt with h₁ | h₁
    · rcases digits_lt h₁ with h₂ | h₂
      · rcases digits_lt h₂ with h₃ | h₃ <;> omega
      · omega
    · omega
  split_ifs <;>
    simp only [List.cons_append, List.nil_append, List.cons_lt_cons_iff, UInt8.lt_iff_toNat_lt,
      ← UInt8.toNat_inj, UInt8.toNat_ofNat'] <;>
    simp (disch := omega) only [Nat.mod_eq_of_lt] <;>
    omega

/-- The smaller string has the smaller bytes. -/
theorem utf8Bytes_lt {a b : String} (h : a < b) : utf8Bytes a < utf8Bytes b := by
  rw [utf8Bytes_eq, utf8Bytes_eq]
  have hlex : List.Lex (· < ·) a.toList b.toList := h
  generalize a.toList = cs at hlex
  generalize b.toList = ds at hlex
  induction hlex with
  | @nil d ds =>
    have hne : (d :: ds).flatMap String.utf8EncodeChar ≠ [] := by simp
    obtain ⟨byte, bytes, hcons⟩ := List.exists_cons_of_ne_nil hne
    rw [hcons]
    exact List.nil_lt_cons byte bytes
  | rel hlt => exact utf8EncodeChar_append_lt hlt _ _
  | cons _ ih => exact List.append_left_lt ih

/-- **The order of symbols is the order of their bytes.** -/
theorem utf8Bytes_lt_iff (a b : String) : utf8Bytes a < utf8Bytes b ↔ a < b := by
  refine ⟨fun h => ?_, utf8Bytes_lt⟩
  rcases lt_trichotomy a b with hlt | rfl | hlt
  · exact hlt
  · exact absurd h (List.lt_irrefl _)
  · exact absurd (utf8Bytes_lt hlt) (List.lt_asymm h)

end WalletLedger
