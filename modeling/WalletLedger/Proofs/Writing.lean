/-
What is written is read back.

A value is written with a fixed number of places. Digits beyond them are cut off, and missing ones
are zeros, so a text may have more digits than a decimal can hold, as many as the places ask for. It
is read back as the value all the same (`read_format`), if no digit of the value was cut off: a text
that is spelled as an amount and whose number is a decimal is read as that decimal (`read_spelled`),
and zeros at the end change neither (`written_placedChars`).

Whether there is room for the digits (`digitsWritten`) matters only for there being a text
(`format?`). What the text spells does not depend on it, and the number of places is not bounded by
the 28 that decimals have.
-/
import WalletLedger.Proofs.Liquidity
import WalletLedger.Proofs.Spellings

set_option autoImplicit false

namespace WalletLedger

namespace Decimal

/-! ## 1. Cutting off -/

/-- **Nothing is cut off** of a value that has no more fractional digits. -/
theorem toRat_truncate {a : Decimal} {places : Nat} (h : a.OnGrid places) :
    (a.truncate places).toRat = a.toRat := by
  unfold truncate
  split_ifs with hscale
  · rfl
  · obtain ⟨n, hn⟩ := h
    have hgrid : a.coeff * pow10 places = n * pow10 a.scale := by
      have hq : ((a.coeff * pow10 places : Int) : ℚ) = ((n * pow10 a.scale : Int) : ℚ) := by
        rw [Int.cast_mul, Int.cast_mul, Int.cast_natCast, Int.cast_natCast, pow10_cast, pow10_cast,
          coeff_eq, ← hn]
        ring
      exact_mod_cast hq
    have hcut : (a.coeff.tdiv (pow10 (a.scale - places)) : ℚ) * 10 ^ (a.scale - places) =
        a.coeff := by
      rw [← pow10_cast]
      exact_mod_cast Int.tdiv_mul_cancel (dvd_of_grid hgrid)
    rw [toRat_eq, toRat_eq, ← hcut, div_eq_div_iff (ten_pow_ne_zero _) (ten_pow_ne_zero _),
      mul_assoc, ← pow_add, Nat.sub_add_cancel (Nat.le_of_not_le hscale)]

theorem scale_truncate_le (a : Decimal) (places : Nat) : (a.truncate places).scale ≤ places := by
  unfold truncate
  split_ifs with hscale
  · exact hscale
  · exact le_rfl

/-! ## 2. Digits -/

theorem areDigits_digitsAtLeast (width n : Nat) : AreDigits (digitsAtLeast width n) := by
  intro c hc
  rw [digitsAtLeast, List.leftpad, List.mem_append] at hc
  rcases hc with hc | hc
  · rw [List.eq_of_mem_replicate hc]
    rfl
  · exact Nat.isDigit_of_mem_toDigits (by decide) (by decide) hc

/-- Zeros in front of a number change nothing. -/
theorem ofDigitChars_digitsAtLeast (width n : Nat) :
    Nat.ofDigitChars 10 (digitsAtLeast width n) 0 = n := by
  rw [digitsAtLeast, List.leftpad, Nat.ofDigitChars_append, Nat.ofDigitChars_replicate_zero,
    Nat.mul_zero, Nat.ofDigitChars_ten_toDigits]

theorem length_digitsAtLeast (width n : Nat) : width ≤ (digitsAtLeast width n).length := by
  rw [digitsAtLeast, List.length_leftpad]
  exact le_max_left _ _

/-! ## 3. The two parts of a written number -/

/-- The digits in front of the point. -/
def wholeDigits (n s : Nat) : List Char :=
  (digitsAtLeast (s + 1) n).take ((digitsAtLeast (s + 1) n).length - s)

/-- The digits behind the point, with zeros up to so many places. -/
def placeDigits (n s places : Nat) : List Char :=
  (digitsAtLeast (s + 1) n).drop ((digitsAtLeast (s + 1) n).length - s) ++
    List.replicate (places - s) '0'

/-- The text of a number without a sign, with zeros up to so many places. -/
def placedChars (n s places : Nat) : List Char :=
  unsignedChars n s ++ (if s = 0 && 0 < places then ['.'] else []) ++
    List.replicate (places - s) '0'

variable {n s places : Nat}

theorem wholeDigits_ne_nil : wholeDigits n s ≠ [] := by
  have hlength := length_digitsAtLeast (s + 1) n
  rw [wholeDigits, ← List.length_pos_iff, List.length_take]
  omega

theorem areDigits_wholeDigits : AreDigits (wholeDigits n s) :=
  fun c hc => areDigits_digitsAtLeast (s + 1) n c (List.mem_of_mem_take hc)

theorem areDigits_placeDigits : AreDigits (placeDigits n s places) := by
  intro c hc
  rcases List.mem_append.1 hc with hc | hc
  · exact areDigits_digitsAtLeast (s + 1) n c (List.mem_of_mem_drop hc)
  · rw [List.eq_of_mem_replicate hc]
    rfl

theorem length_placeDigits (hs : s ≤ places) : (placeDigits n s places).length = places := by
  have hlength := length_digitsAtLeast (s + 1) n
  rw [placeDigits, List.length_append, List.length_drop, List.length_replicate]
  omega

/-- **Zeros at the end multiply** the number of all digits by a power of ten. -/
theorem ofDigitChars_parts :
    Nat.ofDigitChars 10 (wholeDigits n s ++ placeDigits n s places) 0 = 10 ^ (places - s) * n := by
  rw [wholeDigits, placeDigits, ← List.append_assoc, List.take_append_drop,
    Nat.ofDigitChars_append, ofDigitChars_digitsAtLeast, Nat.ofDigitChars_replicate_zero]

/-- **The two parts,** with a point between them unless there are no places. -/
theorem placedChars_eq (hs : s ≤ places) :
    placedChars n s places =
      if places = 0 then wholeDigits n s else wholeDigits n s ++ '.' :: placeDigits n s places := by
  rw [placedChars, unsignedChars, wholeDigits, placeDigits]
  by_cases hpoint : s = 0
  · subst hpoint
    by_cases hplaces : places = 0
    · simp [hplaces]
    · simp [hplaces, Nat.pos_of_ne_zero hplaces]
  · have hplaces : places ≠ 0 := by omega
    simp [hpoint, hplaces]

/-- **A written number is spelled as an amount.** -/
theorem spells_placedChars (hs : s ≤ places) : Amount.Spells places (placedChars n s places) := by
  rw [placedChars_eq hs]
  split_ifs with hplaces
  · exact .whole wholeDigits_ne_nil areDigits_wholeDigits
  · refine .fractional wholeDigits_ne_nil areDigits_wholeDigits ?_ areDigits_placeDigits
      (length_placeDigits hs).le
    rwa [← List.length_pos_iff, length_placeDigits hs, Nat.pos_iff_ne_zero]

/-- **A written number is the number.** -/
theorem written_placedChars (hs : s ≤ places) :
    written (placedChars n s places) = n / 10 ^ s := by
  have hnumeral : Numeral (placedChars n s places) (wholeDigits n s) (placeDigits n s places) := by
    refine ⟨?_, areDigits_wholeDigits, areDigits_placeDigits⟩
    rw [placedChars_eq hs]
    split_ifs with hplaces
    · refine .inl ⟨rfl, ?_⟩
      rw [← List.length_eq_zero_iff, length_placeDigits hs, hplaces]
    · exact .inr rfl
  rw [hnumeral.written_eq, ofDigitChars_parts, length_placeDigits hs,
    div_eq_div_iff (ten_pow_ne_zero _) (ten_pow_ne_zero _)]
  obtain ⟨k, rfl⟩ := Nat.exists_eq_add_of_le hs
  rw [Nat.add_sub_cancel_left, pow_add]
  push_cast
  ring

end Decimal

namespace Amount

open Decimal

/-! ## 4. Reading back -/

/-- **A decimal that is spelled as an amount is read.** -/
theorem read_spelled {text : String} {precision : Nat} {d : Decimal}
    (h : Spells precision (Text.trim text.toList)) (hd : written (Text.trim text.toList) = d.toRat)
    (hpos : 0 < d.toRat) : ∃ value, read text precision = .ok value ∧ value.toRat = d.toRat := by
  have hbound := (abs_lt.1 d.abs_toRat_lt).2
  obtain ⟨m, hm⟩ := (exists_readWhole_iff h).2 (hd ▸ hbound)
  obtain ⟨whole, fraction, haccepts⟩ := exists_accepts_iff.2 h
  have hexact := (reads_of_readWhole haccepts.numeral hm).exact ⟨d, hd.symm⟩
  have hvalue : (m.signed false).toRat = d.toRat := by rw [Magnitude.toRat_signed, hexact, hd]
  refine ⟨m.signed false, read_eq_ok_iff.2 ⟨whole, fraction, haccepts,
    (ofChars?_eq_ok_iff haccepts.unsigned).2 ⟨m, hm, rfl⟩, ?_⟩, hvalue⟩
  rw [← Bool.not_eq_true, isZero_iff, hvalue]
  exact hpos.ne'

/-- What is written of a positive value. -/
theorem toList_format {v : Decimal} (hv : v.isPositive = true) (places : Nat) :
    (format v places).toList =
      placedChars (v.truncate places).coeff.natAbs (v.truncate places).scale places := by
  have hsign : v.isNegative = false := by
    rw [isNegative_eq_false_iff]
    exact ((isPositive_iff v).1 hv).le
  rw [format, toFixed, String.toList_ofList, fixedChars, signChars, hsign]
  rfl

/-- What the digits of a value spell is read back as the same number, if the places are enough. -/
theorem read_toFixed {v : Decimal} {precision : Nat} (hv : v.isPositive = true)
    (hprecision : v.normalize.scale ≤ precision) :
    ∃ w, read (format v precision) precision = .ok w ∧ w.sameValue v = true := by
  have hpos := (isPositive_iff v).1 hv
  have hscale := scale_truncate_le v precision
  have hvalue := toRat_truncate (onGrid_of_normalize hprecision)
  have hspells := spells_placedChars (n := (v.truncate precision).coeff.natAbs) hscale
  have htrim : Text.trim (format v precision).toList =
      placedChars (v.truncate precision).coeff.natAbs (v.truncate precision).scale precision := by
    rw [toList_format hv, hspells.trim_self]
  have hwritten : written (Text.trim (format v precision).toList) = v.toRat := by
    have hcoeff : (0 : ℚ) ≤ (v.truncate precision).coeff := by
      rw [coeff_eq, hvalue]
      exact mul_nonneg hpos.le (ten_pow_pos _).le
    rw [htrim, written_placedChars hscale, Nat.cast_natAbs, Int.cast_abs, abs_of_nonneg hcoeff,
      ← toRat_eq, hvalue]
  obtain ⟨w, hread, hw⟩ := read_spelled (htrim ▸ hspells) hwritten hpos
  exact ⟨w, hread, (sameValue_iff w v).2 hw⟩

/-- **What is written is read back.** A positive value for which there is room is written, and what
is written is read as the same number, if the places are enough for it. -/
theorem read_format {v : Decimal} {precision : Nat} (hv : v.isPositive = true)
    (hprecision : v.normalize.scale ≤ precision) (hroom : digitsWritten v precision ≤ 31) :
    ∃ text w, format? v precision = some text ∧ read text precision = .ok w ∧
      w.sameValue v = true := by
  obtain ⟨w, hread, hw⟩ := read_toFixed hv hprecision
  exact ⟨format v precision, w, if_pos hroom, hread, hw⟩

/-- The largest coefficient with the most digits behind the point, and two zeros more. -/
theorem read_format_largest :
    let v : Decimal := ⟨79228162514264337593543950335, 28, by decide, by decide⟩
    v.isPositive = true ∧ v.normalize.scale ≤ 30 ∧ digitsWritten v 30 ≤ 31 ∧
      ∃ text w, format? v 30 = some text ∧ read text 30 = .ok w ∧ w.sameValue v = true := by
  intro v
  have hpos : v.isPositive = true := by decide
  have hscale : v.normalize.scale ≤ 30 := by decide +kernel
  have hroom : digitsWritten v 30 ≤ 31 := by decide +kernel
  exact ⟨hpos, hscale, hroom, read_format hpos hscale hroom⟩

end Amount

end WalletLedger
