/-
Which texts are amounts.

The reader of amounts splits a text at its point, checks both parts, and hands the whole text to a
reader of decimals that would take more than it should: a sign, underscores, a bare point. What is
read in the end is described here without either of them (`exists_read_iff`): blanks aside, a text
is an amount if it is spelled as one (`Spells`), not all of its digits are zeros, and its number is
less than the largest coefficient and a half.

The last condition is where the two readers meet. A digit in front of the point that does not fit is
an error, and one behind it is rounded, which is an error only if the carry has nowhere to go: at
the largest coefficient, before any digit behind the point was kept (`exists_readFraction_iff`). In
terms of the number that is written, both are one bound (`exists_readWhole_iff`).
-/
import WalletLedger.Proofs.Numerals

set_option autoImplicit false

namespace WalletLedger

/-! ## 1. Blanks around a text -/

namespace Text

/-- Some characters are all blank. -/
def AreBlank (cs : List Char) : Prop := ∀ c ∈ cs, isBlank c = true

instance (cs : List Char) : Decidable (AreBlank cs) := List.decidableBAll _ cs

theorem areBlank_nil : AreBlank [] := nofun

/-- What is trimmed away is blank. -/
theorem exists_eq_trim (cs : List Char) :
    ∃ before after, cs = before ++ trim cs ++ after ∧ AreBlank before ∧ AreBlank after := by
  refine ⟨cs.takeWhile isBlank, ((cs.dropWhile isBlank).reverse.takeWhile isBlank).reverse,
    ?_, fun c hc => List.mem_takeWhile_imp hc,
    fun c hc => List.mem_takeWhile_imp (List.mem_reverse.1 hc)⟩
  rw [trim, List.append_assoc, ← List.reverse_append, List.takeWhile_append_dropWhile,
    List.reverse_reverse, List.takeWhile_append_dropWhile]

/-- Dropping blanks stops at once in front of another character. -/
theorem dropWhile_isBlank {cs : List Char} (hne : cs ≠ []) (hfirst : isBlank (cs.head hne) = false)
    (rest : List Char) : (cs ++ rest).dropWhile isBlank = cs ++ rest := by
  cases cs with
  | nil => exact absurd rfl hne
  | cons c cs => exact List.dropWhile_cons_of_neg (by simpa using hfirst)

/-- **Blanks are trimmed away,** and nothing more of a text that begins and ends with others. -/
theorem trim_of_ends {before cs after : List Char} (hbefore : AreBlank before)
    (hafter : AreBlank after) (hne : cs ≠ []) (hfirst : isBlank (cs.head hne) = false)
    (hlast : isBlank (cs.getLast hne) = false) : trim (before ++ cs ++ after) = cs := by
  have hreverse : cs.reverse ≠ [] := List.reverse_ne_nil_iff.2 hne
  have hend := dropWhile_isBlank hreverse (by rwa [List.head_reverse]) []
  rw [List.append_nil] at hend
  rw [trim, List.append_assoc, List.dropWhile_append_of_pos hbefore, dropWhile_isBlank hne hfirst,
    List.reverse_append, List.dropWhile_append_of_pos fun c hc => hafter c (List.mem_reverse.1 hc),
    hend, List.reverse_reverse]

theorem isBlank_of_isDigit {c : Char} (h : c.isDigit = true) : isBlank c = false := by
  have hc : '0'.toNat ≤ c.toNat ∧ c.toNat ≤ '9'.toNat := by
    simpa [Char.isDigit, UInt32.le_iff_toNat_le] using h
  have h0 : '0'.toNat = 48 := rfl
  have h9 : '9'.toNat = 57 := rfl
  rw [← Bool.not_eq_true]
  simp only [isBlank, Bool.or_eq_true, Bool.and_eq_true, decide_eq_true_eq, beq_iff_eq]
  omega

end Text

instance (cs : List Char) : Decidable (AreDigits cs) := List.decidableBAll _ cs

namespace Amount

/-! ## 2. The spelling of an amount -/

/-- **How an amount is spelled** in a currency: with digits, and if the currency has fractional
digits, with a point and more digits behind it, no more than the currency has. -/
inductive Spells (precision : Nat) : List Char → Prop
  | whole {whole : List Char} :
      whole ≠ [] → AreDigits whole → Spells precision whole
  | fractional {whole fraction : List Char} :
      whole ≠ [] → AreDigits whole → fraction ≠ [] → AreDigits fraction →
        fraction.length ≤ precision → Spells precision (whole ++ '.' :: fraction)

variable {precision : Nat} {cs whole fraction : List Char}

theorem splitPoint_digits (h : AreDigits whole) : splitPoint whole precision = .ok (whole, []) := by
  have hwhole : ∀ c ∈ whole, decide (c ≠ '.') = true := fun c hc => h.ne_point hc
  rw [splitPoint, List.dropWhile_eq_nil_iff.2 hwhole, List.takeWhile_eq_self_iff.2 hwhole]

theorem splitPoint_point (h : AreDigits whole) :
    splitPoint (whole ++ '.' :: fraction) precision =
      if whole = [] then .error .missingWhole
      else if fraction = [] then .error .missingFraction
      else if precision = 0 then .error .pointInWhole
      else .ok (whole, fraction) := by
  have hwhole : ∀ c ∈ whole, decide (c ≠ '.') = true := fun c hc => h.ne_point hc
  have htake : (whole ++ '.' :: fraction).takeWhile (· ≠ '.') = whole := by
    rw [List.takeWhile_append_of_pos hwhole, List.takeWhile_cons_of_neg (by decide),
      List.append_nil]
  have hdrop : (whole ++ '.' :: fraction).dropWhile (· ≠ '.') = '.' :: fraction := by
    rw [List.dropWhile_append_of_pos hwhole, List.dropWhile_cons_of_neg (by decide)]
  rw [splitPoint, htake, hdrop]

/-- An amount begins and ends with a digit. -/
theorem Spells.ends (h : Spells precision cs) :
    ∃ hne : cs ≠ [], (cs.head hne).isDigit = true ∧ (cs.getLast hne).isDigit = true := by
  cases h with
  | whole hne h => exact ⟨hne, h _ (List.head_mem hne), h _ (List.getLast_mem hne)⟩
  | fractional hwhole h hfraction h' _ =>
    refine ⟨List.append_ne_nil_of_left_ne_nil hwhole _, ?_, ?_⟩
    · rw [List.head_append_of_ne_nil hwhole]
      exact h _ (List.head_mem hwhole)
    · rw [List.getLast_append_of_ne_nil _ (List.cons_ne_nil _ _), List.getLast_cons hfraction]
      exact h' _ (List.getLast_mem hfraction)

/-- So nothing of it is trimmed away, whatever blanks are around it. -/
theorem Spells.trim {before after : List Char} (h : Spells precision cs)
    (hbefore : Text.AreBlank before) (hafter : Text.AreBlank after) :
    Text.trim (before ++ cs ++ after) = cs := by
  obtain ⟨hne, hfirst, hlast⟩ := h.ends
  exact Text.trim_of_ends hbefore hafter hne (Text.isBlank_of_isDigit hfirst)
    (Text.isBlank_of_isDigit hlast)

theorem Spells.trim_self (h : Spells precision cs) : Text.trim cs = cs := by
  simpa only [List.nil_append, List.append_nil] using h.trim Text.areBlank_nil Text.areBlank_nil

/-- **What the checks let pass** are the texts that are spelled as amounts. -/
theorem exists_accepts_iff :
    (∃ whole fraction, Accepts cs precision whole fraction) ↔ Spells precision cs := by
  constructor
  · rintro ⟨whole, fraction, h⟩
    rcases splitPoint_ok h.split with ⟨rfl, rfl⟩ | rfl
    · exact .whole h.ne_nil h.digits.1
    · have hsplit := h.split
      rw [splitPoint_point h.digits.1] at hsplit
      split_ifs at hsplit with hwhole hfraction hprecision
      exact .fractional hwhole h.digits.1 hfraction h.digits.2 h.precise
  · intro h
    have hunsigned : cs.head? ≠ some '-' ∧ cs.head? ≠ some '+' := by
      obtain ⟨hne, hfirst, -⟩ := h.ends
      rw [List.head?_eq_some_head hne, Ne, Ne, Option.some.injEq, Option.some.injEq]
      constructor <;>
      · intro hsign
        rw [hsign] at hfirst
        exact absurd hfirst (by decide)
    cases h with
    | whole hne h =>
      exact ⟨cs, [], hne, hunsigned, splitPoint_digits h, ⟨h, nofun⟩, Nat.zero_le _⟩
    | fractional hwhole h hfraction h' hlength =>
      refine ⟨_, _, List.append_ne_nil_of_left_ne_nil hwhole _, hunsigned, ?_, ⟨h, h'⟩, hlength⟩
      have hprecision : precision ≠ 0 := by
        have := List.length_pos_iff.2 hfraction
        omega
      rw [splitPoint_point h, if_neg hwhole, if_neg hfraction, if_neg hprecision]

end Amount

/-! ## 3. What the reader of decimals refuses -/

namespace Decimal

theorem le_ofDigitChars (cs : List Char) (n : Nat) : n ≤ Nat.ofDigitChars 10 cs n := by
  rw [Nat.ofDigitChars_eq_ofDigitChars_zero]
  exact (Nat.le_mul_of_pos_left n (Nat.pow_pos (by decide))).trans (Nat.le_add_right _ _)

/-- Digits in front of the point are read if their number is in range. -/
theorem readWhole_append {m : Magnitude} {cs : List Char} (rest : List Char) (seen : Bool)
    (hcs : AreDigits cs) (h : Nat.ofDigitChars 10 cs m.n < pow2 96) :
    ∃ m₁, m₁.n = Nat.ofDigitChars 10 cs m.n ∧ m₁.s = m.s ∧
      readWhole m seen (cs ++ rest) = readWhole m₁ (seen || !cs.isEmpty) rest := by
  induction cs generalizing m seen with
  | nil => exact ⟨m, rfl, rfl, by simp only [List.nil_append, List.isEmpty_nil, Bool.not_true,
      Bool.or_false]⟩
  | cons c cs ih =>
    have hc := digit?_of_isDigit hcs.cons.1
    rw [Nat.ofDigitChars_cons, Nat.mul_comm 10] at h
    have hn : m.n * 10 + (c.toNat - '0'.toNat) < pow2 96 := (le_ofDigitChars cs _).trans_lt h
    obtain ⟨m₁, hn₁, hs₁, hread⟩ := ih (m := ⟨_, m.s, hn, m.s_le⟩) true hcs.cons.2 h
    refine ⟨m₁, ?_, hs₁, ?_⟩
    · rw [hn₁, Nat.ofDigitChars_cons, Nat.mul_comm 10]
    · simp only [List.cons_append, readWhole, hc, hn, ↓reduceDIte, hread, Bool.true_or,
        List.isEmpty_cons, Bool.not_false, Bool.or_true]

/-- **Rounding fails** only if the carry has nowhere to go. -/
theorem exists_roundBy_iff {m : Magnitude} {d : Nat} :
    (∃ m', m.roundBy d = .ok m') ↔ d < 5 ∨ m.n + 1 < pow2 96 ∨ m.s ≠ 0 := by
  rw [Magnitude.roundBy]
  split_ifs with hdown hfits hzero <;> simp_all

/-- Once a digit behind the point has been kept, the others cannot fail. -/
theorem exists_readFraction {m : Magnitude} {cs : List Char} (hcs : AreDigits cs) (hs : m.s ≠ 0) :
    ∃ m', readFraction m true cs = .ok m' := by
  induction cs generalizing m with
  | nil => exact ⟨m, rfl⟩
  | cons c cs ih =>
    have hc := digit?_of_isDigit hcs.cons.1
    have hround := (exists_roundBy_iff (d := c.toNat - '0'.toNat)).2 (.inr (.inr hs))
    simp only [readFraction, hc]
    split_ifs with hlt hn
    · exact ih hcs.cons.2 (Nat.succ_ne_zero m.s)
    · exact hround
    · exact hround

/-- **Behind the point reading fails** only at the first digit, if it would be rounded up from the
largest coefficient. -/
theorem exists_readFraction_iff {m : Magnitude} {c : Char} {cs : List Char}
    (hcs : AreDigits (c :: cs)) (seen : Bool) (hs : m.s = 0) :
    (∃ m', readFraction m seen (c :: cs) = .ok m') ↔
      c.toNat - '0'.toNat < 5 ∨ m.n + 1 < pow2 96 := by
  have hc := digit?_of_isDigit hcs.cons.1
  have hlt : m.s < 28 := by omega
  have hmax : 1 < pow2 96 := by decide
  simp only [readFraction, hc, hlt, ↓reduceDIte]
  split_ifs with hn
  · exact iff_of_true (exists_readFraction hcs.cons.2 (Nat.succ_ne_zero m.s)) (.inr (by omega))
  · rw [exists_roundBy_iff, or_iff_left (not_not.2 hs)]

end Decimal

namespace Amount

open Decimal

variable {precision : Nat} {cs whole fraction : List Char}

/-! ## 4. The bound -/

/-- A whole number is in range just if it is less than the bound. -/
theorem cast_lt_iff {n : Nat} : (n : ℚ) < 2 ^ 96 - 1 / 2 ↔ n < pow2 96 := by
  constructor
  · intro h
    have hlt : (n : ℚ) < (pow2 96 : Nat) := h.trans (by norm_num [pow2])
    exact_mod_cast hlt
  · intro h
    have hle : ((n + 1 : Nat) : ℚ) ≤ (pow2 96 : Nat) := by exact_mod_cast h
    rw [show pow2 96 = 2 ^ 96 from rfl] at hle
    push_cast at hle
    linarith

/-- The first digit behind the point says between which tenths the number is. -/
theorem fraction_bounds {c : Char} (h : AreDigits (c :: cs)) :
    ((c.toNat - '0'.toNat : Nat) : ℚ) / 10 ≤
        (Nat.ofDigitChars 10 (c :: cs) 0 : Nat) / 10 ^ (c :: cs).length ∧
      ((Nat.ofDigitChars 10 (c :: cs) 0 : Nat) : ℚ) / 10 ^ (c :: cs).length <
        ((c.toNat - '0'.toNat : Nat) + 1) / 10 := by
  have hrest := ofDigitChars_lt h.cons.2
  rw [Nat.ofDigitChars_cons, Nat.ofDigitChars_eq_ofDigitChars_zero, Nat.mul_zero, Nat.zero_add,
    List.length_cons, pow_succ]
  generalize c.toNat - '0'.toNat = d
  generalize Nat.ofDigitChars 10 cs 0 = r at hrest
  have hpos := ten_pow_pos cs.length
  have hrest' : (r : ℚ) < 10 ^ cs.length := by exact_mod_cast hrest
  constructor
  · rw [div_le_div_iff₀ (by norm_num) (by positivity)]
    push_cast
    nlinarith
  · rw [div_lt_div_iff₀ (by positivity) (by norm_num)]
    push_cast
    nlinarith

/-- **The bound, digit by digit:** a number is below it if its whole part is in range, and is less
than the largest coefficient or has a first digit behind the point that is rounded down. -/
theorem add_fraction_lt_iff {n d : Nat} {f : ℚ} (hd : d < 10) (hlow : (d : ℚ) / 10 ≤ f)
    (hhigh : f < (d + 1) / 10) :
    n + f < 2 ^ 96 - 1 / 2 ↔ n < pow2 96 ∧ (d < 5 ∨ n + 1 < pow2 96) := by
  have hnonneg : (0 : ℚ) ≤ d / 10 := by positivity
  constructor
  · intro h
    have hn : n < pow2 96 := cast_lt_iff.1 (by linarith)
    refine ⟨hn, ?_⟩
    by_contra hnot
    rw [not_or, not_lt, not_lt, show pow2 96 = 2 ^ 96 from rfl] at hnot
    have hfive : (5 : ℚ) ≤ d := by exact_mod_cast hnot.1
    have hlargest : (2 : ℚ) ^ 96 ≤ n + 1 := by exact_mod_cast hnot.2
    linarith
  · rw [show pow2 96 = 2 ^ 96 from rfl]
    rintro ⟨hn, hdown | hsmall⟩
    · have hn' : (n : ℚ) + 1 ≤ 2 ^ 96 := by exact_mod_cast hn
      have hfour : (d : ℚ) + 1 ≤ 5 := by exact_mod_cast hdown
      linarith
    · have hnine : (d : ℚ) + 1 ≤ 10 := by exact_mod_cast hd
      have hsmall' : (n : ℚ) + 1 + 1 ≤ 2 ^ 96 := by exact_mod_cast hsmall
      linarith

/-- Digits in front of the point that are read have a number in range. -/
theorem lt_of_readWhole {m : Magnitude} {rest : List Char} (h : AreDigits whole)
    (hm : readWhole .zero false (whole ++ rest) = .ok m) :
    Nat.ofDigitChars 10 whole 0 < pow2 96 := by
  obtain ⟨m₁, -, hn, -⟩ := readWhole_digits h hm
  exact hn ▸ m₁.n_lt

/-- Digits alone are read if their number is in range. -/
theorem exists_readWhole_digits_iff (hne : whole ≠ []) (h : AreDigits whole) :
    (∃ m, readWhole .zero false whole = .ok m) ↔ Nat.ofDigitChars 10 whole 0 < pow2 96 := by
  constructor
  · rintro ⟨m, hm⟩
    rw [← List.append_nil whole] at hm
    exact lt_of_readWhole h hm
  · intro hlt
    obtain ⟨m₁, -, -, hread⟩ := readWhole_append (m := .zero) [] false h hlt
    rw [List.append_nil, List.isEmpty_eq_false_iff.2 hne] at hread
    exact ⟨m₁, hread⟩

/-- Digits on both sides of a point are read if those in front of it have a number in range, and the
first one behind it can be rounded. -/
theorem exists_readWhole_point_iff {c : Char} (h : AreDigits whole) (h' : AreDigits (c :: cs)) :
    (∃ m, readWhole .zero false (whole ++ '.' :: c :: cs) = .ok m) ↔
      Nat.ofDigitChars 10 whole 0 < pow2 96 ∧
        (c.toNat - '0'.toNat < 5 ∨ Nat.ofDigitChars 10 whole 0 + 1 < pow2 96) := by
  rcases Nat.lt_or_ge (Nat.ofDigitChars 10 whole 0) (pow2 96) with hlt | hge
  · obtain ⟨m₁, hn, hs, hread⟩ := readWhole_append (m := .zero) ('.' :: c :: cs) false h hlt
    have hpoint : digit? '.' = none := rfl
    simp only [hread, readWhole, hpoint, ↓reduceIte]
    rw [exists_readFraction_iff h' _ hs, hn]
    exact (and_iff_right hlt).symm
  · refine iff_of_false ?_ fun hbound => not_lt.2 hge hbound.1
    rintro ⟨m, hm⟩
    exact not_lt.2 hge (lt_of_readWhole h hm)

/-- **What is spelled as an amount is read** if and only if its number is below the bound. -/
theorem exists_readWhole_iff (h : Spells precision cs) :
    (∃ m, readWhole .zero false cs = .ok m) ↔ written cs < 2 ^ 96 - 1 / 2 := by
  cases h with
  | whole hne h =>
    have hnumeral : Numeral cs cs [] := ⟨.inl ⟨rfl, rfl⟩, h, nofun⟩
    rw [hnumeral.written_eq, List.append_nil, List.length_nil, pow_zero, div_one, cast_lt_iff,
      exists_readWhole_digits_iff hne h]
  | @fractional whole fraction hwhole h hfraction h' hlength =>
    have hnumeral : Numeral (whole ++ '.' :: fraction) whole fraction := ⟨.inr rfl, h, h'⟩
    have hsplit : written (whole ++ '.' :: fraction) = (Nat.ofDigitChars 10 whole 0 : Nat) +
        (Nat.ofDigitChars 10 fraction 0 : Nat) / 10 ^ fraction.length := by
      rw [hnumeral.written_eq, Nat.ofDigitChars_append, Nat.ofDigitChars_eq_ofDigitChars_zero,
        Nat.cast_add, Nat.cast_mul, add_div, Nat.cast_pow, Nat.cast_ofNat,
        mul_div_cancel_left₀ _ (ten_pow_ne_zero _)]
    obtain ⟨c, rest, rfl⟩ := List.exists_cons_of_ne_nil hfraction
    obtain ⟨hlow, hhigh⟩ := fraction_bounds h'
    rw [hsplit, exists_readWhole_point_iff h h',
      add_fraction_lt_iff (digit_lt h'.cons.1) hlow hhigh]

/-! ## 5. Zeros -/

theorem digit_eq_zero_iff {c : Char} (h : c.isDigit = true) :
    c.toNat - '0'.toNat = 0 ↔ c = '0' := by
  have hc : '0'.toNat ≤ c.toNat := by
    have hrange : '0'.toNat ≤ c.toNat ∧ c.toNat ≤ '9'.toNat := by
      simpa [Char.isDigit, UInt32.le_iff_toNat_le] using h
    exact hrange.1
  rw [← Char.toNat_inj]
  omega

/-- Digits have the number zero if all of them are zeros. -/
theorem ofDigitChars_eq_zero_iff (h : AreDigits cs) :
    Nat.ofDigitChars 10 cs 0 = 0 ↔ ∀ c ∈ cs, c = '0' := by
  induction cs with
  | nil => simp
  | cons c cs ih =>
    have hten : 10 ^ cs.length ≠ 0 := pow_ne_zero _ (by decide)
    rw [Nat.ofDigitChars_cons, Nat.ofDigitChars_eq_ofDigitChars_zero, Nat.mul_zero, Nat.zero_add,
      Nat.add_eq_zero_iff, ih h.cons.2, Nat.mul_eq_zero, or_iff_right hten,
      digit_eq_zero_iff h.cons.1, List.forall_mem_cons]

/-- **A number is positive** if one of its digits is not a zero. -/
theorem written_pos_iff (h : Numeral cs whole fraction) :
    0 < written cs ↔ ∃ c ∈ cs, c.isDigit = true ∧ c ≠ '0' := by
  have hdigits : AreDigits (whole ++ fraction) := List.forall_mem_append.2 ⟨h.whole, h.fraction⟩
  have hmem : ∀ c : Char, c.isDigit = true → (c ∈ cs ↔ c ∈ whole ++ fraction) := by
    intro c hc
    rcases h.spelled with ⟨rfl, rfl⟩ | rfl
    · rw [List.append_nil]
    · have hpoint : c ≠ '.' := fun heq => absurd (heq ▸ hc) (by decide)
      simp [hpoint]
  rw [h.written_eq, lt_div_iff₀ (ten_pow_pos _), zero_mul, Nat.cast_pos, Nat.pos_iff_ne_zero, Ne,
    ofDigitChars_eq_zero_iff hdigits]
  constructor
  · intro hnot
    push Not at hnot
    obtain ⟨c, hc, hzero⟩ := hnot
    exact ⟨c, (hmem c (hdigits c hc)).2 hc, hdigits c hc, hzero⟩
  · rintro ⟨c, hc, hdigit, hzero⟩ hall
    exact hzero (hall c ((hmem c hdigit).1 hc))

/-- **What was read of a positive number is positive,** if it is written with no more digits behind
the point than a decimal may have: where it is small, it is a decimal. -/
theorem pos_of_reads {m : Magnitude} {n k : Nat} (hk : k ≤ 28) (hn : 0 < n)
    (h : m.Reads (n / 10 ^ k)) : 0 < m.toRat := by
  have hnonneg : 0 ≤ m.toRat := by
    rw [Magnitude.toRat]
    positivity
  refine lt_of_le_of_ne hnonneg fun hzero => ?_
  have hx : (0 : ℚ) < n / 10 ^ k := div_pos (by exact_mod_cast hn) (ten_pow_pos k)
  have hnear := h.near
  rw [← hzero, zero_sub, abs_neg, abs_of_pos hx] at hnear
  -- A number that was read as zero is at most a half, so its digits are few.
  have hhalf : (n : ℚ) / 10 ^ k ≤ 1 := by
    refine hnear.trans ((div_le_self (by norm_num) ?_).trans (by norm_num))
    exact one_le_pow₀ (by norm_num)
  have hlt : n < pow2 96 := by
    rw [div_le_one (ten_pow_pos k)] at hhalf
    have hle : n ≤ 10 ^ k := by exact_mod_cast hhalf
    exact (hle.trans (Nat.pow_le_pow_right (by decide) hk)).trans_lt (by decide)
  have hdecimal : IsDecimal (n / 10 ^ k) :=
    ⟨⟨n, k, by simpa using hlt, hk⟩, by rw [toRat_eq, Int.cast_natCast]⟩
  exact hx.ne (hzero.trans (h.exact hdecimal))

/-! ## 6. Amounts -/

/-- **A text is an amount** of a currency. -/
structure IsAmount (precision : Nat) (cs : List Char) : Prop where
  spelled : Spells precision cs
  positive : ∃ c ∈ cs, c.isDigit = true ∧ c ≠ '0'
  bounded : written cs < 2 ^ 96 - 1 / 2

/-- What is read of a text that was accepted is not zero, unless the number is. -/
theorem isZero_signed_iff {m : Magnitude} (h : Numeral cs whole fraction)
    (hlength : fraction.length ≤ 28) (hread : readWhole .zero false cs = .ok m) :
    (m.signed false).isZero = false ↔ ∃ c ∈ cs, c.isDigit = true ∧ c ≠ '0' := by
  have hreads := reads_of_readWhole h hread
  rw [← Bool.not_eq_true, isZero_iff, Magnitude.toRat_signed, ← written_pos_iff h]
  constructor
  · intro hne
    refine lt_of_le_of_ne ?_ fun hzero => hne ?_
    · rw [h.written_eq]
      positivity
    · rw [← hzero] at hreads
      exact hreads.exact ⟨.zero, toRat_zero⟩
  · intro hpos
    rw [h.written_eq] at hreads hpos
    have hn : 0 < Nat.ofDigitChars 10 (whole ++ fraction) 0 := by
      rw [lt_div_iff₀ (ten_pow_pos _), zero_mul] at hpos
      exact_mod_cast hpos
    exact (pos_of_reads hlength hn hreads).ne'

/-- What is left of a text without the blanks around it decides. -/
theorem exists_read_trim_iff {text : String} (hp : precision ≤ 28) :
    (∃ value, read text precision = .ok value) ↔ IsAmount precision (Text.trim text.toList) := by
  constructor
  · rintro ⟨value, h⟩
    obtain ⟨whole, fraction, haccepts, hread, hzero⟩ := read_eq_ok_iff.1 h
    obtain ⟨m, hm, rfl⟩ := (ofChars?_eq_ok_iff haccepts.unsigned).1 hread
    have hspelled := exists_accepts_iff.1 ⟨whole, fraction, haccepts⟩
    exact ⟨hspelled,
      (isZero_signed_iff haccepts.numeral (haccepts.precise.trans hp) hm).1 hzero,
      (exists_readWhole_iff hspelled).1 ⟨m, hm⟩⟩
  · intro h
    obtain ⟨whole, fraction, haccepts⟩ := exists_accepts_iff.2 h.spelled
    obtain ⟨m, hm⟩ := (exists_readWhole_iff h.spelled).2 h.bounded
    exact ⟨m.signed false, read_eq_ok_iff.2 ⟨whole, fraction, haccepts,
      (ofChars?_eq_ok_iff haccepts.unsigned).2 ⟨m, hm, rfl⟩,
      (isZero_signed_iff haccepts.numeral (haccepts.precise.trans hp) hm).2 h.positive⟩⟩

/-- **Which texts are read as amounts:** those that are one between blanks, in every currency with
no more fractional digits than a decimal may have. -/
theorem exists_read_iff (text : String) (hp : precision ≤ 28) :
    (∃ value, read text precision = .ok value) ↔
      ∃ before cs after, text.toList = before ++ cs ++ after ∧
        Text.AreBlank before ∧ Text.AreBlank after ∧ IsAmount precision cs := by
  rw [exists_read_trim_iff hp]
  constructor
  · intro h
    obtain ⟨before, after, htext, hbefore, hafter⟩ := Text.exists_eq_trim text.toList
    exact ⟨before, _, after, htext, hbefore, hafter, h⟩
  · rintro ⟨before, cs, after, htext, hbefore, hafter, h⟩
    rwa [htext, h.spelled.trim hbefore hafter]

/-- The largest coefficient is read with one more digit that is rounded down. -/
theorem exists_read_overfull :
    1 ≤ 28 ∧ ∃ value, read ("\t" ++ overfull ++ " ") 1 = .ok value := by
  have hamount : IsAmount 1 overfull.toList := by
    have hspelled : Spells 1 ("79228162514264337593543950335".toList ++ '.' :: ['4']) :=
      .fractional (by decide) (by decide) (by decide) (by decide) (by decide)
    exact ⟨hspelled, ⟨'7', by decide +kernel, by decide +kernel, by decide⟩, by decide +kernel⟩
  refine ⟨by decide, (exists_read_iff _ (by decide)).2 ⟨['\t'], _, [' '], ?_, ?_, ?_, hamount⟩⟩
  · decide +kernel
  · decide +kernel
  · decide +kernel

end Amount

end WalletLedger
