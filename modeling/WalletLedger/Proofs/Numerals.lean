/-
What is read from a numeral.

An amount that is given as text is a numeral, `digits` or `digits.digits`, and it has a value
whatever its length (`written`). The reader goes through the digits and keeps a coefficient and the
number of fractional digits so far. In front of the point a digit that does not fit is an error. In
the fraction it is not: the first digit that does not fit rounds the rest away, and reading ends as
if the text had been read.

So what is read is the value itself just if a decimal can hold that value (`read_exact_iff`): a
reader that stops has come to a digit beyond the 28th place or beyond 96 bits, and if anything but
zeros follows, no decimal has that value (`rest_eq_zero`). Otherwise it is off, by at most half a
unit of its last digit. The currency's precision does not enter. It bounds the digits of the
fraction, and neither those of the whole number nor their number in total.
-/
import Mathlib.Data.List.TakeWhile
import Mathlib.Tactic.NormNum
import WalletLedger.Amount
import WalletLedger.Proofs.Exactness

set_option autoImplicit false

namespace WalletLedger

/-! ## 1. Numerals and their values -/

/-- **The number written in a text** of digits with at most one point: all the digits together, by
as many tenths as follow the point. -/
def written (cs : List Char) : ℚ :=
  let whole := cs.takeWhile (· ≠ '.')
  let fraction := (cs.dropWhile (· ≠ '.')).drop 1
  (Nat.ofDigitChars 10 (whole ++ fraction) 0 : ℕ) / 10 ^ fraction.length

/-- Some characters are all digits. -/
def AreDigits (cs : List Char) : Prop := ∀ c ∈ cs, c.isDigit = true

/-- **A text is a numeral:** it is some digits, or some digits on both sides of a point. -/
structure Numeral (cs whole fraction : List Char) : Prop where
  spelled : (cs = whole ∧ fraction = []) ∨ cs = whole ++ '.' :: fraction
  whole : AreDigits whole
  fraction : AreDigits fraction

theorem AreDigits.cons {c : Char} {cs : List Char} (h : AreDigits (c :: cs)) :
    c.isDigit = true ∧ AreDigits cs :=
  List.forall_mem_cons.1 h

theorem AreDigits.ne_point {cs : List Char} (h : AreDigits cs) {c : Char} (hc : c ∈ cs) :
    decide (c ≠ '.') = true := by
  refine decide_eq_true fun hpoint => ?_
  subst hpoint
  exact absurd (h _ hc) (by decide)

theorem Numeral.written_eq {cs whole fraction : List Char} (h : Numeral cs whole fraction) :
    written cs = (Nat.ofDigitChars 10 (whole ++ fraction) 0 : ℕ) / 10 ^ fraction.length := by
  have hwhole : ∀ c ∈ whole, decide (c ≠ '.') = true := fun c hc => h.whole.ne_point hc
  rcases h.spelled with ⟨rfl, rfl⟩ | rfl
  · simp only [written, List.takeWhile_eq_self_iff.2 hwhole, List.dropWhile_eq_nil_iff.2 hwhole,
      List.drop_nil]
  · simp only [written, List.takeWhile_append_of_pos hwhole, List.dropWhile_append_of_pos hwhole,
      ne_eq, not_true_eq_false, decide_false, Bool.false_eq_true, not_false_eq_true,
      List.takeWhile_cons_of_neg, List.dropWhile_cons_of_neg, List.append_nil, List.drop_one,
      List.tail_cons]

namespace Decimal

theorem digit?_of_isDigit {c : Char} (h : c.isDigit = true) :
    digit? c = some (c.toNat - '0'.toNat) :=
  if_pos h

theorem digit_lt {c : Char} (h : c.isDigit = true) : c.toNat - '0'.toNat < 10 := by
  have hc : '0'.toNat ≤ c.toNat ∧ c.toNat ≤ '9'.toNat := by
    simpa [Char.isDigit, UInt32.le_iff_toNat_le] using h
  have h0 : '0'.toNat = 48 := rfl
  have h9 : '9'.toNat = 57 := rfl
  omega

/-- So many digits are less than the power of ten. -/
theorem ofDigitChars_lt {cs : List Char} (h : AreDigits cs) :
    Nat.ofDigitChars 10 cs 0 < 10 ^ cs.length := by
  induction cs with
  | nil => simp
  | cons c cs ih =>
    obtain ⟨hc, hcs⟩ := h.cons
    have hd := digit_lt hc
    have hrest := ih hcs
    rw [Nat.ofDigitChars_cons, Nat.ofDigitChars_eq_ofDigitChars_zero, List.length_cons,
      Nat.pow_succ]
    nlinarith

/-! ## 2. Where reading stops -/

/-- **What a decimal holds is read to its end:** if a further digit is one too many, and the number
is a decimal, then only zeros follow. -/
theorem rest_eq_zero {n r s k : ℕ} (hr : r < 10 ^ k)
    (hstop : s = 28 ∨ 2 ^ 96 * 10 ^ k ≤ 10 * (10 ^ k * n + r))
    (hx : IsDecimal ((10 ^ k * n + r : ℕ) / 10 ^ (s + k))) : r = 0 := by
  obtain ⟨d, hd⟩ := hx
  have hcross : d.coeff * 10 ^ (s + k) = (10 ^ k * n + r : ℕ) * 10 ^ d.scale := by
    rw [toRat_eq, div_eq_div_iff (ten_pow_ne_zero _) (ten_pow_ne_zero _)] at hd
    exact_mod_cast hd
  rcases Nat.lt_or_ge s d.scale with hlt | hle
  -- The decimal has the digit, so its coefficient is too large.
  · have hscale := d.scale_le
    have hstop := hstop.resolve_left (by omega)
    obtain ⟨j, hj⟩ := Nat.exists_eq_add_of_lt hlt
    have hcoeff : d.coeff * 10 ^ k = (10 ^ k * n + r : ℕ) * 10 * 10 ^ j := by
      refine mul_right_cancel₀ (pow_ne_zero s (by norm_num : (10 : ℤ) ≠ 0)) ?_
      rw [hj] at hcross
      calc d.coeff * 10 ^ k * 10 ^ s = d.coeff * 10 ^ (s + k) := by ring
        _ = (10 ^ k * n + r : ℕ) * 10 ^ (s + j + 1) := hcross
        _ = (10 ^ k * n + r : ℕ) * 10 * 10 ^ j * 10 ^ s := by ring
    have hlarge : (2 ^ 96 * 10 ^ k : ℤ) ≤ d.coeff * 10 ^ k := by
      have hten : (1 : ℤ) ≤ 10 ^ j := one_le_pow₀ (by norm_num)
      have hstop' : (2 ^ 96 * 10 ^ k : ℤ) ≤ (10 ^ k * n + r : ℕ) * 10 := by
        rw [mul_comm _ (10 : ℤ)]
        exact_mod_cast hstop
      rw [hcoeff]
      exact hstop'.trans (le_mul_of_one_le_right (by positivity) hten)
    have hcoeff_lt : d.coeff < 2 ^ 96 := by
      have hlt : d.coeff.natAbs < 2 ^ 96 := d.coeff_lt
      omega
    exact absurd (le_of_mul_le_mul_right hlarge (by positivity)) (not_le.2 hcoeff_lt)
  -- The decimal does not have it, so it is a multiple of the digit before.
  · obtain ⟨j, rfl⟩ := Nat.exists_eq_add_of_le hle
    have hmultiple : d.coeff * 10 ^ j * 10 ^ k = (10 ^ k * n + r : ℕ) := by
      refine mul_right_cancel₀ (pow_ne_zero d.scale (by norm_num : (10 : ℤ) ≠ 0)) ?_
      calc d.coeff * 10 ^ j * 10 ^ k * 10 ^ d.scale = d.coeff * 10 ^ (d.scale + j + k) := by ring
        _ = (10 ^ k * n + r : ℕ) * 10 ^ d.scale := hcross
    have hdvd : 10 ^ k ∣ 10 ^ k * n + r := by
      have : ((10 ^ k : ℕ) : ℤ) ∣ (10 ^ k * n + r : ℕ) :=
        ⟨d.coeff * 10 ^ j, by rw [← hmultiple]; push_cast; ring⟩
      exact_mod_cast this
    exact Nat.eq_zero_of_dvd_of_lt ((Nat.dvd_add_right (Nat.dvd_mul_right _ _)).1 hdvd) hr

/-! ## 3. The reader -/

namespace Magnitude

/-- The number that a magnitude stands for. -/
def toRat (m : Magnitude) : ℚ := m.n / 10 ^ m.s

theorem toRat_signed (m : Magnitude) : (m.signed false).toRat = m.toRat := by
  rw [Decimal.toRat_eq, toRat]
  simp [signed]

/-- **What was read of a number:** it is the number if a decimal can be, and it is off by at most
half a unit of its last digit. -/
structure Reads (m : Magnitude) (x : ℚ) : Prop where
  exact : IsDecimal x → m.toRat = x
  near : |m.toRat - x| ≤ 1 / 2 / 10 ^ m.s

theorem reads_toRat (m : Magnitude) : m.Reads m.toRat where
  exact _ := rfl
  near := by
    rw [sub_self, abs_zero]
    positivity

theorem near_div {a b e : ℚ} (s : ℕ) (h : |a - b| ≤ e) :
    |a / 10 ^ s - b / 10 ^ s| ≤ e / 10 ^ s := by
  rw [← sub_div, abs_div, abs_of_pos (ten_pow_pos s)]
  exact div_le_div_of_nonneg_right h (ten_pow_pos s).le

/-- **Rounding comes near,** to a number between one digit and the next. -/
theorem near_of_roundBy {m m' : Magnitude} {d : ℕ} {f : ℚ} (hlow : d / 10 ≤ f)
    (hhigh : f ≤ (d + 1) / 10) (hd : d < 10) (h : m.roundBy d = .ok m') :
    |m'.toRat - (m.n + f) / 10 ^ m.s| ≤ 1 / 2 / 10 ^ m'.s := by
  rw [roundBy] at h
  split_ifs at h with hdown hfits hzero
  · cases h
    have hd' : (d : ℚ) ≤ 4 := by exact_mod_cast Nat.le_of_lt_succ hdown
    have hoff : |(m.n : ℚ) - (m.n + f)| ≤ 1 / 2 := abs_le.2 ⟨by linarith, by linarith⟩
    exact near_div m.s hoff
  · cases h
    have hd' : (5 : ℚ) ≤ d := by exact_mod_cast Nat.le_of_not_lt hdown
    have hd'' : (d : ℚ) ≤ 9 := by exact_mod_cast Nat.le_of_lt_succ hd
    have hoff : |((m.n + 1 : ℕ) : ℚ) - (m.n + f)| ≤ 1 / 2 := by
      rw [Nat.cast_succ]
      exact abs_le.2 ⟨by linarith, by linarith⟩
    exact near_div m.s hoff
  -- The carry has left the range, so the last digit that was kept is rounded away too.
  · cases h
    obtain ⟨j, hj⟩ := Nat.exists_eq_succ_of_ne_zero hzero
    have hd' : (5 : ℚ) ≤ d := by exact_mod_cast Nat.le_of_not_lt hdown
    have hd'' : (d : ℚ) ≤ 9 := by exact_mod_cast Nat.le_of_lt_succ hd
    have hten : ((m.n + 1 + 4) / 10 * 10 : ℕ) = m.n + 5 := by
      have hlt := m.n_lt
      have hmax : pow2 96 = 79228162514264337593543950336 := by decide
      omega
    have hoff : |(((m.n + 1 + 4) / 10 * 10 : ℕ) : ℚ) - (m.n + f)| ≤ 1 / 2 * 10 := by
      rw [hten, Nat.cast_add]
      exact abs_le.2 ⟨by push_cast; linarith, by push_cast; linarith⟩
    have hnear := near_div m.s hoff
    have hpow : (10 : ℚ) ^ m.s = 10 ^ (m.s - 1) * 10 := by rw [hj, pow_succ]; rfl
    rwa [Nat.cast_mul, Nat.cast_ofNat, hpow, mul_div_mul_right _ _ (by norm_num),
      mul_div_mul_right _ _ (by norm_num), ← hpow] at hnear

/-- **Rounding the rest away** is exact for a decimal, since its rest is all zeros. -/
theorem reads_of_roundBy {m m' : Magnitude} {c : Char} {cs : List Char} (hcs : AreDigits (c :: cs))
    (hstop : m.s = 28 ∨ pow2 96 ≤ m.n * 10 + (c.toNat - '0'.toNat))
    (h : m.roundBy (c.toNat - '0'.toNat) = .ok m') :
    m'.Reads ((Nat.ofDigitChars 10 (c :: cs) m.n : ℕ) / 10 ^ (m.s + (c :: cs).length)) := by
  have hd := digit_lt hcs.cons.1
  have hrest := ofDigitChars_lt hcs
  have htail := ofDigitChars_lt hcs.cons.2
  have hsplit : Nat.ofDigitChars 10 (c :: cs) 0
      = 10 ^ cs.length * (c.toNat - '0'.toNat) + Nat.ofDigitChars 10 cs 0 := by
    rw [Nat.ofDigitChars_cons, Nat.ofDigitChars_eq_ofDigitChars_zero, Nat.mul_zero, Nat.zero_add]
  rw [Nat.ofDigitChars_eq_ofDigitChars_zero]
  rw [List.length_cons] at hrest ⊢
  generalize c.toNat - '0'.toNat = d at *
  generalize Nat.ofDigitChars 10 (c :: cs) 0 = r at *
  generalize Nat.ofDigitChars 10 cs 0 = tail at *
  generalize cs.length = k at *
  have hten : 10 ^ (k + 1) = 10 * 10 ^ k := Nat.pow_succ'
  have hvalue : ((10 ^ (k + 1) * m.n + r : ℕ) : ℚ) / 10 ^ (m.s + (k + 1))
      = (m.n + r / 10 ^ (k + 1)) / 10 ^ m.s := by
    rw [pow_add _ m.s]
    push_cast
    field_simp
  constructor
  · intro hx
    have hlarge : m.s = 28 ∨ 2 ^ 96 * 10 ^ (k + 1) ≤ 10 * (10 ^ (k + 1) * m.n + r) := by
      refine hstop.imp_right fun hle => ?_
      have hmul := Nat.mul_le_mul_right (10 ^ (k + 1)) hle
      calc 2 ^ 96 * 10 ^ (k + 1) ≤ (m.n * 10 + d) * 10 ^ (k + 1) := hmul
        _ = 10 * (10 ^ (k + 1) * m.n + 10 ^ k * d) := by rw [hten]; ring
        _ ≤ 10 * (10 ^ (k + 1) * m.n + r) := by omega
    obtain rfl := rest_eq_zero hrest hlarge hx
    have hzero : d = 0 := by
      by_contra hd
      have := Nat.mul_pos (Nat.pow_pos (n := k) (by decide : 0 < 10)) (Nat.pos_of_ne_zero hd)
      omega
    subst hzero
    rw [roundBy, if_pos (by decide)] at h
    cases h
    rw [hvalue, Nat.cast_zero, zero_div, add_zero, toRat]
  · have hpos := ten_pow_pos (k + 1)
    have hlow : (d : ℚ) / 10 ≤ r / 10 ^ (k + 1) := by
      rw [div_le_div_iff₀ (by norm_num) hpos]
      have : d * 10 ^ (k + 1) ≤ r * 10 := by rw [hsplit, hten]; nlinarith
      exact_mod_cast this
    have hhigh : (r : ℚ) / 10 ^ (k + 1) ≤ (d + 1) / 10 := by
      rw [div_le_div_iff₀ hpos (by norm_num)]
      have : r * 10 ≤ (d + 1) * 10 ^ (k + 1) := by rw [hsplit, hten]; nlinarith
      exact_mod_cast this
    rw [hvalue]
    exact near_of_roundBy hlow hhigh hd h

end Magnitude

theorem reads_of_readFraction {m m' : Magnitude} {seen : Bool} {cs : List Char}
    (hcs : AreDigits cs) (h : readFraction m seen cs = .ok m') :
    m'.Reads ((Nat.ofDigitChars 10 cs m.n : ℕ) / 10 ^ (m.s + cs.length)) := by
  induction cs generalizing m seen with
  | nil =>
    rw [readFraction] at h
    split_ifs at h
    cases h
    exact m'.reads_toRat
  | cons c cs ih =>
    have hc := digit?_of_isDigit hcs.cons.1
    simp only [readFraction, hc] at h
    split_ifs at h with hs hn
    · have hread := ih hcs.cons.2 h
      simpa only [Nat.ofDigitChars_cons, List.length_cons, Nat.mul_comm m.n, Nat.add_assoc,
        Nat.add_comm 1] using hread
    · exact Magnitude.reads_of_roundBy hcs (.inr (Nat.le_of_not_lt hn)) h
    · have hscale := m.s_le
      exact Magnitude.reads_of_roundBy hcs (.inl (by omega)) h

/-- The digits in front of the point are all kept. -/
theorem readWhole_digits {m m' : Magnitude} {seen : Bool} {cs rest : List Char}
    (hcs : AreDigits cs) (h : readWhole m seen (cs ++ rest) = .ok m') :
    ∃ m₁ seen', m₁.n = Nat.ofDigitChars 10 cs m.n ∧ m₁.s = m.s ∧
      readWhole m₁ seen' rest = .ok m' := by
  induction cs generalizing m seen with
  | nil => exact ⟨m, seen, rfl, rfl, h⟩
  | cons c cs ih =>
    have hc := digit?_of_isDigit hcs.cons.1
    simp only [List.cons_append, readWhole, hc] at h
    split_ifs at h with hn
    obtain ⟨m₁, seen', hn₁, hs₁, h₁⟩ := ih hcs.cons.2 h
    exact ⟨m₁, seen', by rw [hn₁, Nat.ofDigitChars_cons, Nat.mul_comm 10], hs₁, h₁⟩

/-- A text without a sign is read from its first digit. -/
theorem ofChars?_eq_ok_iff {cs : List Char} (h : cs.head? ≠ some '-' ∧ cs.head? ≠ some '+')
    {d : Decimal} :
    ofChars? cs = .ok d ↔ ∃ m, readWhole .zero false cs = .ok m ∧ m.signed false = d := by
  have hsigned : ofChars? cs = (readWhole .zero false cs).map (·.signed false) := by
    rw [ofChars?.eq_def]
    split
    · exact absurd rfl h.1
    · exact absurd rfl h.2
    · rfl
  rw [hsigned]
  cases readWhole .zero false cs with
  | error e => exact iff_of_false nofun fun ⟨_, he, _⟩ => nomatch he
  | ok m => simp [Except.map]

/-- **A numeral is read** as its value if a decimal holds it, and nearly otherwise. -/
theorem reads_of_readWhole {cs whole fraction : List Char} {m : Magnitude}
    (hcs : Numeral cs whole fraction) (h : readWhole .zero false cs = .ok m) :
    m.Reads (written cs) := by
  rw [hcs.written_eq, Nat.ofDigitChars_append]
  rcases hcs.spelled with ⟨rfl, rfl⟩ | rfl
  · rw [← List.append_nil cs] at h
    obtain ⟨m₁, seen, hn, hs, h⟩ := readWhole_digits hcs.whole h
    rw [readWhole] at h
    split_ifs at h
    cases h
    have hread := m.reads_toRat
    rw [Magnitude.toRat, hs, hn] at hread
    exact hread
  · obtain ⟨m₁, seen, hn, hs, h⟩ := readWhole_digits hcs.whole h
    have hpoint : digit? '.' = none := rfl
    simp only [readWhole, hpoint, ↓reduceIte] at h
    have hread := reads_of_readFraction hcs.fraction h
    rw [hn, hs] at hread
    simpa only [Magnitude.zero, Nat.zero_add] using hread

end Decimal

/-! ## 4. Amounts -/

namespace Amount

open Decimal

/-- The two parts of a text that is split, put together again. -/
theorem splitPoint_ok {cs whole fraction : List Char} {precision : Nat}
    (h : splitPoint cs precision = .ok (whole, fraction)) :
    (cs = whole ∧ fraction = []) ∨ cs = whole ++ '.' :: fraction := by
  have hjoin := List.takeWhile_append_dropWhile (p := (· ≠ '.')) (l := cs)
  rw [splitPoint] at h
  split at h
  · rename_i hnil
    cases h
    rw [hnil, List.append_nil] at hjoin
    exact .inl ⟨hjoin.symm, rfl⟩
  · rename_i c rest hcons
    have hpoint : c = '.' := by
      have := List.head?_dropWhile_not (p := (· ≠ '.')) (l := cs)
      rw [hcons] at this
      simpa using this
    split_ifs at h
    cases h
    rw [hcons, hpoint] at hjoin
    exact .inr hjoin.symm

/-- **What is asked of a text** before it is read as a decimal. -/
structure Accepts (cs : List Char) (precision : Nat) (whole fraction : List Char) : Prop where
  ne_nil : cs ≠ []
  unsigned : cs.head? ≠ some '-' ∧ cs.head? ≠ some '+'
  split : splitPoint cs precision = .ok (whole, fraction)
  digits : AreDigits whole ∧ AreDigits fraction
  precise : fraction.length ≤ precision

/-- **An amount is read** from a text that is accepted, as a decimal other than zero. -/
theorem read_eq_ok_iff {text : String} {precision : Nat} {value : Decimal} :
    read text precision = .ok value ↔
      ∃ whole fraction, Accepts (Text.trim text.toList) precision whole fraction ∧
        ofChars? (Text.trim text.toList) = .ok value ∧ value.isZero = false := by
  simp only [read, throw, throwThe, MonadExceptOf.throw, bind, Except.bind, pure, Except.pure]
  generalize Text.trim text.toList = cs
  constructor
  · intro h
    split_ifs at h with hnil hsign
    cases hsplit : splitPoint cs precision with
    | error e => rw [hsplit] at h; cases h
    | ok parts =>
      rw [hsplit] at h
      simp only at h
      split_ifs at h with hdigits hlength
      cases hread : ofChars? cs with
      | error e => rw [hread] at h; cases h
      | ok v =>
        rw [hread] at h
        simp only at h
        split_ifs at h with hzero
        cases h
        have hall : (parts.1.all Char.isDigit && parts.2.all Char.isDigit) = true := by
          simpa using hdigits
        rw [Bool.and_eq_true, List.all_eq_true, List.all_eq_true] at hall
        rw [Bool.or_eq_true, decide_eq_true_iff, decide_eq_true_iff, not_or] at hsign
        exact ⟨parts.1, parts.2, ⟨hnil, hsign, hsplit, hall, Nat.le_of_not_lt hlength⟩, rfl,
          Bool.eq_false_of_not_eq_true hzero⟩
  · rintro ⟨whole, fraction, h, hread, hzero⟩
    have hall : (whole.all Char.isDigit && fraction.all Char.isDigit) = true := by
      rw [Bool.and_eq_true, List.all_eq_true, List.all_eq_true]
      exact h.digits
    simp [h.ne_nil, h.unsigned.1, h.unsigned.2, h.split, hall, Nat.not_lt.2 h.precise, hread, hzero]

theorem Accepts.numeral {cs whole fraction : List Char} {precision : Nat}
    (h : Accepts cs precision whole fraction) : Numeral cs whole fraction :=
  ⟨splitPoint_ok h.split, h.digits.1, h.digits.2⟩

/-- **An amount is read as it is written, if a decimal can hold it,** and only then; any other is
off by at most half a unit of the last digit that was read. -/
theorem read_exact_iff {text : String} {precision : Nat} {value : Decimal}
    (h : read text precision = .ok value) :
    (value.toRat = written (Text.trim text.toList) ↔
      IsDecimal (written (Text.trim text.toList))) ∧
      |value.toRat - written (Text.trim text.toList)| ≤ 1 / 2 / 10 ^ value.scale := by
  obtain ⟨whole, fraction, haccepts, hread, -⟩ := read_eq_ok_iff.1 h
  obtain ⟨m, hm, rfl⟩ := (ofChars?_eq_ok_iff haccepts.unsigned).1 hread
  have hread := reads_of_readWhole haccepts.numeral hm
  rw [Magnitude.toRat_signed]
  exact ⟨⟨fun heq => ⟨m.signed false, m.toRat_signed.trans heq⟩, hread.exact⟩, hread.near⟩

/-- The largest coefficient, and a digit more than fits. -/
def overfull : String := "79228162514264337593543950335.4"

/-- An amount whose digits all fit, with blanks around it. -/
theorem read_exact_small :
    read " 001.50 " 2 = .ok ⟨150, 2, by decide, by decide⟩ ∧
      (⟨150, 2, by decide, by decide⟩ : Decimal).toRat = written (Text.trim " 001.50 ".toList) := by
  have hread : read " 001.50 " 2 = .ok ⟨150, 2, by decide, by decide⟩ := by decide +kernel
  exact ⟨hread, (read_exact_iff hread).1.2 ⟨⟨150, 2, by decide, by decide⟩, by decide +kernel⟩⟩

/-- **A digit is dropped:** an amount with one fractional digit, in a currency that has one, is read
as the whole number. -/
theorem read_overfull :
    ∃ value, read overfull 1 = .ok value ∧ value.toRat = 79228162514264337593543950335 ∧
      written (Text.trim overfull.toList) = 79228162514264337593543950335 + 2 / 5 := by
  refine ⟨⟨79228162514264337593543950335, 0, by decide, by decide⟩, ?_, ?_, ?_⟩ <;> decide +kernel

end Amount

end WalletLedger
