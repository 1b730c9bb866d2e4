/-
What a rounded sum is good for.

A sum that no decimal holds is rounded at the first number of fractional digits at which the rounded
coefficient is in range. It need not be the nearest decimal then: just above the largest coefficient
one digit is lost although a decimal with that digit is nearer. Two things are true of it
nonetheless, and they are all that balances rely on.

1. **A sum is refused for its size alone:** there is one just if the exact sum is less than
   `2 ^ 96 - 1 / 2` (`exists_add?_iff`). That it has too many digits is no reason.
2. **Rounding does not pass a decimal:** what is at least a decimal stays at least that decimal, and
   what is at most a decimal stays at most that (`le_add?`, `add?_le`). So what covers an amount
   still covers it when it was rounded.
-/
import WalletLedger.Proofs.Decimal

set_option autoImplicit false

namespace WalletLedger.Decimal

/-! ## 1. Rounding a quotient -/

section Quotient

variable {m d n : Nat}

theorem roundHalfEven_zero (d : Nat) : roundHalfEven 0 d = 0 := by
  simp only [roundHalfEven, Nat.zero_div, Nat.zero_mod]
  split_ifs <;> omega

/-- Rounding adds at most a half. -/
theorem mul_le_of_le_roundHalfEven (hd : 0 < d) (h : n ≤ roundHalfEven m d) :
    2 * (n * d) ≤ 2 * m + d := by
  have hm := Nat.div_add_mod m d
  have hr := Nat.mod_lt m hd
  have hn : n ≤ m / d ∨ (n = m / d + 1 ∧ d ≤ 2 * (m % d)) := by
    simp only [roundHalfEven] at h
    split_ifs at h <;> omega
  rcases hn with hn | ⟨rfl, hhalf⟩
  · have hmul := Nat.mul_le_mul_right d hn
    rw [Nat.mul_comm (m / d)] at hmul
    omega
  · rw [Nat.add_mul, one_mul, Nat.mul_comm (m / d)]
    omega

/-- Rounding takes away at most a half. -/
theorem le_roundHalfEven_of_lt (hd : 0 < d) (h : 2 * (n * d) < 2 * m + d) :
    n ≤ roundHalfEven m d := by
  have hm := Nat.div_add_mod m d
  have hround := le_roundHalfEven m d
  by_contra hlt
  -- Then the quotient is less than `n`, and its fraction is more than a half.
  have hq : m / d + 1 ≤ n := by omega
  have hmul := Nat.mul_le_mul_right d hq
  rw [Nat.add_one_mul (m / d) d, Nat.mul_comm (m / d)] at hmul
  have hr := Nat.mod_lt m hd
  have hup : roundHalfEven m d = m / d + 1 := by
    simp only [roundHalfEven]
    rw [if_neg (by omega), if_pos (by omega)]
  have hq' : m / d + 1 + 1 ≤ n := by omega
  have hmul' := Nat.mul_le_mul_right d hq'
  rw [Nat.add_one_mul (m / d + 1) d, Nat.add_one_mul (m / d) d, Nat.mul_comm (m / d)] at hmul'
  omega

/-- A half goes up to an even number. -/
theorem le_roundHalfEven_of_even (hd : 0 < d) (hn : n % 2 = 0) (h : 2 * (n * d) ≤ 2 * m + d) :
    n ≤ roundHalfEven m d := by
  rcases Nat.lt_or_eq_of_le h with hlt | htie
  · exact le_roundHalfEven_of_lt hd hlt
  -- At the tie the quotient is the odd number below.
  · have hm : 2 * m = d + 2 * ((n - 1) * d) ∨ n = 0 := by
      cases n with
      | zero => exact .inr rfl
      | succ k =>
        rw [Nat.add_one_mul k d] at htie
        rw [Nat.add_sub_cancel]
        omega
    rcases hm with hm | rfl
    · have hdiv := Nat.div_add_mod m d
      have hr := Nat.mod_lt m hd
      have hq : m / d = n - 1 := by
        refine Nat.div_eq_of_lt_le (by omega) ?_
        rw [Nat.add_one_mul (n - 1) d]
        omega
      rw [hq, Nat.mul_comm] at hdiv
      have hpos : 0 < n := by
        by_contra hzero
        obtain rfl : n = 0 := by omega
        omega
      simp only [roundHalfEven, hq]
      rw [if_neg (by omega), if_neg (by omega), if_neg (by omega)]
      omega
    · exact Nat.zero_le _

/-- What is no more than an integer is rounded to no more than that. -/
theorem roundHalfEven_le_of_le (hd : 0 < d) (h : m ≤ n * d) : roundHalfEven m d ≤ n := by
  by_contra hlt
  have hmul := mul_le_of_le_roundHalfEven hd (show n + 1 ≤ roundHalfEven m d by omega)
  rw [Nat.add_one_mul n d] at hmul
  omega

/-- More digits shed leave no more. -/
theorem roundHalfEven_anti {d' : Nat} (hd : 0 < d) (h : d ≤ d') :
    roundHalfEven m d' ≤ roundHalfEven m d := by
  rcases Nat.lt_or_eq_of_le h with hlt | rfl
  · have hmul := mul_le_of_le_roundHalfEven (hd.trans_le h) (le_refl (roundHalfEven m d'))
    generalize roundHalfEven m d' = n at hmul
    cases n with
    | zero => exact Nat.zero_le _
    | succ k =>
      have hmono := Nat.mul_le_mul_left k h
      refine le_roundHalfEven_of_lt hd ?_
      rw [Nat.add_one_mul k d'] at hmul
      rw [Nat.add_one_mul k d]
      omega
  · exact le_rfl

/-- Where one digit more would have been too large, what is left is a tenth of the largest
coefficient at least. -/
theorem le_mul_roundHalfEven (hd : 0 < d) (h : pow2 96 ≤ roundHalfEven m d) :
    pow2 96 ≤ 10 * roundHalfEven m (10 * d) + 1 := by
  have hmul := mul_le_of_le_roundHalfEven hd h
  have hle : 7922816251426433759354395034 ≤ roundHalfEven m (10 * d) := by
    refine le_roundHalfEven_of_lt (by omega) ?_
    rw [show pow2 96 = 79228162514264337593543950336 from rfl] at hmul
    omega
  rw [show pow2 96 = 79228162514264337593543950336 from rfl]
  omega

end Quotient

/-! ## 2. Bringing a number into range -/

theorem natAbs_shed (m : Int) (k : Nat) :
    (shed m k).natAbs = roundHalfEven m.natAbs (pow10 k) := by
  rw [shed, Int.natAbs_mul, Int.natAbs_natCast]
  rcases eq_or_ne m 0 with rfl | hm
  · simp [roundHalfEven_zero]
  · rw [Int.natAbs_sign_of_ne_zero hm, one_mul]

theorem shed_natCast (m k : Nat) : shed m k = roundHalfEven m (pow10 k) := by
  rcases Nat.eq_zero_or_pos m with rfl | hm
  · simp [shed, roundHalfEven_zero]
  · rw [shed, Int.sign_eq_one_of_pos (by exact_mod_cast hm), one_mul, Int.natAbs_natCast]

/-- **A number fits if its integer part does,** rounded. -/
theorem exists_fit?_iff {m : Int} {s : Nat} :
    (∃ c, fit? m s = some c) ↔ roundHalfEven m.natAbs (pow10 s) < pow2 96 := by
  constructor
  · rintro ⟨c, hc⟩
    obtain ⟨k, hks, hfits, -⟩ := fit?_eq_some hc
    simp only [fitsAfter, Bool.and_eq_true, decide_eq_true_eq, natAbs_shed] at hfits
    refine (roundHalfEven_anti (pow10_pos k) ?_).trans_lt hfits.2
    exact Nat.pow_le_pow_right (by decide) hks
  · intro h
    refine exists_fit?_of_fitsAfter le_rfl ?_
    simp only [fitsAfter, Bool.and_eq_true, decide_eq_true_eq, natAbs_shed]
    exact ⟨Nat.sub_le _ _, h⟩

section Bounds

variable {m s : Nat} {c : Decimal}

/-- What is known where digits were shed: at one digit more the coefficient was out of range. -/
theorem fit?_shed (hs : s ≤ 28) (h : fit? m s = some c) :
    ∃ k, k ≤ s ∧ c.toRat = (roundHalfEven m (pow10 k) : ℚ) / 10 ^ (s - k) ∧
      ∀ j, k = j + 1 → pow2 96 ≤ roundHalfEven m (pow10 j) := by
  obtain ⟨k, hks, -, hleast, hcoeff, hscale⟩ := fit?_eq_some h
  refine ⟨k, hks, ?_, fun j hj => ?_⟩
  · rw [toRat_eq, hcoeff, hscale, shed_natCast, Int.cast_natCast]
  · have hfail := hleast j (by omega)
    simp only [fitsAfter, Bool.and_eq_false_iff, decide_eq_false_iff_not, not_le, not_lt,
      natAbs_shed, Int.natAbs_natCast] at hfail
    exact hfail.resolve_left (by omega)

/-- The value of a decimal in units that are at least as fine as its own. -/
theorem toRat_eq_div_of_le {d : Decimal} {e : Nat} (he : d.scale ≤ e) :
    ∃ n : Int, d.toRat = n / 10 ^ e := by
  obtain ⟨n, hn⟩ := onGrid_of_scale_le he
  exact ⟨n, by rw [← hn, mul_div_cancel_right₀ _ (ten_pow_ne_zero e)]⟩

/-- A decimal with more fractional digits is less than what is out of range at `e` digits. -/
theorem toRat_le_of_scale_le {d : Decimal} {e : Nat} (he : e ≤ d.scale) :
    d.toRat ≤ (2 ^ 96 - 1) / 10 ^ e := by
  have hcoeff : (d.coeff : ℚ) ≤ 2 ^ 96 - 1 := by
    have hlt := d.coeff_lt
    have hle : d.coeff ≤ 2 ^ 96 - 1 := by
      rw [show pow2 96 = 2 ^ 96 from rfl] at hlt
      omega
    exact_mod_cast hle
  rw [toRat_eq]
  refine (div_le_div_of_nonneg_right hcoeff (ten_pow_pos _).le).trans ?_
  exact div_le_div_of_nonneg_left (by norm_num) (ten_pow_pos e)
    (pow_le_pow_right₀ (by norm_num) he)

/-- The same number in units of `10 ^ (-s)` and of `10 ^ (k - s)`. -/
theorem div_pow_eq {x : ℚ} {k : Nat} (hk : k ≤ s) : x / 10 ^ s = x / 10 ^ k / 10 ^ (s - k) := by
  rw [div_div, ← pow_add, Nat.add_sub_cancel' hk]

/-- What is at least a decimal is brought into range without passing it. -/
theorem le_fit? (hs : s ≤ 28) (h : fit? m s = some c) {d : Decimal}
    (hd : d.toRat ≤ (m : ℚ) / 10 ^ s) : d.toRat ≤ c.toRat := by
  obtain ⟨k, hks, hc, houtside⟩ := fit?_shed hs h
  rw [hc]
  rcases Nat.lt_or_ge (s - k) d.scale with hfine | hcoarse
  · cases k with
    | zero =>
      rw [pow10_zero, roundHalfEven_one]
      exact hd
    | succ j =>
      -- The decimal has a digit more, so its coefficient is all that bounds it.
      have hlarge := le_mul_roundHalfEven (pow10_pos j) (houtside j rfl)
      rw [Nat.mul_comm 10 (pow10 j), ← pow10_succ] at hlarge
      refine (toRat_le_of_scale_le hfine).trans ?_
      rw [Nat.succ_eq_add_one, pow_succ (10 : ℚ), ← div_div, div_right_comm,
        div_le_div_iff_of_pos_right (ten_pow_pos _), div_le_iff₀ (by norm_num), sub_le_iff_le_add,
        mul_comm]
      exact_mod_cast hlarge
  · -- Both are integers in the same units, and rounding is no less than cutting off.
    obtain ⟨n, hn⟩ := toRat_eq_div_of_le hcoarse
    rw [hn] at hd ⊢
    rw [div_pow_eq hks, div_le_div_iff_of_pos_right (ten_pow_pos _), le_div_iff₀ (ten_pow_pos k),
      ← pow10_cast] at hd
    rw [div_le_div_iff_of_pos_right (ten_pow_pos _)]
    have hcut : n ≤ ((m / pow10 k : Nat) : Int) := by
      rw [Int.natCast_ediv]
      exact (Int.le_ediv_iff_mul_le (by exact_mod_cast pow10_pos k)).2 (by exact_mod_cast hd)
    exact_mod_cast hcut.trans (Int.ofNat_le.2 (le_roundHalfEven m (pow10 k)))

/-- What is at most a decimal is brought into range without passing it. -/
theorem fit?_le (hs : s ≤ 28) (h : fit? m s = some c) {d : Decimal}
    (hd : (m : ℚ) / 10 ^ s ≤ d.toRat) : c.toRat ≤ d.toRat := by
  obtain ⟨k, hks, hc, houtside⟩ := fit?_shed hs h
  rw [hc]
  rcases Nat.lt_or_ge (s - k) d.scale with hfine | hcoarse
  · cases k with
    | zero =>
      rw [pow10_zero, roundHalfEven_one]
      exact hd
    | succ j =>
      -- A decimal with a digit more is less than the number, which was out of range with it.
      have hmul := mul_le_of_le_roundHalfEven (pow10_pos j) (houtside j rfl)
      have hover : ((2 : ℚ) ^ 96 - 1) / 10 ^ (s - j) < m / 10 ^ s := by
        rw [div_pow_eq (show j ≤ s by omega), div_lt_div_iff_of_pos_right (ten_pow_pos _),
          lt_div_iff₀ (ten_pow_pos j), ← pow10_cast]
        have hmul' : 2 * (2 ^ 96 * (pow10 j : ℚ)) ≤ 2 * m + pow10 j := by exact_mod_cast hmul
        have hpos : (0 : ℚ) < pow10 j := by exact_mod_cast pow10_pos j
        linarith
      have hle := toRat_le_of_scale_le (d := d) (e := s - j) (by omega)
      exact absurd (hd.trans hle) (not_le.2 hover)
  · obtain ⟨n, hn⟩ := toRat_eq_div_of_le hcoarse
    rw [hn] at hd ⊢
    rw [div_pow_eq hks, div_le_div_iff_of_pos_right (ten_pow_pos _), div_le_iff₀ (ten_pow_pos k),
      ← pow10_cast] at hd
    rw [div_le_div_iff_of_pos_right (ten_pow_pos _)]
    have hmul : (m : Int) ≤ n * pow10 k := by exact_mod_cast hd
    have hn : 0 ≤ n := by
      by_contra hneg
      have hpos : (0 : Int) < pow10 k := by exact_mod_cast pow10_pos k
      have hlt := mul_neg_of_neg_of_pos (not_le.1 hneg) hpos
      omega
    obtain ⟨n, rfl⟩ := Int.eq_ofNat_of_zero_le hn
    exact_mod_cast roundHalfEven_le_of_le (pow10_pos k) (by exact_mod_cast hmul)

end Bounds

/-! ## 3. Sums -/

section Sums

variable {a b c : Decimal}

theorem abs_toRat_lt (a : Decimal) : |a.toRat| < 2 ^ 96 - 1 / 2 := by
  have hneg : a.neg.toRat ≤ 2 ^ 96 - 1 := by
    simpa using toRat_le_of_scale_le (Nat.zero_le a.neg.scale)
  have hpos : a.toRat ≤ 2 ^ 96 - 1 := by simpa using toRat_le_of_scale_le (Nat.zero_le a.scale)
  rw [toRat_neg] at hneg
  rw [abs_lt]
  constructor <;> linarith

/-- **A sum is refused for its size alone.** -/
theorem exists_add?_iff : (∃ c, a.add? b = some c) ↔ |a.toRat + b.toRat| < 2 ^ 96 - 1 / 2 := by
  unfold add?
  split_ifs with hza hzb
  · rw [(isZero_iff a).1 hza, zero_add]
    exact iff_of_true ⟨b, rfl⟩ b.abs_toRat_lt
  · rw [(isZero_iff b).1 hzb, add_zero]
    exact iff_of_true ⟨a, rfl⟩ a.abs_toRat_lt
  · have hsum := coeffAt_add a b (le_max_left a.scale b.scale) (le_max_right _ _)
    simp only [exists_fit?_iff]
    generalize max a.scale b.scale = s at hsum
    generalize a.coeffAt s + b.coeffAt s = m at hsum
    have habs : (m.natAbs : ℚ) = |a.toRat + b.toRat| * 10 ^ s := by
      rw [Nat.cast_natAbs, Int.cast_abs, hsum, abs_mul, abs_of_pos (ten_pow_pos s)]
    have hround : pow2 96 ≤ roundHalfEven m.natAbs (pow10 s) ↔
        2 * (pow2 96 * pow10 s) ≤ 2 * m.natAbs + pow10 s :=
      ⟨mul_le_of_le_roundHalfEven (pow10_pos s),
        le_roundHalfEven_of_even (pow10_pos s) (by decide)⟩
    rw [← not_le, hround, not_le]
    -- Both sides in units of `10 ^ (-s)`.
    have hcast : 2 * m.natAbs + pow10 s < 2 * (pow2 96 * pow10 s) ↔
        2 * (m.natAbs : ℚ) + 10 ^ s < 2 * (2 ^ 96 * 10 ^ s) := by
      rw [← pow10_cast]
      exact_mod_cast Iff.rfl
    rw [hcast, habs]
    have hpos := ten_pow_pos s
    constructor
    · intro h
      by_contra hle
      have := mul_le_mul_of_nonneg_right (not_lt.1 hle) hpos.le
      linarith
    · intro h
      have := mul_lt_mul_of_pos_right h hpos
      linarith

/-- A sum that is not negative is exact, or it is a natural number that was brought into range. -/
theorem add?_cases (h : a.add? b = some c) (hnonneg : 0 ≤ a.toRat + b.toRat) :
    c.toRat = a.toRat + b.toRat ∨
      ∃ m s : Nat, s ≤ 28 ∧ fit? m s = some c ∧ (m : ℚ) / 10 ^ s = a.toRat + b.toRat := by
  unfold add? at h
  split_ifs at h with hza hzb
  · cases h
    exact .inl (by rw [(isZero_iff a).1 hza, zero_add])
  · cases h
    exact .inl (by rw [(isZero_iff b).1 hzb, add_zero])
  · have hsum := coeffAt_add a b (le_max_left a.scale b.scale) (le_max_right _ _)
    have hs := max_le a.scale_le b.scale_le
    change fit? (a.coeffAt (max a.scale b.scale) + b.coeffAt (max a.scale b.scale)) _ = _ at h
    generalize max a.scale b.scale = s at hsum hs h
    have hm : 0 ≤ a.coeffAt s + b.coeffAt s := by
      have hq := mul_nonneg hnonneg (ten_pow_pos s).le
      rw [← hsum] at hq
      exact_mod_cast hq
    obtain ⟨m, hm⟩ := Int.eq_ofNat_of_zero_le hm
    rw [hm] at hsum h
    exact .inr ⟨m, s, hs, h, by rw [div_eq_iff (ten_pow_ne_zero s), ← hsum, Int.cast_natCast]⟩

variable {d : Decimal}

/-- **What covers a decimal still covers it when it was rounded.** -/
theorem le_add? (h : a.add? b = some c) (hd : 0 ≤ d.toRat) (hle : d.toRat ≤ a.toRat + b.toRat) :
    d.toRat ≤ c.toRat := by
  rcases add?_cases h (hd.trans hle) with hexact | ⟨m, s, hs, hfit, hval⟩
  · rwa [hexact]
  · exact le_fit? hs hfit (hval ▸ hle)

/-- **What a decimal covers is still covered by it.** -/
theorem add?_le (h : a.add? b = some c) (hnonneg : 0 ≤ a.toRat + b.toRat)
    (hle : a.toRat + b.toRat ≤ d.toRat) : c.toRat ≤ d.toRat := by
  rcases add?_cases h hnonneg with hexact | ⟨m, s, hs, hfit, hval⟩
  · rwa [hexact]
  · exact fit?_le hs hfit (hval ▸ hle)

end Sums

end WalletLedger.Decimal
