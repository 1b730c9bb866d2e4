/-
What decimals stand for, and when their sums are exact.

A sum of two decimals is brought into range by shedding digits (`Decimal.fit?`), and shedding may
round. Two things survive all of it, and this module is about those two.

1. **On a grid nothing is rounded.** If both operands are multiples of `10 ^ (-p)` and the sum is
   one that fits at `p` fractional digits, then the digits that are shed are zeros, whatever the
   scales of the operands were: the sum exists and is exact (`add?_exact`). Scales may grow up to
   28 along the way and coefficients may leave their range at that scale; the value is never moved.
2. **Rounding keeps the sign.** A sum that was rounded is as negative as the exact one
   (`nonneg_of_add?`), because a coefficient too large by a factor of ten or more is not rounded to
   zero. So a difference that is not negative was taken from enough.
-/
import WalletLedger.Decimal.Basic
import Mathlib.Algebra.Order.Field.Rat
import Mathlib.Data.Rat.Cast.Order
import Mathlib.Tactic.FieldSimp
import Mathlib.Tactic.Linarith
import Mathlib.Tactic.Positivity
import Mathlib.Tactic.Ring

set_option autoImplicit false

namespace WalletLedger

theorem pow10_eq (n : Nat) : pow10 n = 10 ^ n := rfl

theorem pow10_cast (n : Nat) : ((pow10 n : Nat) : ℚ) = 10 ^ n := by
  rw [pow10_eq, Nat.cast_pow, Nat.cast_ofNat]

theorem ten_pow_ne_zero (n : Nat) : (10 : ℚ) ^ n ≠ 0 := pow_ne_zero n (by norm_num)

theorem ten_pow_pos (n : Nat) : (0 : ℚ) < 10 ^ n := pow_pos (by norm_num) n

namespace Decimal

/-! ## 1. Values -/

theorem toRat_eq (a : Decimal) : a.toRat = a.coeff / 10 ^ a.scale := by
  rw [toRat, Rat.mkRat_eq_div, pow10_cast]

theorem coeff_eq (a : Decimal) : (a.coeff : ℚ) = a.toRat * 10 ^ a.scale := by
  rw [toRat_eq, div_mul_cancel₀ _ (ten_pow_ne_zero _)]

theorem toRat_zero : zero.toRat = 0 := by
  rw [toRat_eq]
  simp [zero]

theorem isZero_iff (a : Decimal) : a.isZero = true ↔ a.toRat = 0 := by
  rw [toRat_eq, div_eq_zero_iff, or_iff_left (ten_pow_ne_zero _)]
  simp [isZero]

theorem isNegative_iff (a : Decimal) : a.isNegative = true ↔ a.toRat < 0 := by
  rw [toRat_eq, div_lt_iff₀ (ten_pow_pos _), zero_mul]
  simp [isNegative]

theorem isPositive_iff (a : Decimal) : a.isPositive = true ↔ 0 < a.toRat := by
  rw [toRat_eq, lt_div_iff₀ (ten_pow_pos _), zero_mul]
  simp [isPositive]

theorem isNegative_eq_false_iff (a : Decimal) : a.isNegative = false ↔ 0 ≤ a.toRat := by
  rw [← not_lt, ← isNegative_iff, Bool.not_eq_true]

theorem le_iff (a b : Decimal) : a ≤ b ↔ a.toRat ≤ b.toRat := by
  have hcross : a ≤ b ↔ a.coeff * pow10 b.scale ≤ b.coeff * pow10 a.scale := Iff.rfl
  rw [hcross, toRat_eq, toRat_eq, div_le_div_iff₀ (ten_pow_pos _) (ten_pow_pos _), ← pow10_cast,
    ← pow10_cast]
  exact_mod_cast Iff.rfl

theorem lt_iff (a b : Decimal) : a < b ↔ a.toRat < b.toRat := by
  have hcross : a < b ↔ a.coeff * pow10 b.scale < b.coeff * pow10 a.scale := Iff.rfl
  rw [hcross, toRat_eq, toRat_eq, div_lt_div_iff₀ (ten_pow_pos _) (ten_pow_pos _), ← pow10_cast,
    ← pow10_cast]
  exact_mod_cast Iff.rfl

theorem sameValue_iff (a b : Decimal) : a.sameValue b = true ↔ a.toRat = b.toRat := by
  rw [sameValue, beq_iff_eq, toRat_eq, toRat_eq, div_eq_div_iff (ten_pow_ne_zero _)
    (ten_pow_ne_zero _), ← pow10_cast, ← pow10_cast]
  exact_mod_cast Iff.rfl

@[simp] theorem toRat_neg (a : Decimal) : a.neg.toRat = -a.toRat := by
  rw [toRat_eq, toRat_eq]
  simp only [neg, Int.cast_neg]
  ring

/-! ## 2. Rounding -/

theorem roundHalfEven_of_dvd {m d : Nat} (hd : 0 < d) (h : d ∣ m) :
    roundHalfEven m d = m / d := by
  have hr : m % d = 0 := Nat.mod_eq_zero_of_dvd h
  simp only [roundHalfEven, hr, Nat.mul_zero, hd, if_true]

theorem le_roundHalfEven (m d : Nat) : m / d ≤ roundHalfEven m d := by
  simp only [roundHalfEven]
  split_ifs <;> omega

theorem roundHalfEven_le (m d : Nat) : roundHalfEven m d ≤ m / d + 1 := by
  simp only [roundHalfEven]
  split_ifs <;> omega

theorem shed_natAbs_le (m : Int) (k : Nat) :
    (shed m k).natAbs ≤ roundHalfEven m.natAbs (pow10 k) := by
  rw [shed, Int.natAbs_mul, Int.natAbs_natCast]
  rcases Int.sign_trichotomy m with h | h | h <;> simp [h]

/-- Shedding zeros divides. -/
theorem shed_eq_of_dvd {m : Int} {k : Nat} (h : (pow10 k : Int) ∣ m) :
    shed m k * pow10 k = m := by
  have habs : pow10 k ∣ m.natAbs := Int.natCast_dvd.1 h
  rw [shed, roundHalfEven_of_dvd (pow10_pos k) habs, mul_assoc, ← Nat.cast_mul,
    Nat.div_mul_cancel habs, Int.sign_mul_natAbs]

/-- What is shed from a negative number is not positive, and it is zero only if nothing of the
number is left. -/
theorem shed_neg_of_le {m : Int} {k : Nat} (hm : m < 0) (h : pow10 k ≤ m.natAbs) :
    shed m k < 0 := by
  have hone : 1 ≤ m.natAbs / pow10 k := Nat.div_pos h (pow10_pos k)
  have hround := le_roundHalfEven m.natAbs (pow10 k)
  rw [shed, Int.sign_eq_neg_one_of_neg hm]
  omega

/-! ## 3. Bringing a number into range -/

/-- What `fit?` finds: the least number of digits after whose shedding the number is in range. -/
theorem fit?_eq_some {m : Int} {s : Nat} {c : Decimal} (h : fit? m s = some c) :
    ∃ k, k ≤ s ∧ fitsAfter m s k = true ∧ (∀ j < k, fitsAfter m s j = false) ∧
      c.coeff = shed m k ∧ c.scale = s - k := by
  unfold fit? at h
  -- The search goes through `0, 1, …` in order, so what stands before the hit are the lesser ones.
  split at h
  · cases h
  · rename_i k hk
    obtain ⟨hfits, as, bs, hsplit, has⟩ := List.find?_eq_some_iff_append.1 hk
    have hget : (List.range (s + 1))[as.length]? = some k := by rw [hsplit]; simp
    have hlen : as.length < s + 1 := by
      have := congrArg List.length hsplit
      simp only [List.length_range, List.length_append, List.length_cons] at this
      omega
    have hk' : as.length = k := by
      rw [List.getElem?_range hlen] at hget
      exact Option.some.inj hget
    cases h
    refine ⟨k, by omega, hfits, fun j hj => ?_, rfl, rfl⟩
    have hmem : j ∈ as := by
      have hj' : (as ++ k :: bs)[j]? = some j := by
        rw [← hsplit, List.getElem?_range (by omega)]
      rw [List.getElem?_append_left (by omega)] at hj'
      exact List.mem_of_getElem? hj'
    simpa using has j hmem

theorem exists_fit?_of_fitsAfter {m : Int} {s k : Nat} (hk : k ≤ s)
    (h : fitsAfter m s k = true) : ∃ c, fit? m s = some c := by
  unfold fit?
  split
  · rename_i hnone
    have := List.find?_eq_none.1 hnone k (List.mem_range.2 (by omega))
    exact absurd h this
  · exact ⟨_, rfl⟩

/-- A number on the grid of `p` digits ends in zeros after these. -/
theorem dvd_of_grid {m n : Int} {s p : Nat} (hgrid : m * pow10 p = n * pow10 s) :
    (pow10 (s - p) : Int) ∣ m := by
  rcases Nat.le_total p s with hle | hle
  · obtain ⟨d, rfl⟩ := Nat.exists_eq_add_of_le hle
    refine ⟨n, ?_⟩
    have hpos : (pow10 p : Int) ≠ 0 := by exact_mod_cast (pow10_pos p).ne'
    apply mul_right_cancel₀ hpos
    rw [hgrid, pow10_eq, pow10_eq, pow10_eq, Nat.add_sub_cancel_left]
    push_cast
    ring
  · rw [Nat.sub_eq_zero_of_le hle, pow10_zero]
    exact one_dvd m

/-- If what is shed is zeros, nothing is rounded. -/
theorem toRat_of_fit? {m : Int} {s d : Nat} {c : Decimal} (h : fit? m s = some c)
    (hdvd : (pow10 d : Int) ∣ m) (hd : s - c.scale ≤ d) : c.toRat = (m : ℚ) / 10 ^ s := by
  obtain ⟨k, hks, -, -, hcoeff, hscale⟩ := fit?_eq_some h
  have hdvdk : (pow10 k : Int) ∣ m := by
    refine Dvd.dvd.trans ?_ hdvd
    rw [pow10_eq, pow10_eq]
    exact_mod_cast Nat.pow_dvd_pow 10 (by omega)
  have hmul : (c.coeff : ℚ) * 10 ^ k = m := by
    rw [hcoeff, ← pow10_cast]
    exact_mod_cast shed_eq_of_dvd hdvdk
  rw [toRat_eq, hscale, div_eq_div_iff (ten_pow_ne_zero _) (ten_pow_ne_zero _), ← hmul, mul_assoc,
    ← pow_add, Nat.add_sub_cancel' hks]

/-- **Nothing is rounded on a grid.** A number that is a multiple of `10 ^ (-p)`, with a coefficient
at `p` fractional digits that is in range, is brought into range without a change of value. -/
theorem fit?_exact {m n : Int} {s p : Nat} (hp : p ≤ 28) (hn : n.natAbs < pow2 96)
    (hgrid : m * pow10 p = n * pow10 s) :
    ∃ c, fit? m s = some c ∧ c.toRat = (m : ℚ) / 10 ^ s := by
  -- Shedding down to `p` digits leaves `n`, so no more than that is ever shed.
  have hdvd := dvd_of_grid hgrid
  have hshed : (shed m (s - p)).natAbs < pow2 96 := by
    have hmul := shed_eq_of_dvd hdvd
    refine lt_of_le_of_lt ?_ hn
    rcases Nat.le_total p s with hle | hle
    -- The scale is finer than the grid, and what is left after shedding is `n` itself.
    · obtain ⟨d, rfl⟩ := Nat.exists_eq_add_of_le hle
      have hpos : (pow10 (p + d) : Int) ≠ 0 := by exact_mod_cast (pow10_pos _).ne'
      have heq : shed m (p + d - p) = n := by
        apply mul_right_cancel₀ hpos
        calc shed m (p + d - p) * (pow10 (p + d) : Int)
            = shed m (p + d - p) * pow10 (p + d - p) * pow10 p := by
              simp only [Nat.add_sub_cancel_left, pow10_eq]
              push_cast
              ring
          _ = n * pow10 (p + d) := by rw [hmul, hgrid]
      rw [heq]
    -- The scale is coarser: nothing is shed, and `n` is larger than `m`.
    · obtain ⟨d, rfl⟩ := Nat.exists_eq_add_of_le hle
      have hs : s - (s + d) = 0 := by omega
      have hpos : (pow10 s : Int) ≠ 0 := by exact_mod_cast (pow10_pos _).ne'
      have heq : n = m * pow10 d := by
        apply mul_right_cancel₀ hpos
        rw [← hgrid]
        simp only [pow10_eq]
        push_cast
        ring
      rw [hs, shed_zero, heq, Int.natAbs_mul, Int.natAbs_natCast]
      exact Nat.le_mul_of_pos_right _ (pow10_pos d)
  have hfits : fitsAfter m s (s - p) = true := by
    simp only [fitsAfter, Bool.and_eq_true, decide_eq_true_eq]
    exact ⟨by omega, hshed⟩
  obtain ⟨c, hc⟩ := exists_fit?_of_fitsAfter (Nat.sub_le s p) hfits
  obtain ⟨k, hks, -, hleast, -, hscale⟩ := fit?_eq_some hc
  have hkp : k ≤ s - p := by
    by_contra hlt
    have := hleast (s - p) (by omega)
    rw [hfits] at this
    exact Bool.noConfusion this
  exact ⟨c, hc, toRat_of_fit? hc hdvd (by omega)⟩

/-- **Rounding keeps the sign.** A number of at most 28 fractional digits that is negative stays
negative: if digits have to be shed, one digit less would have left too large a number. -/
theorem fit?_neg {m : Int} {s : Nat} {c : Decimal} (hs : s ≤ 28) (hm : m < 0)
    (h : fit? m s = some c) : c.coeff < 0 := by
  obtain ⟨k, hks, -, hleast, hcoeff, -⟩ := fit?_eq_some h
  rw [hcoeff]
  cases k with
  | zero => rwa [shed_zero]
  | succ k =>
    apply shed_neg_of_le hm
    have hfail := hleast k (Nat.lt_succ_self k)
    have hlarge : pow2 96 ≤ (shed m k).natAbs := by
      simp only [fitsAfter, Bool.and_eq_false_iff, decide_eq_false_iff_not, not_le, not_lt] at hfail
      rcases hfail with hfail | hfail
      · omega
      · exact hfail
    have hround := Nat.le_trans (shed_natAbs_le m k) (roundHalfEven_le m.natAbs (pow10 k))
    -- So much was left after `k` digits that one digit more does not shed everything.
    have hten : 10 ≤ m.natAbs / pow10 k := by
      have hbig : 11 ≤ pow2 96 := by decide
      omega
    rw [pow10_succ, Nat.mul_comm]
    exact (Nat.le_div_iff_mul_le (pow10_pos k)).1 hten

/-! ## 4. Sums -/

/-- The value is a multiple of `10 ^ (-p)`. -/
def OnGrid (p : Nat) (a : Decimal) : Prop := ∃ n : Int, a.toRat * 10 ^ p = n

theorem coeffAt_eq (a : Decimal) {s : Nat} (h : a.scale ≤ s) :
    (a.coeffAt s : ℚ) = a.toRat * 10 ^ s := by
  rw [coeffAt, Int.cast_mul, Int.cast_natCast, pow10_cast, coeff_eq, mul_assoc, ← pow_add,
    Nat.add_sub_cancel' h]

/-- The sum of the coefficients at a common scale. -/
theorem coeffAt_add (a b : Decimal) {s : Nat} (ha : a.scale ≤ s) (hb : b.scale ≤ s) :
    ((a.coeffAt s + b.coeffAt s : Int) : ℚ) = (a.toRat + b.toRat) * 10 ^ s := by
  rw [Int.cast_add, coeffAt_eq a ha, coeffAt_eq b hb]
  ring

/-- On a grid that sum is a multiple of the grid's unit. -/
theorem coeffAt_add_grid {a b : Decimal} {s p : Nat} {x y : Int} (ha : a.scale ≤ s)
    (hb : b.scale ≤ s) (hx : a.toRat * 10 ^ p = x) (hy : b.toRat * 10 ^ p = y) :
    (a.coeffAt s + b.coeffAt s) * (pow10 p : Int) = (x + y) * pow10 s := by
  have hq : (((a.coeffAt s + b.coeffAt s) * pow10 p : Int) : ℚ) =
      (((x + y) * pow10 s : Int) : ℚ) := by
    rw [Int.cast_mul, Int.cast_mul, coeffAt_add a b ha hb, Int.cast_natCast, Int.cast_natCast,
      pow10_cast, pow10_cast, Int.cast_add, ← hx, ← hy]
    ring
  exact_mod_cast hq

/-- **A sum on a grid is exact** as soon as its coefficient at the grid's scale is in range. -/
theorem add?_exact {a b : Decimal} {p : Nat} (hp : p ≤ 28) (ha : a.OnGrid p) (hb : b.OnGrid p)
    (hlt : |a.toRat + b.toRat| * 10 ^ p < 2 ^ 96) :
    ∃ c, a.add? b = some c ∧ c.toRat = a.toRat + b.toRat := by
  obtain ⟨x, hx⟩ := ha
  obtain ⟨y, hy⟩ := hb
  unfold add?
  split_ifs with hza hzb
  · exact ⟨b, rfl, by rw [(isZero_iff a).1 hza, zero_add]⟩
  · exact ⟨a, rfl, by rw [(isZero_iff b).1 hzb, add_zero]⟩
  -- The coefficient of the sum at the grid's scale is `x + y`, and that is in range.
  · have hn : (x + y).natAbs < pow2 96 := by
      have hcast : (((x + y).natAbs : Nat) : ℚ) < ((pow2 96 : Nat) : ℚ) := by
        rw [Nat.cast_natAbs, Int.cast_abs, Int.cast_add, ← hx, ← hy, ← add_mul, abs_mul,
          abs_of_pos (ten_pow_pos p)]
        refine lt_of_lt_of_le hlt (le_of_eq ?_)
        norm_num [pow2]
      exact_mod_cast hcast
    have hgrid := coeffAt_add_grid (le_max_left a.scale b.scale) (le_max_right _ _) hx hy
    obtain ⟨c, hc, hval⟩ := fit?_exact hp hn hgrid
    refine ⟨c, hc, ?_⟩
    rw [hval, coeffAt_add a b (le_max_left _ _) (le_max_right _ _),
      mul_div_cancel_right₀ _ (ten_pow_ne_zero _)]

/-- **The sign of a sum is that of the exact sum,** whether or not the sum had to be rounded. -/
theorem nonneg_of_add? {a b c : Decimal} (h : a.add? b = some c) (hc : c.isNegative = false) :
    0 ≤ a.toRat + b.toRat := by
  unfold add? at h
  split_ifs at h with hza hzb
  · cases h
    rw [(isZero_iff a).1 hza, zero_add]
    exact (isNegative_eq_false_iff _).1 hc
  · cases h
    rw [(isZero_iff b).1 hzb, add_zero]
    exact (isNegative_eq_false_iff _).1 hc
  -- A negative sum has a negative coefficient, and rounding does not make that vanish.
  · by_contra hneg
    rw [not_le] at hneg
    have hm : a.coeffAt (max a.scale b.scale) + b.coeffAt (max a.scale b.scale) < 0 := by
      have hq := mul_neg_of_neg_of_pos hneg (ten_pow_pos (max a.scale b.scale))
      rw [← coeffAt_add a b (le_max_left _ _) (le_max_right _ _)] at hq
      exact_mod_cast hq
    have hcoeff := fit?_neg (max_le a.scale_le b.scale_le) hm h
    rw [isNegative, decide_eq_false_iff_not] at hc
    exact hc hcoeff

theorem OnGrid.neg {a : Decimal} {p : Nat} (h : a.OnGrid p) : a.neg.OnGrid p := by
  obtain ⟨n, hn⟩ := h
  exact ⟨-n, by rw [toRat_neg, neg_mul, hn, Int.cast_neg]⟩

theorem onGrid_zero (p : Nat) : zero.OnGrid p := ⟨0, by rw [toRat_zero, zero_mul, Int.cast_zero]⟩

/-! ## 5. Fractional digits -/

/-- A decimal that is written with at most `p` fractional digits is on the grid of `p`. -/
theorem onGrid_of_scale_le {a : Decimal} {p : Nat} (h : a.scale ≤ p) : a.OnGrid p := by
  obtain ⟨d, rfl⟩ := Nat.exists_eq_add_of_le h
  refine ⟨a.coeff * 10 ^ d, ?_⟩
  rw [toRat_eq, pow_add, ← mul_assoc, div_mul_cancel₀ _ (ten_pow_ne_zero _)]
  push_cast
  ring

/-- **A sum of two decimals on a grid is on it,** even if it had to be rounded: a sum that does not
fit at the grid's scale is one with fewer fractional digits than the grid. -/
theorem OnGrid.of_add? {a b c : Decimal} {p : Nat} (ha : a.OnGrid p) (hb : b.OnGrid p)
    (h : a.add? b = some c) : c.OnGrid p := by
  unfold add? at h
  split_ifs at h with hza hzb
  · cases h
    exact hb
  · cases h
    exact ha
  · rcases Nat.le_total c.scale p with hle | hle
    · exact onGrid_of_scale_le hle
    · obtain ⟨x, hx⟩ := ha
      obtain ⟨y, hy⟩ := hb
      have hdvd := dvd_of_grid (coeffAt_add_grid (le_max_left a.scale b.scale) (le_max_right _ _)
        hx hy)
      have hval := toRat_of_fit? h hdvd (by omega)
      rw [coeffAt_add a b (le_max_left _ _) (le_max_right _ _),
        mul_div_cancel_right₀ _ (ten_pow_ne_zero _)] at hval
      exact ⟨x + y, by rw [hval, add_mul, hx, hy, Int.cast_add]⟩

theorem toRat_strip (m : Int) (s : Nat) (hm : m.natAbs < pow2 96) (hs : s ≤ 28) :
    (normalize.strip m s hm hs).toRat = (m : ℚ) / 10 ^ s := by
  -- Induction on the scale, as zeros are dropped one by one.
  induction s generalizing m with
  | zero => rw [normalize.strip, toRat_eq]
  | succ s ih =>
    rw [normalize.strip]
    split_ifs with hz
    · have hdiv : m = m.tdiv 10 * 10 := (Int.tdiv_mul_cancel (Int.dvd_of_emod_eq_zero hz)).symm
      rw [ih, div_eq_div_iff (ten_pow_ne_zero _) (ten_pow_ne_zero _), pow_succ]
      conv_rhs => rw [hdiv]
      push_cast
      ring
    · rw [toRat_eq]

/-- Dropping the zeros at the end keeps the value. -/
@[simp] theorem toRat_normalize (a : Decimal) : a.normalize.toRat = a.toRat := by
  rw [normalize, toRat_strip, toRat_eq]

theorem onGrid_of_normalize {a : Decimal} {p : Nat} (h : a.normalize.scale ≤ p) : a.OnGrid p := by
  obtain ⟨n, hn⟩ := onGrid_of_scale_le h
  exact ⟨n, by rw [← hn, toRat_normalize]⟩

/-- Zeros are dropped until a digit or the decimal point stands at the end. -/
theorem strip_reduced (m : Int) (s : Nat) (hm : m.natAbs < pow2 96) (hs : s ≤ 28) :
    (normalize.strip m s hm hs).scale = 0 ∨ ¬(10 : Int) ∣ (normalize.strip m s hm hs).coeff := by
  induction s generalizing m with
  | zero => exact .inl rfl
  | succ s ih =>
    rw [normalize.strip]
    split_ifs with hz
    · exact ih (m.tdiv 10) _ _
    · exact .inr fun hdvd => hz (Int.emod_eq_zero_of_dvd hdvd)

/-- **The fractional digits of a value:** no more than `p` of them are left after its zeros just if
the value is a multiple of `10 ^ (-p)`. -/
theorem scale_normalize_le_iff {a : Decimal} {p : Nat} : a.normalize.scale ≤ p ↔ a.OnGrid p := by
  refine ⟨onGrid_of_normalize, fun ⟨n, hn⟩ => ?_⟩
  rw [← toRat_normalize, toRat_eq, div_mul_eq_mul_div, div_eq_iff (ten_pow_ne_zero _)] at hn
  have hgrid : a.normalize.coeff * pow10 p = n * pow10 a.normalize.scale := by
    have hq : ((a.normalize.coeff * pow10 p : Int) : ℚ) =
        ((n * pow10 a.normalize.scale : Int) : ℚ) := by
      rw [Int.cast_mul, Int.cast_mul, Int.cast_natCast, Int.cast_natCast, pow10_cast, pow10_cast, hn]
    exact_mod_cast hq
  have hdvd := dvd_of_grid hgrid
  rcases strip_reduced a.coeff a.scale a.coeff_lt a.scale_le with hscale | hlast
  · exact hscale.le.trans (Nat.zero_le p)
  · -- A digit beyond the grid would be a zero at the end.
    by_contra hlt
    refine hlast (Dvd.dvd.trans ?_ hdvd)
    obtain ⟨k, hk⟩ := Nat.exists_eq_add_of_lt (not_le.1 hlt)
    rw [pow10_eq, hk, Nat.add_assoc, Nat.add_sub_cancel_left, pow_succ]
    push_cast
    exact Dvd.intro_left _ rfl

/-! ## 6. Sums that were not rounded -/

/-- The sum of two decimals, if there is one, is the sum of their values. -/
def AddsExactly (a b : Decimal) : Prop := ∀ c, a.add? b = some c → c.toRat = a.toRat + b.toRat

/-- **A sum that some decimal can hold is computed exactly:** at that decimal's scale nothing has to
be shed. -/
theorem add?_of_toRat {a b c : Decimal} (h : a.toRat + b.toRat = c.toRat) :
    ∃ d, a.add? b = some d ∧ d.toRat = c.toRat := by
  unfold add?
  split_ifs with hza hzb
  · exact ⟨b, rfl, by rw [← h, (isZero_iff a).1 hza, zero_add]⟩
  · exact ⟨a, rfl, by rw [← h, (isZero_iff b).1 hzb, add_zero]⟩
  · have hs := le_max_left a.scale b.scale
    have hs' := le_max_right a.scale b.scale
    generalize max a.scale b.scale = s at hs hs'
    have hsum := coeffAt_add a b hs hs'
    have hgrid : (a.coeffAt s + b.coeffAt s) * (pow10 c.scale : Int) = c.coeff * pow10 s := by
      have hq : (((a.coeffAt s + b.coeffAt s) * pow10 c.scale : Int) : ℚ) =
          ((c.coeff * pow10 s : Int) : ℚ) := by
        rw [Int.cast_mul, hsum, h, Int.cast_natCast, pow10_cast, Int.cast_mul, coeff_eq,
          Int.cast_natCast, pow10_cast]
        ring
      exact_mod_cast hq
    obtain ⟨d, hd, hval⟩ := fit?_exact c.scale_le c.coeff_lt hgrid
    refine ⟨d, hd, ?_⟩
    rw [hval, hsum, h, mul_div_cancel_right₀ _ (ten_pow_ne_zero s)]

theorem addsExactly_of_onGrid {a b : Decimal} {p : Nat} (hp : p ≤ 28) (ha : a.OnGrid p)
    (hb : b.OnGrid p) (hlt : |a.toRat + b.toRat| * 10 ^ p < 2 ^ 96) : a.AddsExactly b := by
  intro c hc
  obtain ⟨d, hd, hval⟩ := add?_exact hp ha hb hlt
  rw [hc] at hd
  cases hd
  exact hval

end Decimal

end WalletLedger
