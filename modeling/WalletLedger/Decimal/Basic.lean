/-
**Decimal numbers with a visible scale.** A `Decimal` is the fraction `coeff / 10 ^ scale` with a
coefficient below `2 ^ 96` and at most 28 fractional digits. The scale is part of the value's
identity: `1.50` and `1.5` are numerically equal (`sameValue`) and still two different decimals,
because they are written differently. Zero has one sign, so the coefficient is an integer rather
than a sign and a magnitude.

Every operation that can leave the range goes through one rule, `fit?`: shed the fewest digits
that bring an exact result back into range, rounding once, a half to the even neighbour. That
`fit?` changes nothing when nothing has to be shed is `fit?_eq_some_of_fits`.
-/
import WalletLedger.Power

set_option autoImplicit false

namespace WalletLedger

/-- The decimal number `coeff / 10 ^ scale`; the scale counts its fractional digits. -/
structure Decimal where
  coeff : Int
  scale : Nat
  coeff_lt : coeff.natAbs < pow2 96
  scale_le : scale ≤ 28
deriving DecidableEq

namespace Decimal

/-! ## Value and order -/

/-- The rational number that a decimal stands for. -/
def toRat (a : Decimal) : Rat := mkRat a.coeff (pow10 a.scale)

/-- Two decimals of one value, whatever their scales. -/
def sameValue (a b : Decimal) : Bool :=
  a.coeff * pow10 b.scale == b.coeff * pow10 a.scale

/-- Order is by value: the scales are cleared by cross-multiplication. -/
instance : LT Decimal := ⟨fun a b => a.coeff * pow10 b.scale < b.coeff * pow10 a.scale⟩

instance : LE Decimal := ⟨fun a b => a.coeff * pow10 b.scale ≤ b.coeff * pow10 a.scale⟩

instance (a b : Decimal) : Decidable (a < b) :=
  inferInstanceAs (Decidable (_ < (_ : Int)))

instance (a b : Decimal) : Decidable (a ≤ b) :=
  inferInstanceAs (Decidable (_ ≤ (_ : Int)))

/-- Zero without fractional digits. -/
def zero : Decimal := ⟨0, 0, by decide, by decide⟩

/-- One without fractional digits. -/
def one : Decimal := ⟨1, 0, by decide, by decide⟩

instance : Inhabited Decimal := ⟨zero⟩

/-- Zero at any scale. -/
def isZero (a : Decimal) : Bool := a.coeff == 0

def isPositive (a : Decimal) : Bool := 0 < a.coeff

def isNegative (a : Decimal) : Bool := a.coeff < 0

/-- An integer as a decimal of scale 0, if it is in range. -/
def ofInt? (n : Int) : Option Decimal :=
  if h : n.natAbs < pow2 96 then some ⟨n, 0, h, Nat.zero_le _⟩ else none

/-! ## Shedding digits -/

/-- `m / d` rounded to the nearest integer, a half to the even one. -/
def roundHalfEven (m d : Nat) : Nat :=
  let q := m / d
  let r := m % d
  if 2 * r < d then q
  else if d < 2 * r then q + 1
  else if q % 2 = 0 then q
  else q + 1

/-- **Shed `k` digits** of an integer, rounding its magnitude half to even. -/
def shed (m : Int) (k : Nat) : Int :=
  m.sign * roundHalfEven m.natAbs (pow10 k)

/-- Whether `m / 10 ^ s` is in range once `k` of its digits are shed. -/
def fitsAfter (m : Int) (s k : Nat) : Bool :=
  s - 28 ≤ k && (shed m k).natAbs < pow2 96

/-- **Bring `m / 10 ^ s` into range** by shedding the fewest fractional digits that suffice.
There is no result if even the integer part is out of range. -/
def fit? (m : Int) (s : Nat) : Option Decimal :=
  match h : (List.range (s + 1)).find? (fitsAfter m s) with
  | none => none
  | some k =>
    have fits : fitsAfter m s k = true := List.find?_some h
    have both : s - 28 ≤ k ∧ (shed m k).natAbs < pow2 96 := by
      simpa [fitsAfter] using fits
    some ⟨shed m k, s - k, both.2, by omega⟩

theorem roundHalfEven_one (m : Nat) : roundHalfEven m 1 = m := by
  simp [roundHalfEven, Nat.mod_one]

theorem shed_zero (m : Int) : shed m 0 = m := by
  rw [shed, pow10_zero, roundHalfEven_one, Int.sign_mul_natAbs]

/-- Nothing is shed from what is already in range. -/
theorem fit?_eq_some_of_fits (a : Decimal) : fit? a.coeff a.scale = some a := by
  have first : (List.range (a.scale + 1)).find? (fitsAfter a.coeff a.scale) = some 0 := by
    have hs : a.scale - 28 ≤ 0 := by have := a.scale_le; omega
    have fits : fitsAfter a.coeff a.scale 0 = true := by
      rw [fitsAfter, shed_zero, decide_eq_true hs, decide_eq_true a.coeff_lt]
      rfl
    rw [List.range_succ_eq_map, List.find?_cons_of_pos fits]
  unfold fit?
  split
  · simp_all
  · rename_i k h
    rw [first] at h
    obtain rfl : 0 = k := by simpa using h
    simp [shed_zero]

/-! ## Arithmetic -/

/-- The coefficient at a scale that is at least the decimal's own. -/
def coeffAt (a : Decimal) (s : Nat) : Int := a.coeff * pow10 (s - a.scale)

/-- **Addition.** A zero of any scale is neutral and leaves the other operand's scale alone;
otherwise the exact sum at the larger scale is brought into range. -/
def add? (a b : Decimal) : Option Decimal :=
  if a.isZero then some b
  else if b.isZero then some a
  else
    let s := max a.scale b.scale
    fit? (a.coeffAt s + b.coeffAt s) s

/-- The opposite value at the same scale. -/
def neg (a : Decimal) : Decimal :=
  ⟨-a.coeff, a.scale, by simpa using a.coeff_lt, a.scale_le⟩

/-- Subtraction adds the opposite. -/
def sub? (a b : Decimal) : Option Decimal := a.add? b.neg

/-- **Multiplication.** A zero factor gives the plain zero. So does a product of two coefficients
below `2 ^ 32` with more than 47 fractional digits, without its digits being looked at. Any other
exact product is brought into range. -/
def mul? (a b : Decimal) : Option Decimal :=
  if a.isZero || b.isZero then some zero
  else if a.coeff.natAbs < pow2 32 && b.coeff.natAbs < pow2 32 && 47 < a.scale + b.scale then
    some zero
  else fit? (a.coeff * b.coeff) (a.scale + b.scale)

theorem natAbs_tdiv_lt {m d : Int} {bound : Nat} (h : m.natAbs < bound) :
    (m.tdiv d).natAbs < bound := by
  rw [Int.natAbs_tdiv]
  exact Nat.lt_of_le_of_lt (Nat.div_le_self _ _) h

/-- The decimal without the zeros at the end of its fraction. -/
def normalize (a : Decimal) : Decimal :=
  strip a.coeff a.scale a.coeff_lt a.scale_le
where
  /-- Drops one digit at a time while the last one is a fractional zero. -/
  strip (m : Int) : (s : Nat) → m.natAbs < pow2 96 → s ≤ 28 → Decimal
    | 0, hm, hs => ⟨m, 0, hm, hs⟩
    | s + 1, hm, hs =>
      if m % 10 = 0 then strip (m.tdiv 10) s (natAbs_tdiv_lt hm) (by omega)
      else ⟨m, s + 1, hm, hs⟩

/-- **Truncation** to at most `places` fractional digits, toward zero. -/
def truncate (a : Decimal) (places : Nat) : Decimal :=
  if h : a.scale ≤ places then a
  else
    ⟨a.coeff.tdiv (pow10 (a.scale - places)), places, natAbs_tdiv_lt a.coeff_lt,
      by have := a.scale_le; omega⟩

end Decimal

end WalletLedger
