/-
**Decimals as text.** Writing shows exactly `scale` fractional digits. Reading keeps the number of
fractional digits that were written for as long as they fit. A digit of the integer part that does
not fit is an error; a digit of the fraction that does not fit rounds the rest away, a half going
up, and ends the reading.

`toChars` and `ofChars?` are the two sides; both work on lists of characters, and the `String`
versions only wrap them.
-/
import WalletLedger.Decimal.Basic

set_option autoImplicit false

namespace WalletLedger.Decimal

/-! ## Writing -/

/-- The decimal digits of a number, at least `width` of them. -/
def digitsAtLeast (width n : Nat) : List Char :=
  (Nat.toDigits 10 n).leftpad width '0'

/-- The digits of `n / 10 ^ s`, with a point before the last `s` of them if there are any. -/
def unsignedChars (n s : Nat) : List Char :=
  let ds := digitsAtLeast (s + 1) n
  let whole := ds.length - s
  if s = 0 then ds else ds.take whole ++ '.' :: ds.drop whole

/-- A minus sign for a negative number. -/
def signChars (a : Decimal) : List Char := if a.isNegative then ['-'] else []

/-- **The written form:** all fractional digits, and at least one digit before the point. -/
def toChars (a : Decimal) : List Char :=
  a.signChars ++ unsignedChars a.coeff.natAbs a.scale

def toText (a : Decimal) : String := String.ofList a.toChars

/-- **A fixed number of places.** Digits beyond them are cut off, missing ones are zeros. The sign
is the number's own, so a negative number whose digits are all cut off shows as a negative zero. -/
def fixedChars (a : Decimal) (places : Nat) : List Char :=
  let cut := a.truncate places
  let missing := List.replicate (places - cut.scale) '0'
  let point := if cut.scale = 0 && 0 < places then ['.'] else []
  a.signChars ++ unsignedChars cut.coeff.natAbs cut.scale ++ point ++ missing

def toFixed (a : Decimal) (places : Nat) : String := String.ofList (a.fixedChars places)

/-! ## Reading -/

/-- Why a text is not a decimal. -/
inductive ReadError where
  /-- It is not of the form `digits[.digits]` with an optional sign. -/
  | malformed
  /-- The integer part is out of range. -/
  | tooManyDigits
  /-- Rounding the fraction away carries the integer part out of range. -/
  | roundedOut
deriving DecidableEq, Repr

def ReadError.message : ReadError → String
  | .malformed => "Invalid decimal: unknown character"
  | .tooManyDigits => "Invalid decimal: overflow from too many digits"
  | .roundedOut => "Invalid decimal: overflow from mantissa after rounding"

/-- The value of an ASCII digit. -/
def digit? (c : Char) : Option Nat := if c.isDigit then some (c.toNat - '0'.toNat) else none

/-- A magnitude `n / 10 ^ s` in range. -/
structure Magnitude where
  n : Nat
  s : Nat
  n_lt : n < pow2 96
  s_le : s ≤ 28

/-- No fractional digits are not too many. -/
theorem Magnitude.no_digits_le : 0 ≤ 28 := Nat.zero_le 28

def Magnitude.zero : Magnitude := ⟨0, 0, pow2_pos 96, no_digits_le⟩

/-- The decimal of a magnitude under a sign. -/
def Magnitude.signed (m : Magnitude) (negative : Bool) : Decimal :=
  if negative then ⟨-m.n, m.s, by simpa using m.n_lt, m.s_le⟩
  else ⟨m.n, m.s, by simpa using m.n_lt, m.s_le⟩

/-- **Rounding by the first digit that does not fit,** a half up. When the carry itself leaves the
range, the last digit kept is rounded away as well; without a fraction there is none to give. -/
def Magnitude.roundBy (m : Magnitude) (d : Nat) : Except ReadError Magnitude :=
  if d < 5 then .ok m
  else if h : m.n + 1 < pow2 96 then .ok ⟨m.n + 1, m.s, h, m.s_le⟩
  else if m.s = 0 then .error .roundedOut
  else
    .ok ⟨(m.n + 1 + 4) / 10, m.s - 1,
      by have := m.n_lt; have : pow2 96 = 79228162514264337593543950336 := by decide
         omega,
      by have := m.s_le; omega⟩

/-- **The fraction.** Underscores are skipped. At 28 places the next character only decides the
rounding: a digit rounds by its value, a separator does not round. -/
def readFraction (m : Magnitude) (seen : Bool) : List Char → Except ReadError Magnitude
  | [] => if seen then .ok m else .error .malformed
  | c :: rest =>
    if h : m.s < 28 then
      match digit? c with
      | some d =>
        if hn : m.n * 10 + d < pow2 96 then
          readFraction ⟨m.n * 10 + d, m.s + 1, hn, by omega⟩ true rest
        else m.roundBy d
      | none => if c = '_' && seen then readFraction m seen rest else .error .malformed
    else
      match digit? c with
      | some d => m.roundBy d
      | none => if c = '_' || c = '.' then .ok m else .error .malformed

/-- The integer part, and the fraction if a point follows. -/
def readWhole (m : Magnitude) (seen : Bool) : List Char → Except ReadError Magnitude
  | [] => if seen then .ok m else .error .malformed
  | c :: rest =>
    match digit? c with
    | some d =>
      if hn : m.n * 10 + d < pow2 96 then
        readWhole ⟨m.n * 10 + d, m.s, hn, m.s_le⟩ true rest
      else .error .tooManyDigits
    | none =>
      if c = '.' then readFraction m seen rest
      else if c = '_' && seen then readWhole m seen rest
      else .error .malformed

/-- **Reading:** an optional sign, digits, and an optional point with more digits. -/
def ofChars? : List Char → Except ReadError Decimal
  | '-' :: rest => (readWhole .zero false rest).map (·.signed true)
  | '+' :: rest => (readWhole .zero false rest).map (·.signed false)
  | cs => (readWhole .zero false cs).map (·.signed false)

def ofText? (text : String) : Except ReadError Decimal := ofChars? text.toList

end WalletLedger.Decimal
