/-
**Amounts:** a decimal in a currency. Sums of two currencies are refused before anything is
computed. Amounts given as text are read strictly: more fractional digits than the currency has
are an error and never cut off.
-/
import WalletLedger.Document
import WalletLedger.Error
import WalletLedger.Text.Blank

set_option autoImplicit false

namespace WalletLedger

/-- A value in one currency. -/
structure Amount where
  currency : String
  value : Decimal
deriving DecidableEq, Inhabited

namespace Amount

def zero (currency : String) : Amount := ⟨currency, Decimal.zero⟩

def isPositive (a : Amount) : Bool := a.value.isPositive

/-- The same currency and the same number, at whatever scale. -/
def same (a b : Amount) : Bool := a.currency == b.currency && a.value.sameValue b.value

def checkCurrency (a b : Amount) : Except Error Unit :=
  if a.currency = b.currency then .ok ()
  else .error (.currencyMismatch a.currency b.currency)

def add (a b : Amount) : Except Error Amount := do
  a.checkCurrency b
  match a.value.add? b.value with
  | some value => .ok ⟨a.currency, value⟩
  | none => .error (.internal .amountOverflow)

def sub (a b : Amount) : Except Error Amount := do
  a.checkCurrency b
  match a.value.sub? b.value with
  | some value => .ok ⟨a.currency, value⟩
  | none => .error (.internal .amountOverflow)

/-- The amount in another currency, at a rate. -/
def convert (a : Amount) (dest : String) (rate : Decimal) : Except Error Amount :=
  match a.value.mul? rate with
  | some value => .ok ⟨dest, value⟩
  | none => .error (.internal .conversionOverflow)

/-- Truncated to the fractional digits of a currency. -/
def truncate (a : Amount) (precision : Nat) : Amount := ⟨a.currency, a.value.truncate precision⟩

/-- The amount as a person reads it, without zeros at its end. -/
def display (a : Amount) : String := a.value.normalize.toText ++ " " ++ a.currency

def toDocument (a : Amount) : Document :=
  .object [("currency", .text a.currency), ("value", .ofDecimal a.value)]

def ofDocument? (d : Document) : Option Amount := do
  let d := d.record 2 ["currency", "value"]
  return {
    currency := ← d.need "currency" Document.text?
    value := ← d.need "value" Document.decimal? }

/-! ## Amounts given as text -/

/-- Why a text is not an amount of a currency. -/
inductive ReadError where
  | precisionOverflow (provided max : Nat)
  | notPositive
  | emptyText
  | missingWhole
  | missingFraction
  | pointInWhole
  | strayCharacter (text : String)
  | outOfRange (why : Decimal.ReadError)
deriving DecidableEq, Repr

namespace ReadError

/-- The three classes in which the errors are reported. -/
inductive Kind where
  | precisionOverflow
  | invalidAmount
  | invalidFormat
deriving DecidableEq, Repr

def kind : ReadError → Kind
  | .precisionOverflow _ _ => .precisionOverflow
  | .notPositive => .invalidAmount
  | _ => .invalidFormat

def Kind.name : Kind → String
  | .precisionOverflow => "PrecisionOverflow"
  | .invalidAmount => "InvalidAmount"
  | .invalidFormat => "InvalidFormat"

def message : ReadError → String
  | .precisionOverflow provided max =>
    "Precision overflow: provided " ++ toString provided ++ " decimals, max allowed " ++
      toString max
  | .notPositive => "Amount must be positive"
  | .emptyText => "Invalid format: empty string"
  | .missingWhole => "Invalid format: missing leading zero (e.g., use 0.5 instead of .5)"
  | .missingFraction => "Invalid format: missing fractional part (e.g., use 5.0 instead of 5.)"
  | .pointInWhole => "Invalid format: precision is 0, but dot provided"
  | .strayCharacter text => "Invalid format: invalid character in amount: " ++ text
  | .outOfRange why => "Invalid format: " ++ why.message

/-- To the ledger every such text is an invalid amount. -/
def toError (_ : ReadError) : Error := .invalidAmount

end ReadError

/-- The integer part and the fraction of a text, which are empty only together with their point. -/
def splitPoint (cs : List Char) (precision : Nat) :
    Except ReadError (List Char × List Char) :=
  let whole := cs.takeWhile (· ≠ '.')
  match cs.dropWhile (· ≠ '.') with
  | [] => .ok (whole, [])
  | _ :: fraction =>
    if whole = [] then .error .missingWhole
    else if fraction = [] then .error .missingFraction
    else if precision = 0 then .error .pointInWhole
    else .ok (whole, fraction)

/-- **Reading an amount** of a currency with `precision` fractional digits: blanks around it are
ignored, a sign is not accepted, and a zero is no amount. -/
def read (text : String) (precision : Nat) : Except ReadError Decimal := do
  let cs := Text.trim text.toList
  if cs = [] then throw .emptyText
  if cs.head? = some '-' || cs.head? = some '+' then throw .notPositive
  let (whole, fraction) ← splitPoint cs precision
  if !(whole.all Char.isDigit && fraction.all Char.isDigit) then
    throw (.strayCharacter (String.ofList cs))
  if precision < fraction.length then throw (.precisionOverflow fraction.length precision)
  match Decimal.ofChars? cs with
  | .error why => throw (.outOfRange why)
  | .ok value => if value.isZero then throw .notPositive else return value

/-- **Writing a value** with a fixed number of fractional digits. -/
def format (value : Decimal) (places : Nat) : String := value.toFixed places

/-- The digits in front of the point and behind it, up to the last place that a decimal can have. -/
def digitsWritten (value : Decimal) (places : Nat) : Nat :=
  (Nat.toDigits 10 (value.coeff.natAbs / pow10 value.scale)).length + min places 28

/-- **Writing a value, if there is room for it:** for a point and 31 digits, behind which any number
of zeros can be added. -/
def format? (value : Decimal) (places : Nat) : Option String :=
  if digitsWritten value places ≤ 31 then some (format value places) else none

end Amount

end WalletLedger
