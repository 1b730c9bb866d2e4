/-
**Values and rows of a database.** A row has its values under the names of their columns. Reading a
column is strict, and a column that cannot be read has a cause: it is missing, it is null, or its
value is none of the domain. Rows are read column by column, so the first cause is the one that is
told.

Writing a value and reading it are inverse, but for zero, which loses its scale on the way
(`decimal_ofDecimal`).
-/
import WalletLedger.Decimal.Basic
import WalletLedger.Error
import WalletLedger.Instant

set_option autoImplicit false

namespace WalletLedger

inductive Value where
  | null
  | bool (value : Bool)
  | int (value : Int)
  | text (value : String)
  /-- The number `coeff / 10 ^ scale`, of any size. -/
  | numeric (coeff : Int) (scale : Nat)
  | time (value : Instant)
  | ints (values : List Int)
deriving DecidableEq, Inhabited

/-- The values of a row under the names of their columns. -/
abbrev Row := List (String × Value)

namespace Value

/-! ## Writing -/

/-- A decimal keeps its scale; only zero is written without one. -/
def ofDecimal (d : Decimal) : Value := if d.isZero then .numeric 0 0 else .numeric d.coeff d.scale

/-- Absence is null. -/
def ofOption {α : Type} (write : α → Value) : Option α → Value
  | none => .null
  | some a => write a

/-- A count or an offset, kept to 64 bits in two's complement. -/
def ofNat (n : Nat) : Value := .int (Int.bmod n (pow2 64))

/-! ## Reading

A reader gets the name of the column for the cause that it may have to tell. -/

/-- How the value of a column is read. -/
abbrev Reader (α : Type) := String → Value → Except DatabaseFault α

def asBool : Reader Bool
  | _, .bool b => .ok b
  | column, .null => .error (.nullColumn column)
  | column, _ => .error (.mistyped column)

def asInt : Reader Int
  | _, .int n => .ok n
  | column, .null => .error (.nullColumn column)
  | column, _ => .error (.mistyped column)

def asText : Reader String
  | _, .text s => .ok s
  | column, .null => .error (.nullColumn column)
  | column, _ => .error (.mistyped column)

def asTime : Reader Instant
  | _, .time t => .ok t
  | column, .null => .error (.nullColumn column)
  | column, _ => .error (.mistyped column)

/-- **A number as a decimal:** zero has no scale, and a number that is out of range sheds digits. -/
def decimalOf? (coeff : Int) (scale : Nat) : Option Decimal :=
  if coeff = 0 then some .zero else Decimal.fit? coeff scale

def asDecimal : Reader Decimal
  | column, .numeric coeff scale =>
    match decimalOf? coeff scale with
    | some d => .ok d
    | none => .error (.unrepresentable column)
  | column, .null => .error (.nullColumn column)
  | column, _ => .error (.mistyped column)

/-- A value that may be null. -/
def orNull {α : Type} (read : Reader α) : Reader (Option α)
  | _, .null => .ok none
  | column, v => (read column v).map some

/-- A decimal that is written is read again, and a zero as the plain one. -/
theorem decimal_ofDecimal (column : String) (d : Decimal) :
    asDecimal column (ofDecimal d) = .ok (if d.isZero then .zero else d) := by
  by_cases h : d.isZero = true
  · simp [ofDecimal, h, asDecimal, decimalOf?]
  · have hc : d.coeff ≠ 0 := by simpa [Decimal.isZero] using h
    simp [ofDecimal, h, asDecimal, decimalOf?, hc, Decimal.fit?_eq_some_of_fits]

end Value

namespace Row

/-- The value of a column; of two columns of one name the last counts. -/
def value? (r : Row) (column : String) : Option Value := r.reverse.lookup column

/-- **Reading a column.** -/
def get {α : Type} (r : Row) (column : String) (read : Value.Reader α) : Except Error α :=
  match r.value? column with
  | none => .error (.database (.missingColumn column))
  | some v => (read column v).mapError .database

def bool (r : Row) (column : String) : Except Error Bool := r.get column Value.asBool

def int (r : Row) (column : String) : Except Error Int := r.get column Value.asInt

def text (r : Row) (column : String) : Except Error String := r.get column Value.asText

def time (r : Row) (column : String) : Except Error Instant := r.get column Value.asTime

def decimal (r : Row) (column : String) : Except Error Decimal := r.get column Value.asDecimal

def int? (r : Row) (column : String) : Except Error (Option Int) :=
  r.get column (Value.orNull Value.asInt)

def text? (r : Row) (column : String) : Except Error (Option String) :=
  r.get column (Value.orNull Value.asText)

def time? (r : Row) (column : String) : Except Error (Option Instant) :=
  r.get column (Value.orNull Value.asTime)

def decimal? (r : Row) (column : String) : Except Error (Option Decimal) :=
  r.get column (Value.orNull Value.asDecimal)

/-- The only value of a row that answers a question, which has a position and no name. -/
def single {α : Type} (r : Row) (read : Value.Reader α) : Except Error α :=
  match r with
  | [] => .error (.database
      (.other "column index out of bounds: the len is 0, but the index is 0"))
  | (_, .null) :: _ => .error (.database (.nullPosition 0))
  | (_, v) :: _ => (read "0" v).mapError .database

/-- What a stored value stands for, if it stands for anything. -/
def known {α : Type} (what shown : String) : Option α → Except Error α
  | some a => .ok a
  | none => .error (.internal (.corrupt what shown))

end Row

end WalletLedger
