/-
**Currencies.** A currency is known by its symbol and says how many fractional digits an amount of
it may have. Two flags govern its use: only an active currency can be moved or routed through, and
only a transitive one can stand in the middle of a conversion.
-/
import WalletLedger.Document
import WalletLedger.Error
import WalletLedger.Text.Quoted

set_option autoImplicit false

namespace WalletLedger

structure Currency where
  symbol : String
  name : String
  /-- The number of fractional digits accepted in amounts. -/
  precision : Nat
  isTransitive : Bool
  isActive : Bool
deriving DecidableEq, Inhabited

namespace Currency

/-- A new currency is active and not transitive. -/
def define (symbol name : String) (precision : Nat) : Currency :=
  { symbol, name, precision, isTransitive := false, isActive := true }

def transitive (c : Currency) : Currency := { c with isTransitive := true }

/-- The characters of a symbol. -/
def isSymbolChar (c : Char) : Bool := c.isUpper || c.isDigit || c = '_'

/-- **Symbols** are one to sixteen capital letters, digits and underscores. -/
def isSymbol (s : String) : Bool :=
  s ≠ "" && s.utf8ByteSize ≤ 16 && s.toList.all isSymbolChar

def checkSymbol (s : String) : Except Error Unit :=
  if isSymbol s then .ok () else .error (.internal (.invalidSymbol (Text.shown s)))

def fields : List String := ["symbol", "name", "precision", "is_transitive", "is_active"]

def toDocument (c : Currency) : Document :=
  .object [
    ("symbol", .text c.symbol), ("name", .text c.name), ("precision", .int c.precision),
    ("is_transitive", .bool c.isTransitive), ("is_active", .bool c.isActive)]

def ofDocument? (d : Document) : Option Currency := do
  let d := d.record 5 fields
  return {
    symbol := ← d.need "symbol" Document.text?
    name := ← d.need "name" Document.text?
    precision := ← d.need "precision" (Document.nat? 32)
    isTransitive := ← d.need "is_transitive" Document.bool?
    isActive := ← d.need "is_active" Document.bool? }

end Currency

end WalletLedger
