/-
**Currencies, rates and forbidden pairs in a database:** how they are rows, and the statements that
find and change them.
-/
import WalletLedger.Database.Basic

set_option autoImplicit false

namespace WalletLedger

/-! ## Rows -/

namespace Currency

def columns : List String := ["symbol", "name", "precision_dp", "is_transitive", "is_active"]

/-- The precisions that a database can hold. -/
def maxStoredPrecision : Nat := pow2 31 - 1

def toRow (c : Currency) : Row :=
  [("symbol", .text c.symbol), ("name", .text c.name), ("precision_dp", .int c.precision),
    ("is_transitive", .bool c.isTransitive), ("is_active", .bool c.isActive)]

def ofRow (r : Row) : Except Error Currency := do
  let stored ← r.int "precision_dp"
  let symbol ← r.text "symbol"
  let name ← r.text "name"
  let precision ← Row.known "precision_dp" (toString stored) stored.toNat?
  let isTransitive ← r.bool "is_transitive"
  let isActive ← r.bool "is_active"
  return { symbol, name, precision, isTransitive, isActive }

end Currency

namespace Rate

def toRow (r : Rate) : Row :=
  [("source_symbol", .text r.source), ("dest_symbol", .text r.dest), ("rate", .ofDecimal r.rate)]

def ofRow (r : Row) : Except Error Rate := do
  let source ← r.text "source_symbol"
  let dest ← r.text "dest_symbol"
  let rate ← r.decimal "rate"
  return { source, dest, rate }

end Rate

namespace ForbiddenPair

def toRow (p : ForbiddenPair) : Row :=
  [("source_symbol", .text p.source), ("dest_symbol", .text p.dest)]

def ofRow (r : Row) : Except Error ForbiddenPair := do
  let source ← r.text "source_symbol"
  let dest ← r.text "dest_symbol"
  return { source, dest }

end ForbiddenPair

namespace Database

open WalletLedger.Action Statement

/-! ## Currencies -/

def selectCurrencies (which : String) (values : List Value) : Statement where
  text := words ["SELECT", names Currency.columns, "FROM currencies_tb", which]
  values

def findCurrency (symbol : String) : Action Database (Option Currency) :=
  fetch? Currency.ofRow (selectCurrencies "WHERE symbol = $1" [.text symbol])

def listCurrencies : Action Database (List Currency) :=
  fetchAll Currency.ofRow (selectCurrencies "ORDER BY symbol" [])

def addCurrency (c : Currency) : Action Database Unit := do
  ofExcept (Currency.checkSymbol c.symbol)
  require (.internal (.precisionTooLarge c.precision)) (c.precision ≤ Currency.maxStoredPrecision)
  let _ ← whenTaken (.internal (.currencyRegistered c.symbol))
    (execute (insert "currencies_tb" c.toRow []))

/-- Changes one of the two flags of a currency. -/
def setFlag (column symbol : String) (on : Bool) : Action Database Unit :=
  mustChange (.currencyNotFound symbol)
    ⟨words ["UPDATE currencies_tb SET", column, "= $2 WHERE symbol = $1"],
      [.text symbol, .bool on]⟩

/-! ## Rates -/

/-- The pair of symbols in the places of a condition. -/
def pairValues (source dest : String) : List Value := [.text source, .text dest]

def listRates : Action Database (List Rate) :=
  fetchAll Rate.ofRow ⟨words ["SELECT source_symbol, dest_symbol, rate FROM rates_tb",
    "ORDER BY source_symbol, dest_symbol"], []⟩

def findRate (source dest : String) : Action Database (Option Rate) :=
  fetch? Rate.ofRow ⟨words ["SELECT source_symbol, dest_symbol, rate FROM rates_tb",
    "WHERE source_symbol = $1 AND dest_symbol = $2"], pairValues source dest⟩

def addRate (r : Rate) (ignoreIfExists : Bool) : Action Database Unit := do
  let added ← execute
    (insert "rates_tb" r.toRow ["ON CONFLICT (source_symbol, dest_symbol) DO NOTHING"])
  require (.rateExists r.source r.dest) (0 < added || ignoreIfExists)

def updateRate (r : Rate) : Action Database Unit :=
  mustChange (.rateNotFound r.source r.dest)
    ⟨"UPDATE rates_tb SET rate = $3 WHERE source_symbol = $1 AND dest_symbol = $2",
      pairValues r.source r.dest ++ [.ofDecimal r.rate]⟩

def deleteRate (source dest : String) : Action Database Unit :=
  mustChange (.rateNotFound source dest)
    ⟨"DELETE FROM rates_tb WHERE source_symbol = $1 AND dest_symbol = $2",
      pairValues source dest⟩

/-! ## Forbidden pairs -/

def listForbidden : Action Database (List ForbiddenPair) :=
  fetchAll ForbiddenPair.ofRow ⟨words [
    "SELECT source_symbol, dest_symbol FROM forbidden_pairs_tb",
    "ORDER BY source_symbol, dest_symbol"], []⟩

def forbid (p : ForbiddenPair) : Action Database Unit := do
  let _ ← execute (insert "forbidden_pairs_tb" p.toRow ["ON CONFLICT DO NOTHING"])

def allow (p : ForbiddenPair) : Action Database Unit := do
  let _ ← execute
    ⟨"DELETE FROM forbidden_pairs_tb WHERE source_symbol = $1 AND dest_symbol = $2",
      pairValues p.source p.dest⟩

end Database

end WalletLedger
