/-
**The table of currencies,** ordered by symbol. A symbol that is registered keeps its entry for
good; only the two flags of an entry change.
-/
import WalletLedger.Currency
import WalletLedger.Routing.Rate

set_option autoImplicit false

namespace WalletLedger

structure CurrencyTable where
  rows : List Currency
deriving DecidableEq

namespace CurrencyTable

def empty : CurrencyTable := ⟨[]⟩

def find? (t : CurrencyTable) (symbol : String) : Option Currency :=
  t.rows.find? (·.symbol == symbol)

/-- The table with one more entry, in its place. -/
def insert (t : CurrencyTable) (c : Currency) : CurrencyTable :=
  ⟨(c :: t.rows).mergeSort fun a b => symbolLE a.symbol b.symbol⟩

/-- A table of given currencies, unchecked; of equal symbols the last stays. -/
def ofList (cs : List Currency) : CurrencyTable :=
  cs.foldl (fun t c => CurrencyTable.insert ⟨t.rows.filter (·.symbol ≠ c.symbol)⟩ c) empty

/-- **Registering** a currency whose symbol is well formed and new. -/
def add (t : CurrencyTable) (c : Currency) : Except Error CurrencyTable := do
  Currency.checkSymbol c.symbol
  if (t.find? c.symbol).isSome then .error (.internal (.currencyRegistered c.symbol))
  else .ok (t.insert c)

/-- The table with the entry of a symbol changed. -/
def update (t : CurrencyTable) (symbol : String) (f : Currency → Currency) :
    Except Error CurrencyTable :=
  if (t.find? symbol).isSome then
    .ok ⟨t.rows.map fun c => if c.symbol = symbol then f c else c⟩
  else .error (.currencyNotFound symbol)

def setTransitive (t : CurrencyTable) (symbol : String) (on : Bool) : Except Error CurrencyTable :=
  t.update symbol fun c => { c with isTransitive := on }

def setActive (t : CurrencyTable) (symbol : String) (on : Bool) : Except Error CurrencyTable :=
  t.update symbol fun c => { c with isActive := on }

end CurrencyTable

end WalletLedger
