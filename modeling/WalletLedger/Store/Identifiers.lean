/-
**Identifiers for new rows.** A source gives one identifier for each number, so that rows numbered
differently are named differently.
-/
import WalletLedger.Instant
import WalletLedger.TransferId

set_option autoImplicit false

namespace WalletLedger

/-- The identifiers that the next new rows will bear. -/
structure FreshIds where
  transfer : TransferId
  reservation : String
  attempt : String

/-- Where identifiers come from: the first, the second, and so on. -/
structure IdSource where
  transfer : Nat → TransferId
  reservation : Nat → String
  attempt : Nat → String

namespace IdSource

/-- The last `count` digits of a number to the base of sixteen, in small letters. -/
def hexDigits (count n : Nat) : String :=
  String.ofList ((List.range count).map fun i =>
    Nat.digitChar (n / pow2 (4 * (count - 1 - i)) % 16))

/-- **A source for one run,** from when it began and a number that no other run has. Identifiers of
postings begin with the time, and all of them end with the number of the row. -/
def ofSeed (begun : Instant) (seed : Nat) : IdSource where
  transfer n := .ofNat (begun.toNat * pow2 80 + seed % pow2 32 * pow2 48 + n)
  reservation n := hexDigits 32 (seed * pow2 64 + n)
  attempt n := hexDigits 32 (seed * pow2 64 + n)

end IdSource

end WalletLedger
