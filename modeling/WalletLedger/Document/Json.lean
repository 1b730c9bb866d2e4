/-
**Documents as JSON,** on one line and without blanks.
-/
import WalletLedger.Document
import WalletLedger.Text.Quoted

set_option autoImplicit false

namespace WalletLedger.Document

mutual

/-- The JSON text of a document. -/
def toJson : Document → String
  | .null => "null"
  | .bool b => if b then "true" else "false"
  | .int n => toString n
  | .real coeff places => (if coeff < 0 then "-" else "") ++
    String.ofList (Decimal.unsignedChars coeff.natAbs places)
  | .text s | .plain s => Text.json s
  | .list items => "[" ++ ",".intercalate (itemsToJson items) ++ "]"
  | .object entries => "\x7b" ++ ",".intercalate (entriesToJson entries) ++ "\x7d"

/-- The texts of the items of a list. -/
def itemsToJson : List Document → List String
  | [] => []
  | d :: rest => toJson d :: itemsToJson rest

/-- The texts of the entries of an object. -/
def entriesToJson : List (String × Document) → List String
  | [] => []
  | (name, d) :: rest => (Text.json name ++ ":" ++ toJson d) :: entriesToJson rest

end

end WalletLedger.Document
