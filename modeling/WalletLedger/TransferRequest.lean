/-
**Requests to move funds** between two owners within one currency.
-/
import WalletLedger.Posting

set_option autoImplicit false

namespace WalletLedger

structure TransferRequest where
  symbol : String
  senderUuid : String
  senderKind : WalletKind
  receiverUuid : String
  receiverKind : WalletKind
  amount : Decimal
  description : Option String
  ref : Option String
  category : Category
deriving DecidableEq

namespace TransferRequest

def toDocument (r : TransferRequest) : Document :=
  .object [
    ("symbol", .text r.symbol),
    ("sender_uuid", .text r.senderUuid),
    ("sender_wallet_type", r.senderKind.toDocument),
    ("receiver_uuid", .text r.receiverUuid),
    ("receiver_wallet_type", r.receiverKind.toDocument),
    ("amount", .ofDecimal r.amount),
    ("description", .ofOption .text r.description),
    ("transfer_ref", .ofOption .text r.ref),
    ("category", r.category.toDocument)]

/-- Both wallets are main wallets, and there is no category, unless the request says otherwise. -/
def ofDocument? (d : Document) : Option TransferRequest := do
  let d := d.record 8 ["symbol", "sender_uuid", "sender_wallet_type", "receiver_uuid",
    "receiver_wallet_type", "amount", "description", "transfer_ref", "category"]
  return {
    symbol := ← d.need "symbol" Document.text?
    senderUuid := ← d.need "sender_uuid" Document.text?
    senderKind := ← d.orElse "sender_wallet_type" WalletKind.ofDocument? .main
    receiverUuid := ← d.need "receiver_uuid" Document.text?
    receiverKind := ← d.orElse "receiver_wallet_type" WalletKind.ofDocument? .main
    amount := ← d.need "amount" Document.decimal?
    description := ← d.maybe "description" Document.text?
    ref := ← d.maybe "transfer_ref" Document.text?
    category := ← d.orElse "category" Category.ofDocument? .uncategorized }

end TransferRequest

end WalletLedger
