/-
**Transfers between owners.** The sender's wallet must exist; the receiver and the receiver's wallet
are created if they do not.
-/
import WalletLedger.Ledger.Conversion
import WalletLedger.Ledger.Engine
import WalletLedger.Ledger.Owners
import WalletLedger.TransferRequest

set_option autoImplicit false

namespace WalletLedger

/-- **An amount of a currency that can be moved:** positive, and with no more fractional digits than
the currency has, zeros at the end not counted. -/
def Currency.checkedAmount (c : Currency) (value : Decimal) : Except Error Amount :=
  if !value.isPositive || c.precision < value.normalize.scale then .error .invalidAmount
  else .ok ⟨c.symbol, value⟩

namespace Ledger

open WalletLedger.Action

variable {σ : Type} [Stores σ]

/-- **Moves funds between two owners.** -/
def transfer (t : Terms) (r : TransferRequest) : Action (Ledger σ) Receipt := do
  require .cashoutEndpoint (r.senderKind ≠ .cashout && r.receiverKind ≠ .cashout)
  let currency ← requireActive r.symbol
  let amount ← ofExcept (currency.checkedAmount r.amount)
  let sender ← requireOwner r.senderUuid
  let source ← requireWallet sender currency.symbol r.senderKind
  let receiver ← findOrCreateOwner r.receiverUuid
  let dest ← findOrCreateWallet receiver currency.symbol r.receiverKind
  post t .generic (.ofAmount source dest amount r.category r.description r.ref)

/-- **A deposit** comes from the system. A receiver who exists must be allowed to receive it. -/
def deposit (t : Terms) (symbol receiver : String) (kind : WalletKind) (amount : Decimal)
    (description ref : Option String) : Action (Ledger σ) Receipt := do
  require .forbidden ((← ask (.findOwner receiver)).all (·.canDeposit))
  transfer t
    { symbol, senderUuid := t.systemUuid, senderKind := .main, receiverUuid := receiver,
      receiverKind := kind, amount, description, ref, category := .deposit }

/-- A deposit that an operator makes from the main wallet of an owner. -/
def depositManually (t : Terms) (symbol sender receiver : String) (amount : Decimal)
    (description ref : Option String) : Action (Ledger σ) Receipt :=
  transfer t
    { symbol, senderUuid := sender, senderKind := .main, receiverUuid := receiver,
      receiverKind := .main, amount, description, ref, category := .depositManually }

/-- **A quote:** what an amount is worth in another currency, truncated to that currency's
fractional digits. -/
def quote (t : Terms) (symbol : String) (value : Decimal) (dest : String) :
    Action (Ledger σ) Amount := do
  let currency ← requireActive dest
  let converted ← convert t ⟨symbol, value⟩ dest
  return converted.truncate currency.precision

end Ledger

end WalletLedger
