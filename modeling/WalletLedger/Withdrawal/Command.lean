/-
**What is asked of the withdrawal flow,** and under which terms: the requests of owners, the
decisions of operators, and the policy of a destination network.
-/
import WalletLedger.Withdrawal

set_option autoImplicit false

namespace WalletLedger

/-- An owner asks for a payout; the amount includes the fee. -/
structure WithdrawalRequest where
  uuid : String
  currency : String
  amount : Decimal
  description : Option String
  destSymbol : String
  destAddress : String
  destNetwork : String
  destNote : Option String
deriving DecidableEq

/-- An operator confirms that a payout was made. -/
structure WithdrawalAcceptance where
  withdrawalId : Int
  destAmount : Option Decimal
  destTransactionRef : Option String
  destNote : Option String
  applicator : Option String
deriving DecidableEq

/-- An operator turns a payout down. -/
structure WithdrawalRejection where
  withdrawalId : Int
  statusReason : String
  destNote : Option String
  applicator : Option String
deriving DecidableEq

/-- An operator records a payout that was made elsewhere. -/
structure ManualWithdrawal where
  symbol : String
  sourceUuid : String
  receiverUuid : String
  amount : Decimal
  description : Option String
  ref : Option String
  attachment : Option String
deriving DecidableEq

/-- What became of a withdrawal. -/
structure WithdrawalOutcome where
  withdrawalId : Int
  status : WithdrawalStatus
deriving DecidableEq

/-- The terms of payouts of one currency through one network. -/
structure WithdrawalPolicy where
  enabled : Bool
  fee : Decimal
  minimum : Decimal
deriving DecidableEq

/-- A policy with what it applies to. -/
structure WithdrawalPolicyEntry extends WithdrawalPolicy where
  symbol : String
  network : String
deriving DecidableEq

/-- The policies by symbol and network. -/
abbrev WithdrawalPolicies := List ((String × String) × WithdrawalPolicy)

namespace WithdrawalPolicies

def find? (ps : WithdrawalPolicies) (symbol network : String) : Option WithdrawalPolicy :=
  ps.lookup (symbol, network)

/-- The last policy set for a pair counts. -/
def set (ps : WithdrawalPolicies) (symbol network : String) (p : WithdrawalPolicy) :
    WithdrawalPolicies :=
  ((symbol, network), p) :: ps.filter (·.1 ≠ (symbol, network))

def ofEntries (es : List WithdrawalPolicyEntry) : WithdrawalPolicies :=
  es.foldl (fun ps e => set ps e.symbol e.network e.toWithdrawalPolicy) []

end WithdrawalPolicies

/-! ## As documents -/

namespace WithdrawalRequest

def toDocument (c : WithdrawalRequest) : Document :=
  .object [
    ("uuid", .text c.uuid), ("currency", .text c.currency), ("amount", .ofDecimal c.amount),
    ("description", .ofOption .text c.description), ("dest_symbol", .text c.destSymbol),
    ("dest_address", .text c.destAddress), ("dest_network", .text c.destNetwork),
    ("dest_note", .ofOption .text c.destNote)]

def ofDocument? (d : Document) : Option WithdrawalRequest := do
  let d := d.record 8 ["uuid", "currency", "amount", "description", "dest_symbol", "dest_address",
    "dest_network", "dest_note"]
  return {
    uuid := ← d.need "uuid" Document.text?
    currency := ← d.need "currency" Document.text?
    amount := ← d.need "amount" Document.decimal?
    description := ← d.maybe "description" Document.text?
    destSymbol := ← d.need "dest_symbol" Document.text?
    destAddress := ← d.need "dest_address" Document.text?
    destNetwork := ← d.need "dest_network" Document.text?
    destNote := ← d.maybe "dest_note" Document.text? }

end WithdrawalRequest

namespace WithdrawalAcceptance

def toDocument (c : WithdrawalAcceptance) : Document :=
  .object [
    ("withdraw_id", .int c.withdrawalId), ("dest_amount", .ofOption .ofDecimal c.destAmount),
    ("dest_transaction_ref", .ofOption .text c.destTransactionRef),
    ("dest_note", .ofOption .text c.destNote), ("applicator", .ofOption .text c.applicator)]

def ofDocument? (d : Document) : Option WithdrawalAcceptance := do
  let d := d.record 5 ["withdraw_id", "dest_amount", "dest_transaction_ref", "dest_note",
    "applicator"]
  return {
    withdrawalId := ← d.need "withdraw_id" (Document.signed? 64)
    destAmount := ← d.maybe "dest_amount" Document.decimal?
    destTransactionRef := ← d.maybe "dest_transaction_ref" Document.text?
    destNote := ← d.maybe "dest_note" Document.text?
    applicator := ← d.maybe "applicator" Document.text? }

end WithdrawalAcceptance

namespace WithdrawalRejection

def toDocument (c : WithdrawalRejection) : Document :=
  .object [
    ("withdraw_id", .int c.withdrawalId), ("status_reason", .text c.statusReason),
    ("dest_note", .ofOption .text c.destNote), ("applicator", .ofOption .text c.applicator)]

def ofDocument? (d : Document) : Option WithdrawalRejection := do
  let d := d.record 4 ["withdraw_id", "status_reason", "dest_note", "applicator"]
  return {
    withdrawalId := ← d.need "withdraw_id" (Document.signed? 64)
    statusReason := ← d.need "status_reason" Document.text?
    destNote := ← d.maybe "dest_note" Document.text?
    applicator := ← d.maybe "applicator" Document.text? }

end WithdrawalRejection

namespace ManualWithdrawal

def toDocument (c : ManualWithdrawal) : Document :=
  .object [
    ("symbol", .text c.symbol), ("source_uuid", .text c.sourceUuid),
    ("receiver_uuid", .text c.receiverUuid), ("amount", .ofDecimal c.amount),
    ("description", .ofOption .text c.description), ("transfer_ref", .ofOption .text c.ref),
    ("attachment", .ofOption .text c.attachment)]

def ofDocument? (d : Document) : Option ManualWithdrawal := do
  let d := d.record 7 ["symbol", "source_uuid", "receiver_uuid", "amount", "description",
    "transfer_ref", "attachment"]
  return {
    symbol := ← d.need "symbol" Document.text?
    sourceUuid := ← d.need "source_uuid" Document.text?
    receiverUuid := ← d.need "receiver_uuid" Document.text?
    amount := ← d.need "amount" Document.decimal?
    description := ← d.maybe "description" Document.text?
    ref := ← d.maybe "transfer_ref" Document.text?
    attachment := ← d.maybe "attachment" Document.text? }

end ManualWithdrawal

namespace WithdrawalOutcome

def toDocument (r : WithdrawalOutcome) : Document :=
  .object [("withdraw_id", .int r.withdrawalId), ("status", r.status.toDocument)]

def ofDocument? (d : Document) : Option WithdrawalOutcome := do
  let d := d.record 2 ["withdraw_id", "status"]
  return {
    withdrawalId := ← d.need "withdraw_id" (Document.signed? 64)
    status := ← d.need "status" WithdrawalStatus.ofDocument? }

end WithdrawalOutcome

namespace WithdrawalPolicy

def toDocument (p : WithdrawalPolicy) : Document :=
  .object [
    ("enabled", .bool p.enabled), ("fee", .ofDecimal p.fee), ("minimum", .ofDecimal p.minimum)]

def ofDocument? (d : Document) : Option WithdrawalPolicy := do
  let d := d.record 3 ["enabled", "fee", "minimum"]
  return {
    enabled := ← d.need "enabled" Document.bool?
    fee := ← d.need "fee" Document.decimal?
    minimum := ← d.need "minimum" Document.decimal? }

end WithdrawalPolicy

namespace WithdrawalPolicyEntry

def fields : List String := ["symbol", "network", "enabled", "fee", "minimum"]

def toDocument (e : WithdrawalPolicyEntry) : Document :=
  .object [
    ("symbol", .text e.symbol), ("network", .text e.network), ("enabled", .bool e.enabled),
    ("fee", .ofDecimal e.fee), ("minimum", .ofDecimal e.minimum)]

/-- An entry is enabled and free of charge unless it says otherwise. -/
def ofDocument? (d : Document) : Option WithdrawalPolicyEntry := do
  let d := d.record 2 fields
  return {
    symbol := ← d.need "symbol" Document.text?
    network := ← d.need "network" Document.text?
    enabled := ← d.orElse "enabled" Document.bool? true
    fee := ← d.orElse "fee" Document.decimal? Decimal.zero
    minimum := ← d.orElse "minimum" Document.decimal? Decimal.zero }

end WithdrawalPolicyEntry

end WalletLedger
