/-
**Withdrawals.** A withdrawal sets funds aside in the owner's cashout wallet until it is accepted,
canceled or rejected. Its row tells the net amount and the fee, whose sum is what the cashout
wallet holds for it while it is open.
-/
import WalletLedger.Posting

set_option autoImplicit false

namespace WalletLedger

/-! ## Status and type -/

/-- A new withdrawal can be taken up, accepted, canceled or rejected; one that is being processed
can only be accepted or rejected; the other three states are final. -/
inductive WithdrawalStatus where
  | created
  | processing
  | done
  | canceled
  | rejected
deriving DecidableEq, Inhabited

namespace WithdrawalStatus

def all : List WithdrawalStatus := [.created, .processing, .done, .canceled, .rejected]

/-- The number under which a status is stored. -/
def id : WithdrawalStatus → Int
  | .created => 0
  | .processing => 10
  | .done => 20
  | .canceled => 30
  | .rejected => 40

def ofId? : Int → Option WithdrawalStatus
  | 0 => some .created
  | 10 => some .processing
  | 20 => some .done
  | 30 => some .canceled
  | 40 => some .rejected
  | _ => none

def name : WithdrawalStatus → String
  | .created => "CREATED"
  | .processing => "PROCESSING"
  | .done => "DONE"
  | .canceled => "CANCELED"
  | .rejected => "REJECTED"

def isTerminal : WithdrawalStatus → Bool
  | .created | .processing => false
  | _ => true

def canBeAccepted : WithdrawalStatus → Bool
  | .created | .processing => true
  | _ => false

def canBeProcessed : WithdrawalStatus → Bool
  | .created => true
  | _ => false

def canBeCanceled : WithdrawalStatus → Bool
  | .created => true
  | _ => false

def canBeRejected : WithdrawalStatus → Bool
  | .created | .processing => true
  | _ => false

def toDocument (s : WithdrawalStatus) : Document := .text s.name

def ofDocument? : Document → Option WithdrawalStatus :=
  Document.named? (all.map fun s => (s.name, s))

theorem ofId?_id (s : WithdrawalStatus) : ofId? s.id = some s := by cases s <;> rfl

/-- A number is read as the value that it is the number of. -/
theorem ofId?_eq_some {n : Int} {s : WithdrawalStatus} : ofId? n = some s ↔ s.id = n := by
  constructor
  · intro h
    unfold ofId? at h
    split at h <;> cases h <;> rfl
  · rintro rfl
    exact ofId?_id s

end WithdrawalStatus

/-- How a withdrawal is paid out. -/
inductive WithdrawalType where
  | onChain
  | manually
deriving DecidableEq, Inhabited

namespace WithdrawalType

def all : List WithdrawalType := [.onChain, .manually]

/-- The number under which a type is stored. -/
def id : WithdrawalType → Int
  | .onChain => 1
  | .manually => 2

def ofId? : Int → Option WithdrawalType
  | 1 => some .onChain
  | 2 => some .manually
  | _ => none

def name : WithdrawalType → String
  | .onChain => "ON_CHAIN"
  | .manually => "MANUALLY"

def toDocument (t : WithdrawalType) : Document := .text t.name

def ofDocument? : Document → Option WithdrawalType :=
  Document.named? (all.map fun t => (t.name, t))

theorem ofId?_id (t : WithdrawalType) : ofId? t.id = some t := by cases t <;> rfl

/-- A number is read as the value that it is the number of. -/
theorem ofId?_eq_some {n : Int} {t : WithdrawalType} : ofId? n = some t ↔ t.id = n := by
  constructor
  · intro h
    unfold ofId? at h
    split at h <;> cases h <;> rfl
  · rintro rfl
    exact ofId?_id t

end WithdrawalType

/-! ## Rows -/

/-- A withdrawal before it has a row. -/
structure WithdrawalDraft where
  ownerUuid : String
  currency : String
  /-- The cashout wallet that holds the funds. -/
  walletId : Int
  /-- What is paid out, without the fee. -/
  amount : Decimal
  requestTransaction : TransferId
  finalTransaction : Option TransferId
  appliedFee : Decimal
  destAmount : Option Decimal
  destSymbol : Option String
  destAddress : Option String
  destNetwork : Option String
  destNote : Option String
  destTransactionRef : Option String
  status : WithdrawalStatus
  applicator : Option String
  type : WithdrawalType
  attachment : Option String
deriving DecidableEq

/-- A row of the withdrawals. -/
structure Withdrawal extends WithdrawalDraft where
  id : Int
  statusReason : Option String
  createdAt : Instant
  updatedAt : Option Instant
deriving DecidableEq

/-- What a change of status writes besides the status; a missing field leaves the row's alone. -/
structure WithdrawalUpdate where
  finalTransaction : Option TransferId
  destAmount : Option Decimal
  destNote : Option String
  destTransactionRef : Option String
  statusReason : Option String
  applicator : Option String
deriving DecidableEq

/-- A new withdrawal. -/
def WithdrawalDraft.toWithdrawal (d : WithdrawalDraft) (id : Int) (createdAt : Instant) :
    Withdrawal :=
  { d with id, statusReason := none, createdAt, updatedAt := none }

/-- The update that writes nothing. -/
def WithdrawalUpdate.none : WithdrawalUpdate := ⟨.none, .none, .none, .none, .none, .none⟩

namespace Withdrawal

/-- **What the cashout wallet holds** for an open withdrawal, if the sum is in range. -/
def staged? (w : Withdrawal) : Option Decimal := w.amount.add? w.appliedFee

/-- The row after an update. -/
def apply (w : Withdrawal) (u : WithdrawalUpdate) : Withdrawal :=
  { w with
    finalTransaction := u.finalTransaction.or w.finalTransaction
    destAmount := u.destAmount.or w.destAmount
    destNote := u.destNote.or w.destNote
    destTransactionRef := u.destTransactionRef.or w.destTransactionRef
    statusReason := u.statusReason.or w.statusReason
    applicator := u.applicator.or w.applicator }

/-- Owners see their withdrawals by date, and by number where dates are equal. -/
def before (v w : Withdrawal) : Bool :=
  v.createdAt < w.createdAt || (v.createdAt == w.createdAt && v.id ≤ w.id)

/-- Which rows an operator looks for; a missing field does not restrict, nor does an empty list of
statuses. -/
structure Criteria where
  ownerUuid : Option String
  currency : Option String
  destTransactionRef : Option String
  destAddress : Option String
  statuses : List WithdrawalStatus

def Criteria.accepts (c : Criteria) (w : Withdrawal) : Bool :=
  c.ownerUuid.all (· == w.ownerUuid) &&
  c.currency.all (· == w.currency) &&
  c.destTransactionRef.all (fun r => w.destTransactionRef == some r) &&
  c.destAddress.all (fun a => w.destAddress == some a) &&
  (c.statuses.isEmpty || c.statuses.contains w.status)

/-- Which rows an owner looks back on; the bounds in time are included. -/
structure Filter where
  ownerUuid : String
  currency : Option String
  start : Option Instant
  finish : Option Instant

def Filter.accepts (f : Filter) (w : Withdrawal) : Bool :=
  w.ownerUuid == f.ownerUuid &&
  f.currency.all (· == w.currency) &&
  f.start.all (· ≤ w.createdAt) &&
  f.finish.all (w.createdAt ≤ ·)

/-- The rows that an owner's filter accepts, in order. -/
def listing (f : Filter) (rows : List Withdrawal) : List Withdrawal :=
  (rows.filter f.accepts).mergeSort before

def toDocument (w : Withdrawal) : Document :=
  .object [
    ("id", .int w.id),
    ("owner_uuid", .text w.ownerUuid),
    ("currency", .text w.currency),
    ("wallet_id", .int w.walletId),
    ("amount", .ofDecimal w.amount),
    ("request_transaction", w.requestTransaction.toDocument),
    ("final_transaction", .ofOption TransferId.toDocument w.finalTransaction),
    ("applied_fee", .ofDecimal w.appliedFee),
    ("dest_amount", .ofOption .ofDecimal w.destAmount),
    ("dest_symbol", .ofOption .text w.destSymbol),
    ("dest_address", .ofOption .text w.destAddress),
    ("dest_network", .ofOption .text w.destNetwork),
    ("dest_note", .ofOption .text w.destNote),
    ("dest_transaction_ref", .ofOption .text w.destTransactionRef),
    ("status_reason", .ofOption .text w.statusReason),
    ("status", w.status.toDocument),
    ("applicator", .ofOption .text w.applicator),
    ("withdraw_type", w.type.toDocument),
    ("attachment", .ofOption .text w.attachment),
    ("create_date", .int w.createdAt),
    ("update_date", .ofOption .int w.updatedAt)]

end Withdrawal

/-- A draft from a document that may leave out the fee and the type. -/
def WithdrawalDraft.ofDocument? (d : Document) (fee : Option Decimal)
    (type : Option WithdrawalType) : Option WithdrawalDraft := do
  return {
    ownerUuid := ← d.need "owner_uuid" Document.text?
    currency := ← d.need "currency" Document.text?
    walletId := ← d.need "wallet_id" (Document.signed? 64)
    amount := ← d.need "amount" Document.decimal?
    requestTransaction := ← d.need "request_transaction" TransferId.ofDocument?
    finalTransaction := ← d.maybe "final_transaction" TransferId.ofDocument?
    appliedFee := ← match fee with
      | some f => d.orElse "applied_fee" Document.decimal? f
      | none => d.need "applied_fee" Document.decimal?
    destAmount := ← d.maybe "dest_amount" Document.decimal?
    destSymbol := ← d.maybe "dest_symbol" Document.text?
    destAddress := ← d.maybe "dest_address" Document.text?
    destNetwork := ← d.maybe "dest_network" Document.text?
    destNote := ← d.maybe "dest_note" Document.text?
    destTransactionRef := ← d.maybe "dest_transaction_ref" Document.text?
    status := ← d.need "status" WithdrawalStatus.ofDocument?
    applicator := ← d.maybe "applicator" Document.text?
    type := ← match type with
      | some t => d.orElse "withdraw_type" WithdrawalType.ofDocument? t
      | none => d.need "withdraw_type" WithdrawalType.ofDocument?
    attachment := ← d.maybe "attachment" Document.text? }

def Withdrawal.ofDocument? (d : Document) : Option Withdrawal := do
  let d := d.record 21 ["id", "owner_uuid", "currency", "wallet_id", "amount",
    "request_transaction", "final_transaction", "applied_fee", "dest_amount", "dest_symbol",
    "dest_address", "dest_network", "dest_note", "dest_transaction_ref", "status_reason",
    "status", "applicator", "withdraw_type", "attachment", "create_date", "update_date"]
  return {
    toWithdrawalDraft := ← WithdrawalDraft.ofDocument? d none none
    id := ← d.need "id" (Document.signed? 64)
    statusReason := ← d.maybe "status_reason" Document.text?
    createdAt := ← d.need "create_date" (Document.signed? 64)
    updatedAt := ← d.maybe "update_date" (Document.signed? 64) }

def WithdrawalUpdate.ofDocument? (d : Document) : Option WithdrawalUpdate := do
  return {
    finalTransaction := ← d.maybe "final_transaction" TransferId.ofDocument?
    destAmount := ← d.maybe "dest_amount" Document.decimal?
    destNote := ← d.maybe "dest_note" Document.text?
    destTransactionRef := ← d.maybe "dest_transaction_ref" Document.text?
    statusReason := ← d.maybe "status_reason" Document.text?
    applicator := ← d.maybe "applicator" Document.text? }

def Withdrawal.Criteria.ofDocument? (d : Document) : Option Withdrawal.Criteria := do
  return {
    ownerUuid := ← d.maybe "owner_uuid" Document.text?
    currency := ← d.maybe "currency" Document.text?
    destTransactionRef := ← d.maybe "dest_transaction_ref" Document.text?
    destAddress := ← d.maybe "dest_address" Document.text?
    statuses := ← d.orElse "statuses" (Document.list? WithdrawalStatus.ofDocument?) [] }

def Withdrawal.Filter.ofDocument? (d : Document) : Option Withdrawal.Filter := do
  return {
    ownerUuid := ← d.orElse "owner_uuid" Document.text? ""
    currency := ← d.maybe "currency" Document.text?
    start := ← d.maybe "start" (Document.signed? 64)
    finish := ← d.maybe "end" (Document.signed? 64) }

end WalletLedger
