/-
**Withdrawals in a database.** A change of status is one statement that changes the row only if it
has the expected status, and answers with the row as it is then.
-/
import WalletLedger.Database.Postings

set_option autoImplicit false

namespace WalletLedger

/-! ## Rows -/

namespace WithdrawalDraft

def toRow (d : WithdrawalDraft) : Row :=
  [("owner_uuid", .text d.ownerUuid),
    ("currency", .text d.currency),
    ("wallet_id", .int d.walletId),
    ("amount", .ofDecimal d.amount),
    ("request_transaction", .text d.requestTransaction.text),
    ("final_transaction", .ofOption (fun t => .text t.text) d.finalTransaction),
    ("applied_fee", .ofDecimal d.appliedFee),
    ("dest_amount", .ofOption .ofDecimal d.destAmount),
    ("dest_symbol", .ofOption .text d.destSymbol),
    ("dest_address", .ofOption .text d.destAddress),
    ("dest_network", .ofOption .text d.destNetwork),
    ("dest_note", .ofOption .text d.destNote),
    ("dest_transaction_ref", .ofOption .text d.destTransactionRef),
    ("status", .int d.status.id),
    ("applicator", .ofOption .text d.applicator),
    ("withdraw_type", .int d.type.id),
    ("attachment", .ofOption .text d.attachment)]

end WithdrawalDraft

namespace Withdrawal

def columns : List String :=
  ["id", "owner_uuid", "currency", "wallet_id", "amount", "request_transaction",
    "final_transaction", "applied_fee", "dest_amount", "dest_symbol", "dest_address",
    "dest_network", "dest_note", "dest_transaction_ref", "status_reason", "status", "applicator",
    "withdraw_type", "attachment", "create_date", "update_date"]

def ofRow (r : Row) : Except Error Withdrawal := do
  let requested ← r.text "request_transaction"
  let final ← r.text? "final_transaction"
  let status ← r.int "status"
  let type ← r.int "withdraw_type"
  let id ← r.int "id"
  let ownerUuid ← r.text "owner_uuid"
  let currency ← r.text "currency"
  let walletId ← r.int "wallet_id"
  let amount ← r.decimal "amount"
  let requestTransaction ← TransferId.ofStored requested
  let finalTransaction ← final.mapM TransferId.ofStored
  let appliedFee ← r.decimal "applied_fee"
  let destAmount ← r.decimal? "dest_amount"
  let destSymbol ← r.text? "dest_symbol"
  let destAddress ← r.text? "dest_address"
  let destNetwork ← r.text? "dest_network"
  let destNote ← r.text? "dest_note"
  let destTransactionRef ← r.text? "dest_transaction_ref"
  let statusReason ← r.text? "status_reason"
  let status ← Row.known "withdraw status" (toString status) (WithdrawalStatus.ofId? status)
  let applicator ← r.text? "applicator"
  let type ← Row.known "withdraw type" (toString type) (WithdrawalType.ofId? type)
  let attachment ← r.text? "attachment"
  let createdAt ← r.time "create_date"
  let updatedAt ← r.time? "update_date"
  return {
    ownerUuid, currency, walletId, amount, requestTransaction, finalTransaction, appliedFee,
    destAmount, destSymbol, destAddress, destNetwork, destNote, destTransactionRef, status,
    applicator, type, attachment, id, statusReason, createdAt, updatedAt }

end Withdrawal

namespace Database

open WalletLedger.Action Statement

/-- An identifier that may be missing. -/
def transferIdValue (t : Option TransferId) : Value := .ofOption (fun t => .text t.text) t

def selectWithdrawals (which : List String) (values : List Value) : Statement where
  text := words (["SELECT", names Withdrawal.columns, "FROM withdraws_tb"] ++ which)
  values

def insertWithdrawal (d : WithdrawalDraft) : Action Database Withdrawal :=
  fetchOne Withdrawal.ofRow
    (insert "withdraws_tb" d.toRow ["RETURNING", names Withdrawal.columns])

def findWithdrawal (id : Int) : Action Database (Option Withdrawal) :=
  fetch? Withdrawal.ofRow (selectWithdrawals ["WHERE id = $1"] [.int id])

def withdrawalByRequest (transfer : TransferId) : Action Database (Option Withdrawal) :=
  fetch? Withdrawal.ofRow
    (selectWithdrawals ["WHERE request_transaction = $1"] [.text transfer.text])

/-- A change that was not made; the withdrawal must be there all the same. -/
def unchanged {α : Type} (id : Int) (answer : α) : Action Database α := do
  require (.withdrawalNotFound id) (← findWithdrawal id).isSome
  return answer

def transition (id : Int) (expected status : WithdrawalStatus) (u : WithdrawalUpdate) :
    Action Database (Option Withdrawal) := do
  let changed ← fetchFirst?
    ⟨words ["UPDATE withdraws_tb SET status = $3,",
      "final_transaction = COALESCE($4, final_transaction),",
      "dest_amount = COALESCE($5, dest_amount), dest_note = COALESCE($6, dest_note),",
      "dest_transaction_ref = COALESCE($7, dest_transaction_ref),",
      "status_reason = COALESCE($8, status_reason), applicator = COALESCE($9, applicator),",
      "update_date = NOW() WHERE id = $1 AND status = $2 RETURNING", names Withdrawal.columns],
      [.int id, .int expected.id, .int status.id, transferIdValue u.finalTransaction,
        .ofOption .ofDecimal u.destAmount, .ofOption .text u.destNote,
        .ofOption .text u.destTransactionRef, .ofOption .text u.statusReason,
        .ofOption .text u.applicator]⟩
  match changed with
  | some row => return some (← ofExcept (Withdrawal.ofRow row))
  | none => unchanged id none

def revert (current : WithdrawalStatus) (w : Withdrawal) : Action Database Bool := do
  let reverted ← execute
    ⟨words ["UPDATE withdraws_tb SET status = $3, final_transaction = $4, dest_amount = $5,",
      "dest_note = $6, dest_transaction_ref = $7, status_reason = $8, applicator = $9,",
      "update_date = $10 WHERE id = $1 AND status = $2"],
      [.int w.id, .int current.id, .int w.status.id, transferIdValue w.finalTransaction,
        .ofOption .ofDecimal w.destAmount, .ofOption .text w.destNote,
        .ofOption .text w.destTransactionRef, .ofOption .text w.statusReason,
        .ofOption .text w.applicator, .ofOption .time w.updatedAt]⟩
  if 0 < reverted then return true
  unchanged w.id false

def setFinal (id : Int) (transfer : TransferId) : Action Database Unit :=
  mustChange (.withdrawalNotFound id)
    ⟨"UPDATE withdraws_tb SET final_transaction = $2 WHERE id = $1",
      [.int id, .text transfer.text]⟩

def searchWithdrawals (c : Withdrawal.Criteria) (offset : Nat) (size : Option Nat) :
    Action Database (List Withdrawal) :=
  fetchAll Withdrawal.ofRow
    (selectWithdrawals
      ["WHERE ($1::text IS NULL OR owner_uuid = $1) AND ($2::text IS NULL OR currency = $2)",
        "AND ($3::text IS NULL OR dest_transaction_ref = $3)",
        "AND ($4::text IS NULL OR dest_address = $4)",
        "AND (cardinality($5::smallint[]) = 0 OR status = ANY($5))",
        "ORDER BY id DESC OFFSET $6 LIMIT $7"]
      [.ofOption .text c.ownerUuid, .ofOption .text c.currency,
        .ofOption .text c.destTransactionRef, .ofOption .text c.destAddress,
        .ints (c.statuses.map (·.id)), .ofNat offset, .ofOption .ofNat size])

def listWithdrawals (f : Withdrawal.Filter) (p : Page) : Action Database (List Withdrawal) :=
  fetchAll Withdrawal.ofRow
    (selectWithdrawals
      ["WHERE owner_uuid = $1 AND ($2::text IS NULL OR currency = $2)",
        "AND ($3::timestamptz IS NULL OR create_date >= $3)",
        "AND ($4::timestamptz IS NULL OR create_date <= $4)",
        "ORDER BY create_date", direction p ++ ", id", direction p, "OFFSET $5 LIMIT $6"]
      [.text f.ownerUuid, .ofOption .text f.currency, .ofOption .time f.start,
        .ofOption .time f.finish, .ofNat p.offset, .ofNat p.limit])

end Database

end WalletLedger
