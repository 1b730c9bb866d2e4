/-
**Postings in a database.** A posting is one transaction of three statements, the writes of the two
balances and the new row, and it is kept only if each of them changed a row.
-/
import WalletLedger.Database.Wallets

set_option autoImplicit false

namespace WalletLedger

/-! ## Rows -/

namespace TransferId

/-- The identifier that a stored text stands for. -/
def ofStored (s : String) : Except Error TransferId :=
  Row.known "transfer id" s (ofText? s).toOption

end TransferId

namespace Posting

def columns : List String :=
  ["id", "source_wallet_id", "source_owner_uuid", "source_wallet_type", "dest_wallet_id",
    "dest_owner_uuid", "dest_wallet_type", "source_currency", "source_amount", "dest_currency",
    "dest_amount", "source_balance_before", "source_balance_after", "dest_balance_before",
    "dest_balance_after", "description", "transfer_ref", "category", "created_at"]

def toRow (p : Posting) : Row :=
  [("id", .text p.id.text),
    ("source_wallet_id", .int p.source.walletId),
    ("source_owner_uuid", .text p.source.ownerUuid),
    ("source_wallet_type", .int p.source.kind.id),
    ("dest_wallet_id", .int p.dest.walletId),
    ("dest_owner_uuid", .text p.dest.ownerUuid),
    ("dest_wallet_type", .int p.dest.kind.id),
    ("source_currency", .text p.source.amount.currency),
    ("source_amount", .ofDecimal p.source.amount.value),
    ("dest_currency", .text p.dest.amount.currency),
    ("dest_amount", .ofDecimal p.dest.amount.value),
    ("source_balance_before", .ofDecimal p.source.balanceBefore),
    ("source_balance_after", .ofDecimal p.source.balanceAfter),
    ("dest_balance_before", .ofDecimal p.dest.balanceBefore),
    ("dest_balance_after", .ofDecimal p.dest.balanceAfter),
    ("description", .ofOption .text p.description),
    ("transfer_ref", .ofOption .text p.ref),
    ("category", .int p.category.id),
    ("created_at", .time p.createdAt)]

/-- What is written is what is read. -/
theorem columns_toRow (p : Posting) : p.toRow.map (·.1) = columns := rfl

def ofRow (r : Row) : Except Error Posting := do
  let id ← r.text "id"
  let category ← r.int "category"
  let sourceCurrency ← r.text "source_currency"
  let destCurrency ← r.text "dest_currency"
  let id ← TransferId.ofStored id
  let sourceWalletId ← r.int "source_wallet_id"
  let sourceOwnerUuid ← r.text "source_owner_uuid"
  let sourceKind ← WalletKind.ofRow r "source_wallet_type"
  let destWalletId ← r.int "dest_wallet_id"
  let destOwnerUuid ← r.text "dest_owner_uuid"
  let destKind ← WalletKind.ofRow r "dest_wallet_type"
  let sourceAmount ← r.decimal "source_amount"
  let destAmount ← r.decimal "dest_amount"
  let sourceBefore ← r.decimal "source_balance_before"
  let sourceAfter ← r.decimal "source_balance_after"
  let destBefore ← r.decimal "dest_balance_before"
  let destAfter ← r.decimal "dest_balance_after"
  let description ← r.text? "description"
  let ref ← r.text? "transfer_ref"
  let category ← Row.known "category" (toString category) (Category.ofId? category)
  let createdAt ← r.time "created_at"
  return {
    id, description, ref, category, createdAt
    source := ⟨sourceWalletId, sourceOwnerUuid, sourceKind, ⟨sourceCurrency, sourceAmount⟩,
      sourceBefore, sourceAfter⟩
    dest := ⟨destWalletId, destOwnerUuid, destKind, ⟨destCurrency, destAmount⟩,
      destBefore, destAfter⟩ }

end Posting

namespace Database

open WalletLedger.Action Statement

def selectPostings (which : List String) (values : List Value) : Statement where
  text := words (["SELECT", names Posting.columns, "FROM transfers_tb"] ++ which)
  values

def findPosting (ref : String) : Action Database (Option Posting) :=
  fetch? Posting.ofRow (selectPostings ["WHERE transfer_ref = $1"] [.text ref])

/-- The word for the order of a page. -/
def direction (p : Page) : String := if p.ascending then "ASC" else "DESC"

def listPostings (f : Posting.Filter) (p : Page) : Action Database (List Posting) :=
  fetchAll Posting.ofRow
    (selectPostings
      ["WHERE ($1::text IS NULL OR source_owner_uuid = $1 OR dest_owner_uuid = $1)",
        "AND ($2::text IS NULL OR source_currency = $2 OR dest_currency = $2)",
        "AND ($3::smallint IS NULL OR category = $3)",
        "AND ($4::timestamptz IS NULL OR created_at >= $4)",
        "AND ($5::timestamptz IS NULL OR created_at <= $5)",
        "ORDER BY created_at", direction p ++ ", id", direction p, "OFFSET $6 LIMIT $7"]
      [.ofOption .text f.ownerUuid, .ofOption .text f.currency,
        .ofOption (fun c => .int c.id) f.category, .ofOption .time f.start,
        .ofOption .time f.finish, .ofNat p.offset, .ofNat p.limit])

/-! ## Posting -/

/-- The new row; a reference that is taken adds none. -/
def addPosting (p : Posting) : Statement :=
  insert "transfers_tb" p.toRow ["ON CONFLICT (transfer_ref) DO NOTHING"]

/-- **What a posting writes.** Without an answer it is undone because its reference is taken. -/
def writePosting (debit credit : BalanceWrite) (p : Posting) :
    Action Database (Ending (Option CommitOutcome)) := do
  if (← execute (writeBalance debit)) = 0 then return .undo (some .versionConflict)
  if (← execute (writeBalance credit)) = 0 then return .undo (some .versionConflict)
  if (← execute (addPosting p)) = 0 then return .undo none
  return .keep (some .committed)

/-- The posting that has a reference, if there is a reference. -/
def earlierPosting : Option String → Action Database (Option Posting)
  | some ref => findPosting ref
  | none => return none

/-- **Posting,** as one transaction. -/
def commitPosting (debit credit : BalanceWrite) (p : Posting) :
    Action Database CommitOutcome := do
  match ← inTransaction (writePosting debit credit p) with
  | some outcome => return outcome
  | none =>
    return .duplicate
      (← orRefuse (.internal .conflictWithoutRef) (← earlierPosting p.ref))

end Database

end WalletLedger
