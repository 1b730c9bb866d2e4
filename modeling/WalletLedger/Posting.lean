/-
**Postings.** A posting is one movement of funds between two wallets, recorded for good. Each of
its two sides tells the wallet, the amount that left or reached it, and the wallet's balance
before and after. A posting may carry a reference, which names it once and for all: no two
postings share one.
-/
import WalletLedger.Instant
import WalletLedger.Page
import WalletLedger.TransferId
import WalletLedger.Wallet

set_option autoImplicit false

namespace WalletLedger

/-! ## Categories -/

/-- What a posting was made for. -/
inductive Category where
  | uncategorized
  | deposit
  | depositManually
  | withdrawRequest
  | withdrawAccept
  | withdrawCancel
  | withdrawReject
  | withdrawManually
  | purchaseFinalized
  | trade
  | fee
deriving DecidableEq, Inhabited

namespace Category

def all : List Category :=
  [.uncategorized, .deposit, .depositManually, .withdrawRequest, .withdrawAccept,
    .withdrawCancel, .withdrawReject, .withdrawManually, .purchaseFinalized, .trade, .fee]

/-- The number under which a category is stored. -/
def id : Category → Int
  | .uncategorized => 0
  | .deposit => 1
  | .depositManually => 2
  | .withdrawRequest => 10
  | .withdrawAccept => 11
  | .withdrawCancel => 12
  | .withdrawReject => 13
  | .withdrawManually => 14
  | .purchaseFinalized => 20
  | .trade => 30
  | .fee => 31

def ofId? : Int → Option Category
  | 0 => some .uncategorized
  | 1 => some .deposit
  | 2 => some .depositManually
  | 10 => some .withdrawRequest
  | 11 => some .withdrawAccept
  | 12 => some .withdrawCancel
  | 13 => some .withdrawReject
  | 14 => some .withdrawManually
  | 20 => some .purchaseFinalized
  | 30 => some .trade
  | 31 => some .fee
  | _ => none

def name : Category → String
  | .uncategorized => "NO_CATEGORY"
  | .deposit => "DEPOSIT"
  | .depositManually => "DEPOSIT_MANUALLY"
  | .withdrawRequest => "WITHDRAW_REQUEST"
  | .withdrawAccept => "WITHDRAW_ACCEPT"
  | .withdrawCancel => "WITHDRAW_CANCEL"
  | .withdrawReject => "WITHDRAW_REJECT"
  | .withdrawManually => "WITHDRAW_MANUALLY"
  | .purchaseFinalized => "PURCHASE_FINALIZED"
  | .trade => "TRADE"
  | .fee => "FEE"

/-- The counter that counts the postings of a category. -/
def counter : Category → String
  | .uncategorized => "transfer_event"
  | .deposit => "deposit_event"
  | .depositManually => "deposit_manually_event"
  | .withdrawRequest => "withdraw_request_event"
  | .withdrawAccept => "withdraw_accept_event"
  | .withdrawCancel => "withdraw_cancel_event"
  | .withdrawReject => "withdraw_reject_event"
  | .withdrawManually => "withdraw_manually_event"
  | .purchaseFinalized => "purchase_finalized_event"
  | .trade => "trade_event"
  | .fee => "fee_event"

def toDocument (c : Category) : Document := .text c.name

def ofDocument? : Document → Option Category :=
  Document.named? (all.map fun c => (c.name, c))

theorem ofId?_id (c : Category) : ofId? c.id = some c := by cases c <;> rfl

/-- A number is read as the value that it is the number of. -/
theorem ofId?_eq_some {n : Int} {c : Category} : ofId? n = some c ↔ c.id = n := by
  constructor
  · intro h
    unfold ofId? at h
    split at h <;> cases h <;> rfl
  · rintro rfl
    exact ofId?_id c

end Category

/-! ## Postings -/

/-- One side of a posting. -/
structure Side where
  walletId : Int
  ownerUuid : String
  kind : WalletKind
  amount : Amount
  balanceBefore : Decimal
  balanceAfter : Decimal
deriving DecidableEq

/-- The record of one movement from `source` to `dest`. -/
structure Posting where
  id : TransferId
  source : Side
  dest : Side
  description : Option String
  ref : Option String
  category : Category
  createdAt : Instant
deriving DecidableEq

/-- What a caller learns of a posting. -/
structure Receipt where
  transferId : TransferId
  date : Instant
  sourceUuid : String
  sourceKind : WalletKind
  sourceBalanceBefore : Decimal
  sourceBalanceAfter : Decimal
  amount : Amount
  destUuid : String
  destKind : WalletKind
  receivedAmount : Amount
deriving DecidableEq

namespace TransferId

def toDocument (id : TransferId) : Document := .text id.text

def ofDocument? : Document → Option TransferId
  | .text s => (ofText? s).toOption
  | _ => none

end TransferId

namespace Posting

def receipt (p : Posting) : Receipt where
  transferId := p.id
  date := p.createdAt
  sourceUuid := p.source.ownerUuid
  sourceKind := p.source.kind
  sourceBalanceBefore := p.source.balanceBefore
  sourceBalanceAfter := p.source.balanceAfter
  amount := p.source.amount
  destUuid := p.dest.ownerUuid
  destKind := p.dest.kind
  receivedAmount := p.dest.amount

/-- Whether a wallet is on either side. -/
def touches (p : Posting) (walletId : Int) : Bool :=
  p.source.walletId == walletId || p.dest.walletId == walletId

def toDocument (p : Posting) : Document :=
  .object [
    ("id", p.id.toDocument),
    ("source_wallet_id", .int p.source.walletId),
    ("source_owner_uuid", .text p.source.ownerUuid),
    ("source_wallet_type", p.source.kind.toDocument),
    ("dest_wallet_id", .int p.dest.walletId),
    ("dest_owner_uuid", .text p.dest.ownerUuid),
    ("dest_wallet_type", p.dest.kind.toDocument),
    ("source_amount", p.source.amount.toDocument),
    ("dest_amount", p.dest.amount.toDocument),
    ("source_balance_before", .ofDecimal p.source.balanceBefore),
    ("source_balance_after", .ofDecimal p.source.balanceAfter),
    ("dest_balance_before", .ofDecimal p.dest.balanceBefore),
    ("dest_balance_after", .ofDecimal p.dest.balanceAfter),
    ("description", .ofOption .text p.description),
    ("transfer_ref", .ofOption .text p.ref),
    ("category", p.category.toDocument),
    ("created_at", .int p.createdAt)]

/-- One side of a posting, whose fields carry the side's name. -/
def sideOfDocument? (d : Document) (side : String) : Option Side := do
  return {
    walletId := ← d.need (side ++ "_wallet_id") (Document.signed? 64)
    ownerUuid := ← d.need (side ++ "_owner_uuid") Document.text?
    kind := ← d.need (side ++ "_wallet_type") WalletKind.ofDocument?
    amount := ← d.need (side ++ "_amount") Amount.ofDocument?
    balanceBefore := ← d.need (side ++ "_balance_before") Document.decimal?
    balanceAfter := ← d.need (side ++ "_balance_after") Document.decimal? }

def ofDocument? (d : Document) : Option Posting := do
  let d := d.record 17 ["id", "source_wallet_id", "source_owner_uuid", "source_wallet_type",
    "dest_wallet_id", "dest_owner_uuid", "dest_wallet_type", "source_amount", "dest_amount",
    "source_balance_before", "source_balance_after", "dest_balance_before", "dest_balance_after",
    "description", "transfer_ref", "category", "created_at"]
  return {
    id := ← d.need "id" TransferId.ofDocument?
    source := ← sideOfDocument? d "source"
    dest := ← sideOfDocument? d "dest"
    description := ← d.maybe "description" Document.text?
    ref := ← d.maybe "transfer_ref" Document.text?
    category := ← d.need "category" Category.ofDocument?
    createdAt := ← d.need "created_at" (Document.signed? 64) }

/-! ## Listings -/

/-- Postings are listed by time, and by identifier where times are equal. -/
def before (p q : Posting) : Bool :=
  p.createdAt < q.createdAt || (p.createdAt == q.createdAt && p.id.bits ≤ q.id.bits)

/-- Which postings to list; a missing field does not restrict. -/
structure Filter where
  ownerUuid : Option String
  currency : Option String
  category : Option Category
  start : Option Instant
  finish : Option Instant

/-- An owner or a currency may be on either side; the bounds in time are included. -/
def Filter.accepts (f : Filter) (p : Posting) : Bool :=
  f.ownerUuid.all (fun u => p.source.ownerUuid == u || p.dest.ownerUuid == u) &&
  f.currency.all (fun c => p.source.amount.currency == c || p.dest.amount.currency == c) &&
  f.category.all (p.category == ·) &&
  f.start.all (· ≤ p.createdAt) &&
  f.finish.all (p.createdAt ≤ ·)

/-- The postings that a filter accepts, in order. -/
def listing (f : Filter) (log : List Posting) : List Posting :=
  (log.filter f.accepts).mergeSort before

end Posting

namespace Receipt

def toDocument (r : Receipt) : Document :=
  .object [
    ("transfer_id", r.transferId.toDocument),
    ("date", .int r.date),
    ("source_uuid", .text r.sourceUuid),
    ("source_wallet_type", r.sourceKind.toDocument),
    ("source_balance_before", .ofDecimal r.sourceBalanceBefore),
    ("source_balance_after", .ofDecimal r.sourceBalanceAfter),
    ("amount", r.amount.toDocument),
    ("dest_uuid", .text r.destUuid),
    ("dest_wallet_type", r.destKind.toDocument),
    ("received_amount", r.receivedAmount.toDocument)]

end Receipt

/-! ## Movements -/

/-- A movement to be posted, with both wallets as the caller last saw them. -/
structure Movement where
  source : Wallet
  dest : Wallet
  sourceAmount : Amount
  destAmount : Amount
  description : Option String
  ref : Option String
  category : Category

/-- A movement within one currency. -/
def Movement.ofAmount (source dest : Wallet) (amount : Amount) (category : Category)
    (description ref : Option String) : Movement :=
  { source, dest, sourceAmount := amount, destAmount := amount, description, ref, category }

/-- How a store answers an attempt to post. -/
inductive CommitOutcome where
  /-- Both balances are written and the posting is in the log. -/
  | committed
  /-- A wallet had moved on; nothing is written. -/
  | versionConflict
  /-- The reference belongs to an earlier posting; nothing is written. -/
  | duplicate (earlier : Posting)

end WalletLedger
