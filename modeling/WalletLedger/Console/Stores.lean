/-
**Console commands that go to the stores.** Each is one call; the services of the ledger, with
their checks, are passed by. Times are in milliseconds.
-/
import WalletLedger.Console.Transfers
import WalletLedger.Store.Call

set_option autoImplicit false

namespace WalletLedger

def CommitOutcome.toDocument : CommitOutcome → Document
  | .committed => .text "Committed"
  | .versionConflict => .text "VersionConflict"
  | .duplicate earlier => .object [("Duplicate", earlier.toDocument)]

namespace Console

variable {σ : Type} (ask : {α : Type} → Call α → Action (Ledger σ) α)

/-- The answer to a call. -/
def reply {α : Type} (write : α → Document) (c : Call α) : Dialog σ Document := answer write (ask c)

/-- A call that answers whether something happened. -/
def happened (c : Call Bool) : Dialog σ Document := reply ask .bool c

def nothingSaid (c : Call Unit) : Dialog σ Document := reply ask (fun _ => .null) c

def currencyCall (d : Document) : String → Dialog σ Document
  | "currencies.get" => do
    reply ask (.ofOption Currency.toDocument) (.findCurrency (← text d "symbol"))
  | "currencies.list" => reply ask (.ofList Currency.toDocument) .listCurrencies
  | "currencies.add" => do
    nothingSaid ask (.addCurrency (← given (d.need "currency" Currency.ofDocument?)))
  | "currencies.set_transitive" => do
    nothingSaid ask (.setTransitive (← text d "symbol") (← switch d "on"))
  | "currencies.set_active" => do
    nothingSaid ask (.setActive (← text d "symbol") (← switch d "on"))
  | _ => throw .unknown

def rateCall (d : Document) : String → Dialog σ Document
  | "rates.list" => reply ask (.ofList Rate.toDocument) .listRates
  | "rates.get" => do
    reply ask (.ofOption Rate.toDocument) (.findRate (← text d "source") (← text d "dest"))
  | "rates.delete" => do
    nothingSaid ask (.deleteRate (← text d "source") (← text d "dest"))
  | "rates.add" => do
    let rate ← given (d.need "rate" Rate.ofDocument?)
    nothingSaid ask (.addRate rate (← switch d "ignore_if_exists"))
  | "rates.update" => do
    nothingSaid ask (.updateRate (← given (d.need "rate" Rate.ofDocument?)))
  | "rates.list_forbidden" => reply ask (.ofList ForbiddenPair.toDocument) .listForbidden
  | "rates.add_forbidden" => do
    nothingSaid ask (.forbid (← given (d.need "pair" ForbiddenPair.ofDocument?)))
  | "rates.delete_forbidden" => do
    nothingSaid ask (.allow (← given (d.need "pair" ForbiddenPair.ofDocument?)))
  | _ => throw .unknown

/-- The key of a wallet. -/
def walletKey (d : Document) : Dialog σ WalletKey := do
  return ⟨← int d "owner_id", ← text d "currency", ← kind d "type"⟩

/-- The permissions of an owner. -/
def flagBits (d : Document) : Dialog σ Int := given (d.need "flags" (Document.signed? 32))

def walletCall (d : Document) : String → Dialog σ Document
  | "wallets.find_owner" => do
    reply ask (.ofOption Owner.toDocument) (.findOwner (← text d "uuid"))
  | "wallets.create_owner" => do
    let uuid ← text d "uuid"
    let title ← text d "title"
    let level ← text d "level"
    let flags ← flagBits d
    reply ask Owner.toDocument (.createOwner uuid title level flags)
  | "wallets.update_owner_flags" => do
    reply ask Owner.toDocument (.setFlags (← text d "uuid") (← flagBits d))
  | "wallets.find" => do
    reply ask (.ofOption Wallet.toDocument) (.findWallet (← walletKey d))
  | "wallets.find_by_id" => do
    reply ask (.ofOption Wallet.toDocument) (.findWalletById (← int d "id"))
  | "wallets.of_owner" => do
    reply ask (.ofList Wallet.toDocument) (.walletsOf (← int d "owner_id"))
  | "wallets.create" => do
    let owner ← given (d.need "owner" Owner.ofDocument?)
    let key ← walletKey d
    let initial ← given (d.need "initial" Amount.ofDocument?)
    reply ask Wallet.toDocument (.createWallet owner key initial)
  | "wallets.cas" => do
    let write ← given (BalanceWrite.ofDocument? d)
    reply ask (.ofOption Wallet.toDocument) (.compareAndSet write)
  | "wallets.commit" => do
    let debit ← given (d.need "debit" BalanceWrite.ofDocument?)
    let credit ← given (d.need "credit" BalanceWrite.ofDocument?)
    let posting ← given (d.need "record" Posting.ofDocument?)
    reply ask CommitOutcome.toDocument (.commitPosting debit credit posting)
  | "wallets.by_ref" => do
    reply ask (.ofOption Posting.toDocument) (.findPosting (← text d "transfer_ref"))
  | "wallets.query" => do
    let filter ← given (Posting.Filter.ofDocument? d)
    let page ← given (Page.ofDocument? d)
    reply ask (.ofList Posting.toDocument) (.listPostings filter page)
  | _ => throw .unknown

def reservationCall (d : Document) : String → Dialog σ Document
  | "reservations.insert" => do
    let reservation ← given (d.need "reservation" Reservation.ofDocument?)
    nothingSaid ask (.insertReservation reservation)
  | "reservations.find" => do
    let number ← text d "reserve_number"
    reply ask (.ofOption Reservation.toDocument) (.findReservation number)
  | "reservations.begin" => do
    let settlement ← given (d.need "intent" Settlement.ofDocument?)
    happened ask (.beginSettlement (← text d "reserve_number") settlement)
  | "reservations.clear" => do happened ask (.clearSettlement (← text d "reserve_number"))
  | "reservations.close" => do
    let status ← given (d.need "status" ReservationStatus.ofDocument?)
    happened ask (.closeIfIdle (← text d "reserve_number") status)
  | "reservations.update_status" => do
    let expected ← given (d.need "from" ReservationStatus.ofDocument?)
    let status ← given (d.need "to" ReservationStatus.ofDocument?)
    happened ask (.updateStatusIf (← text d "reserve_number") expected status)
  | "reservations.expired" => do
    reply ask (.ofList Reservation.toDocument)
      (.findLapsed (← int d "now") (← natOr d "limit" 100))
  | "reservations.stalled" => do
    reply ask (.ofList Reservation.toDocument)
      (.findStalled (← int d "before") (← natOr d "limit" 100))
  | _ => throw .unknown

def withdrawalCall (d : Document) : String → Dialog σ Document
  | "withdraws.insert" => do
    let draft ← given
      (d.need "withdraw" fun w => WithdrawalDraft.ofDocument? w (some .zero) (some .onChain))
    let now ← perform Ledger.now
    reply ask Withdrawal.toDocument (.insertWithdrawal draft now)
  | "withdraws.find" => do
    reply ask (.ofOption Withdrawal.toDocument) (.findWithdrawal (← int d "id"))
  | "withdraws.by_request" => do
    let transfer ← given (d.need "tx" TransferId.ofDocument?)
    reply ask (.ofOption Withdrawal.toDocument) (.withdrawalByRequest transfer)
  | "withdraws.transition" => do
    let id ← int d "id"
    let expected ← given (d.need "from" WithdrawalStatus.ofDocument?)
    let status ← given (d.need "to" WithdrawalStatus.ofDocument?)
    let update ← given (d.orElse "update" WithdrawalUpdate.ofDocument? .none)
    let now ← perform Ledger.now
    reply ask (.ofOption Withdrawal.toDocument) (.transition id expected status update now)
  | "withdraws.revert" => do
    let current ← given (d.need "current" WithdrawalStatus.ofDocument?)
    let earlier ← given (d.need "snapshot" Withdrawal.ofDocument?)
    happened ask (.revert current earlier)
  | "withdraws.set_final" => do
    let transfer ← given (d.need "tx" TransferId.ofDocument?)
    nothingSaid ask (.setFinal (← int d "id") transfer)
  | "withdraws.search" => do
    let criteria ← given (Withdrawal.Criteria.ofDocument? d)
    let size ← given (d.maybe "size" (Document.nat? 64))
    reply ask (.ofList Withdrawal.toDocument)
      (.searchWithdrawals criteria (← natOr d "offset" 0) size)
  | "withdraws.history" => do
    let filter ← given (Withdrawal.Filter.ofDocument? d)
    let page ← given (Page.ofDocument? d)
    reply ask (.ofList Withdrawal.toDocument) (.listWithdrawals filter page)
  | _ => throw .unknown

/-- **One call to the stores,** named by the store and what is done with it. -/
def storeCommand (command : String) (d : Document) : Dialog σ Document :=
  match (command.splitOn ".").head? with
  | some "currencies" => currencyCall ask d command
  | some "rates" => rateCall ask d command
  | some "wallets" => walletCall ask d command
  | some "reservations" => reservationCall ask d command
  | some "withdraws" => withdrawalCall ask d command
  | _ => throw .unknown

end Console

end WalletLedger
