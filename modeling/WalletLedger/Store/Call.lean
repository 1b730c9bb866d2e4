/-
**What the ledger asks of its stores.** A call names one thing that is read or written, and its
type is the type of the answer. Everything that outlives an operation is reached through calls, so
that a ledger is the same whatever holds its rows.

Every call has a name, by which it can be told to fail, and most have an answer that says "nothing
there" or "nothing happened".
-/
import WalletLedger.Action
import WalletLedger.Currency
import WalletLedger.Posting
import WalletLedger.Reservation
import WalletLedger.Routing.Rate
import WalletLedger.Store.Identifiers
import WalletLedger.Withdrawal

set_option autoImplicit false

namespace WalletLedger

/-- **The calls,** by the type of their answer. -/
inductive Call : Type → Type where
  -- Currencies
  | findCurrency (symbol : String) : Call (Option Currency)
  /-- All currencies by symbol. -/
  | listCurrencies : Call (List Currency)
  | addCurrency (currency : Currency) : Call Unit
  | setTransitive (symbol : String) (on : Bool) : Call Unit
  | setActive (symbol : String) (on : Bool) : Call Unit
  -- Rates and forbidden pairs
  /-- All rates by pair. -/
  | listRates : Call (List Rate)
  | findRate (source dest : String) : Call (Option Rate)
  | addRate (rate : Rate) (ignoreIfExists : Bool) : Call Unit
  | updateRate (rate : Rate) : Call Unit
  | deleteRate (source dest : String) : Call Unit
  | listForbidden : Call (List ForbiddenPair)
  | forbid (pair : ForbiddenPair) : Call Unit
  | allow (pair : ForbiddenPair) : Call Unit
  -- Owners and wallets
  | findOwner (uuid : String) : Call (Option Owner)
  | createOwner (uuid title level : String) (flags : Int) : Call Owner
  | setFlags (uuid : String) (flags : Int) : Call Owner
  | findWallet (key : WalletKey) : Call (Option Wallet)
  | findWalletById (id : Int) : Call (Option Wallet)
  | walletsOf (ownerId : Int) : Call (List Wallet)
  | createWallet (owner : Owner) (key : WalletKey) (initial : Amount) : Call Wallet
  /-- Writes one balance; no wallet if the write came too late. -/
  | compareAndSet (write : BalanceWrite) : Call (Option Wallet)
  -- Postings
  /-- Writes two balances and a posting, as one step or not at all. -/
  | commitPosting (debit credit : BalanceWrite) (posting : Posting) : Call CommitOutcome
  | findPosting (ref : String) : Call (Option Posting)
  | listPostings (filter : Posting.Filter) (page : Page) : Call (List Posting)
  -- Reservations
  | insertReservation (reservation : Reservation) : Call Unit
  | findReservation (number : String) : Call (Option Reservation)
  /-- Claims an idle reservation. -/
  | beginSettlement (number : String) (settlement : Settlement) : Call Bool
  | clearSettlement (number : String) : Call Bool
  | closeIfIdle (number : String) (status : ReservationStatus) : Call Bool
  | updateStatusIf (number : String) (expected status : ReservationStatus) : Call Bool
  | findLapsed (now : Instant) (limit : Nat) : Call (List Reservation)
  | findStalled (startedBefore : Instant) (limit : Nat) : Call (List Reservation)
  -- Withdrawals
  | insertWithdrawal (draft : WithdrawalDraft) (now : Instant) : Call Withdrawal
  | findWithdrawal (id : Int) : Call (Option Withdrawal)
  | withdrawalByRequest (transfer : TransferId) : Call (Option Withdrawal)
  /-- Changes the status; no row if it had another one. -/
  | transition (id : Int) (expected status : WithdrawalStatus) (update : WithdrawalUpdate)
      (now : Instant) : Call (Option Withdrawal)
  /-- Puts a row back as it was while it is still in the given status. -/
  | revert (current : WithdrawalStatus) (earlier : Withdrawal) : Call Bool
  | setFinal (id : Int) (transfer : TransferId) : Call Unit
  | searchWithdrawals (criteria : Withdrawal.Criteria) (offset : Nat) (size : Option Nat) :
      Call (List Withdrawal)
  | listWithdrawals (filter : Withdrawal.Filter) (page : Page) : Call (List Withdrawal)

namespace Call

/-- The name of a call. -/
def name {α : Type} : Call α → String
  | .findCurrency _ => "find_currency"
  | .listCurrencies => "list_currencies"
  | .addCurrency _ => "add_currency"
  | .setTransitive _ _ => "set_transitive"
  | .setActive _ _ => "set_active"
  | .listRates => "list_rates"
  | .findRate _ _ => "find_rate"
  | .addRate _ _ => "add_rate"
  | .updateRate _ => "update_rate"
  | .deleteRate _ _ => "delete_rate"
  | .listForbidden => "list_forbidden"
  | .forbid _ => "forbid"
  | .allow _ => "allow"
  | .findOwner _ => "find_owner"
  | .createOwner _ _ _ _ => "create_owner"
  | .setFlags _ _ => "set_flags"
  | .findWallet _ => "find_wallet"
  | .findWalletById _ => "find_wallet_by_id"
  | .walletsOf _ => "wallets_of"
  | .createWallet _ _ _ => "create_wallet"
  | .compareAndSet _ => "compare_and_set"
  | .commitPosting _ _ _ => "commit_posting"
  | .findPosting _ => "find_transfer_by_ref"
  | .listPostings _ _ => "list_transfers"
  | .insertReservation _ => "reservation_insert"
  | .findReservation _ => "reservation_find"
  | .beginSettlement _ _ => "begin_settlement"
  | .clearSettlement _ => "clear_settlement"
  | .closeIfIdle _ _ => "close_if_idle"
  | .updateStatusIf _ _ _ => "update_status_if"
  | .findLapsed _ _ => "find_expired"
  | .findStalled _ _ => "find_stalled_settlements"
  | .insertWithdrawal _ _ => "withdraw_insert"
  | .findWithdrawal _ => "withdraw_find"
  | .withdrawalByRequest _ => "find_by_request_transaction"
  | .transition _ _ _ _ _ => "transition"
  | .revert _ _ => "revert"
  | .setFinal _ _ => "set_final_transaction"
  | .searchWithdrawals _ _ _ => "search_withdrawals"
  | .listWithdrawals _ _ => "list_withdrawals"

/-- **The answer that says that nothing was there** or that nothing happened, for the calls that
have one. -/
def nothing? {α : Type} : Call α → Option α
  | .findCurrency _ => some none
  | .listCurrencies => some []
  | .listRates => some []
  | .findRate _ _ => some none
  | .listForbidden => some []
  | .findOwner _ => some none
  | .findWallet _ => some none
  | .findWalletById _ => some none
  | .walletsOf _ => some []
  | .compareAndSet _ => some none
  | .commitPosting _ _ _ => some .versionConflict
  | .findPosting _ => some none
  | .listPostings _ _ => some []
  | .findReservation _ => some none
  | .beginSettlement _ _ => some false
  | .clearSettlement _ => some false
  | .closeIfIdle _ _ => some false
  | .updateStatusIf _ _ _ => some false
  | .findLapsed _ _ => some []
  | .findStalled _ _ => some []
  | .findWithdrawal _ => some none
  | .withdrawalByRequest _ => some none
  | .transition _ _ _ _ _ => some none
  | .revert _ _ => some false
  | .searchWithdrawals _ _ _ => some []
  | .listWithdrawals _ _ => some []
  | .addCurrency _ | .setTransitive _ _ | .setActive _ _ | .addRate _ _ | .updateRate _
  | .deleteRate _ _ | .forbid _ | .allow _ | .createOwner _ _ _ _ | .setFlags _ _
  | .createWallet _ _ _ | .insertReservation _ | .insertWithdrawal _ _ | .setFinal _ _ => none

end Call

/-- **Stores:** states in which calls are answered. -/
class Stores (σ : Type) where
  call : {α : Type} → Call α → Action σ α
  fresh : σ → FreshIds

end WalletLedger
