/-
**A database as the stores of a ledger:** each call is answered by the statements of its table.
-/
import WalletLedger.Database.Currencies
import WalletLedger.Database.Reservations
import WalletLedger.Database.Withdrawals

set_option autoImplicit false

namespace WalletLedger.Database

/-- **Answering a call.** The database tells the time of its changes itself. -/
def call {α : Type} : Call α → Action Database α
  | .findCurrency symbol => findCurrency symbol
  | .listCurrencies => listCurrencies
  | .addCurrency c => addCurrency c
  | .setTransitive symbol on => setFlag "is_transitive" symbol on
  | .setActive symbol on => setFlag "is_active" symbol on
  | .listRates => listRates
  | .findRate source dest => findRate source dest
  | .addRate rate ignore => addRate rate ignore
  | .updateRate rate => updateRate rate
  | .deleteRate source dest => deleteRate source dest
  | .listForbidden => listForbidden
  | .forbid pair => forbid pair
  | .allow pair => allow pair
  | .findOwner uuid => findOwner uuid
  | .createOwner uuid title level flags => createOwner uuid title level flags
  | .setFlags uuid flags => setFlags uuid flags
  | .findWallet key => findWallet key
  | .findWalletById id => findWalletById id
  | .walletsOf ownerId => walletsOf ownerId
  | .createWallet owner key initial => createWallet owner key initial
  | .compareAndSet write => compareAndSet write
  | .commitPosting debit credit posting => commitPosting debit credit posting
  | .findPosting ref => findPosting ref
  | .listPostings filter page => listPostings filter page
  | .insertReservation r => insertReservation r
  | .findReservation number => findReservation number
  | .beginSettlement number s => beginSettlement number s
  | .clearSettlement number => clearSettlement number
  | .closeIfIdle number status => closeIfIdle number status
  | .updateStatusIf number expected status => updateStatusIf number expected status
  | .findLapsed now limit => findLapsed now limit
  | .findStalled startedBefore limit => findStalled startedBefore limit
  | .insertWithdrawal draft _ => insertWithdrawal draft
  | .findWithdrawal id => findWithdrawal id
  | .withdrawalByRequest transfer => withdrawalByRequest transfer
  | .transition id expected status update _ => transition id expected status update
  | .revert current earlier => revert current earlier
  | .setFinal id transfer => setFinal id transfer
  | .searchWithdrawals criteria offset size => searchWithdrawals criteria offset size
  | .listWithdrawals filter page => listWithdrawals filter page

instance : Stores Database where
  call := Database.call
  fresh := Database.fresh

end WalletLedger.Database
