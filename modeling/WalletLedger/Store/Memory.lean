/-
**Stores in memory.** Each call is answered from the tables at once, and a refused call changes
nothing (`call_refused`). New rows are numbered as they are stored, so an identifier that was
offered and not used is offered again.
-/
import WalletLedger.Store.Call
import WalletLedger.Store.CurrencyTable
import WalletLedger.Store.RateTable
import WalletLedger.Store.ReservationTable
import WalletLedger.Store.WalletTable
import WalletLedger.Store.WithdrawalTable

set_option autoImplicit false

namespace WalletLedger

structure Memory where
  currencies : CurrencyTable
  rates : RateTable
  wallets : WalletTable
  reservations : ReservationTable
  withdrawals : WithdrawalTable
  ids : IdSource
  /-- How many postings have taken an identifier. -/
  posted : Nat
  /-- How many reservations have taken a number. -/
  reserved : Nat
  /-- How many settlements have taken an attempt. -/
  claimed : Nat

namespace Memory

def empty (ids : IdSource) : Memory where
  currencies := .empty
  rates := .empty
  wallets := .empty
  reservations := .empty
  withdrawals := .empty
  ids
  posted := 0
  reserved := 0
  claimed := 0

def fresh (m : Memory) : FreshIds where
  transfer := m.ids.transfer (m.posted + 1)
  reservation := m.ids.reservation (m.reserved + 1)
  attempt := m.ids.attempt (m.claimed + 1)

/-! ## Parts of the memory -/

def withCurrencies (m : Memory) (t : CurrencyTable) : Memory := { m with currencies := t }

def withRates (m : Memory) (t : RateTable) : Memory := { m with rates := t }

def withWallets (m : Memory) (t : WalletTable) : Memory := { m with wallets := t }

def withReservations (m : Memory) (t : ReservationTable) : Memory := { m with reservations := t }

def withWithdrawals (m : Memory) (t : WithdrawalTable) : Memory := { m with withdrawals := t }

/-- An answer that only reads. -/
def reading {α : Type} (m : Memory) (a : α) : Except Error (α × Memory) := .ok (a, m)

/-- An answer from a write that changes one part and says nothing else. -/
def writing {τ : Type} (put : τ → Memory) (t : Except Error τ) : Except Error (Unit × Memory) :=
  t.map fun t' => ((), put t')

/-- An answer from a write that changes one part. -/
def answering {α τ : Type} (put : τ → Memory) (t : Except Error (α × τ)) :
    Except Error (α × Memory) :=
  t.map fun (a, t') => (a, put t')

/-! ## Calls -/

/-- A posting takes its identifier once it is in the log. -/
def notePosted : CommitOutcome × Memory → CommitOutcome × Memory
  | (.committed, m) => (.committed, { m with posted := m.posted + 1 })
  | other => other

/-- A settlement takes its attempt once it has claimed the reservation. -/
def noteClaimed : Bool × Memory → Bool × Memory
  | (true, m) => (true, { m with claimed := m.claimed + 1 })
  | other => other

/-- A reservation takes its number once it is stored. -/
def noteReserved : Unit × Memory → Unit × Memory
  | ((), m) => ((), { m with reserved := m.reserved + 1 })

/-- **Answering a call.** -/
def answer (m : Memory) {α : Type} : Call α → Except Error (α × Memory)
  | .findCurrency symbol => m.reading (m.currencies.find? symbol)
  | .listCurrencies => m.reading m.currencies.rows
  | .addCurrency c => writing m.withCurrencies (m.currencies.add c)
  | .setTransitive symbol on => writing m.withCurrencies (m.currencies.setTransitive symbol on)
  | .setActive symbol on => writing m.withCurrencies (m.currencies.setActive symbol on)
  | .listRates => m.reading m.rates.rates
  | .findRate source dest => m.reading (m.rates.find? source dest)
  | .addRate rate ignore => writing m.withRates (m.rates.add rate ignore)
  | .updateRate rate => writing m.withRates (m.rates.update rate)
  | .deleteRate source dest => writing m.withRates (m.rates.delete source dest)
  | .listForbidden => m.reading m.rates.forbidden
  | .forbid pair => .ok ((), m.withRates (m.rates.forbid pair))
  | .allow pair => .ok ((), m.withRates (m.rates.allow pair))
  | .findOwner uuid => m.reading (m.wallets.owner? uuid)
  | .createOwner uuid title level flags =>
    answering m.withWallets (m.wallets.createOwner uuid title level flags)
  | .setFlags uuid flags => answering m.withWallets (m.wallets.setFlags uuid flags)
  | .findWallet key => m.reading (m.wallets.find? key)
  | .findWalletById id => m.reading (m.wallets.wallet? id)
  | .walletsOf ownerId => m.reading (m.wallets.walletsOf ownerId)
  | .createWallet owner key initial =>
    answering m.withWallets (m.wallets.createWallet owner key initial)
  | .compareAndSet write => answering m.withWallets (m.wallets.compareAndSet write)
  | .commitPosting debit credit posting =>
    (answering m.withWallets (m.wallets.commit debit credit posting)).map notePosted
  | .findPosting ref => m.reading (m.wallets.byRef? ref)
  | .listPostings filter page => m.reading (m.wallets.postings filter page)
  | .insertReservation r =>
    (writing m.withReservations (m.reservations.insert r)).map noteReserved
  | .findReservation number => m.reading (m.reservations.find? number)
  | .beginSettlement number s =>
    (answering m.withReservations (m.reservations.begin number s)).map noteClaimed
  | .clearSettlement number => answering m.withReservations (m.reservations.clear number)
  | .closeIfIdle number status =>
    answering m.withReservations (m.reservations.closeIfIdle number status)
  | .updateStatusIf number expected status =>
    answering m.withReservations (m.reservations.updateStatusIf number expected status)
  | .findLapsed now limit => m.reading (m.reservations.lapsed now limit)
  | .findStalled startedBefore limit => m.reading (m.reservations.stalled startedBefore limit)
  | .insertWithdrawal draft now =>
    answering m.withWithdrawals (m.withdrawals.insert draft now)
  | .findWithdrawal id => m.reading (m.withdrawals.find? id)
  | .withdrawalByRequest transfer => m.reading (m.withdrawals.byRequest? transfer)
  | .transition id expected status update now =>
    answering m.withWithdrawals (m.withdrawals.transition id expected status update now)
  | .revert current earlier => answering m.withWithdrawals (m.withdrawals.revert current earlier)
  | .setFinal id transfer => writing m.withWithdrawals (m.withdrawals.setFinal id transfer)
  | .searchWithdrawals criteria offset size =>
    m.reading (m.withdrawals.search criteria offset size)
  | .listWithdrawals filter page => m.reading (m.withdrawals.history filter page)

/-- A call as an action. -/
def call {α : Type} (c : Call α) : Action Memory α :=
  Action.ofFun fun m =>
    match m.answer c with
    | .ok (a, m') => (.ok a, m')
    | .error cause => (.error (.refused cause), m)

/-- **A refused call changes nothing.** -/
theorem call_refused {α : Type} (c : Call α) (m : Memory) (stop : Stop)
    (h : ((call c).runIn m).1 = .error stop) : ((call c).runIn m).2 = m := by
  simp only [call, Action.runIn_ofFun] at h ⊢
  split at h <;> simp_all

instance : Stores Memory where
  call := Memory.call
  fresh := Memory.fresh

end Memory

end WalletLedger
