/-
**Reserving and settling.** Reserving locks the outcome of a conversion without moving funds.
Settling claims the reservation, posts the withdraw leg and then the deposit leg, and commits the
reservation. If the deposit leg fails, the refund leg returns what the withdraw leg took. A
settlement that was interrupted anywhere is resumed by posting its legs again: their references
make sure that none is posted twice.
-/
import WalletLedger.Ledger.Transfers

set_option autoImplicit false

namespace WalletLedger

/-- **The transfer of a leg.** The category of a refund is none, so that it does not count as a
purchase. -/
def Reservation.legRequest (r : Reservation) (systemUuid : String) (s : Settlement) (leg : Leg) :
    TransferRequest :=
  let ref := some (r.legRef s leg)
  match leg with
  | .withdraw =>
    { symbol := r.sourceSymbol, senderUuid := r.senderUuid, senderKind := r.senderKind,
      receiverUuid := systemUuid, receiverKind := .main, amount := r.sourceAmount,
      description := s.description, ref, category := .purchaseFinalized }
  | .deposit =>
    { symbol := r.destSymbol, senderUuid := systemUuid, senderKind := .main,
      receiverUuid := r.receiverUuid, receiverKind := r.receiverKind, amount := r.destAmount,
      description := s.description, ref, category := .purchaseFinalized }
  | .refund =>
    { symbol := r.sourceSymbol, senderUuid := systemUuid, senderKind := .main,
      receiverUuid := r.senderUuid, receiverKind := r.senderKind, amount := r.sourceAmount,
      description := s.description, ref, category := .uncategorized }

namespace Ledger

open WalletLedger.Action

variable {σ : Type} [Stores σ]

/-! ## Reserving -/

/-- The system must be able to pay out what is reserved. -/
def checkLiquidity (t : Terms) (needed : Amount) (kind : WalletKind) : Action (Ledger σ) Unit := do
  let system ← systemOwner t
  let wallet ← findWallet system needed.currency kind
  let available := (wallet.map (·.balance)).getD .zero
  require .insufficientLiquidity (needed.value ≤ available)

/-- **Locks a conversion** for the lifetime of a reservation. -/
def reserve (t : Terms) (r : ReserveRequest) : Action (Ledger σ) Reservation := do
  require .cashoutEndpoint (r.senderKind ≠ .cashout && r.receiverKind ≠ .cashout)
  let source ← requireActive r.sourceSymbol
  let dest ← requireActive r.destSymbol
  let amount ← ofExcept (source.checkedAmount r.sourceAmount)
  let route ← firstRoute t source.symbol dest.symbol
  let converted ← ofExcept (amount.convert dest.symbol route.rate)
  let reserved := converted.truncate dest.precision
  require .invalidAmount reserved.isPositive
  checkLiquidity t reserved r.receiverKind
  let reservedAt ← now
  let expiresAt ← orAbort (reservedAt.plusSeconds? t.ttlSecs)
  let ids ← fresh
  let reservation : Reservation :=
    { number := ids.reservation, sourceSymbol := source.symbol, destSymbol := dest.symbol,
      sourceAmount := amount.value, destAmount := reserved.value, senderUuid := r.senderUuid,
      senderKind := r.senderKind, receiverUuid := r.receiverUuid, receiverKind := r.receiverKind,
      reservedAt, expiresAt, status := .reserved, settlement := none }
  ask (.insertReservation reservation)
  return reservation

/-! ## Settling -/

def postLeg (t : Terms) (r : Reservation) (s : Settlement) (leg : Leg) :
    Action (Ledger σ) Receipt :=
  transfer t (r.legRequest t.systemUuid s leg)

/-- Gives a settlement up, unless its withdraw leg is in the log after all. -/
def giveUpUnlessPosted (r : Reservation) (s : Settlement) : Action (Ledger σ) Unit := do
  match ← findPosting (r.legRef s .withdraw) with
  | some _ => return
  | none =>
    let _ ← ask (.clearSettlement r.number)
    return

/-- Returns what the withdraw leg took, and gives the settlement up. If the funds cannot be
returned now, the settlement stays for recovery. -/
def refundAndGiveUp (t : Terms) (r : Reservation) (s : Settlement) : Action (Ledger σ) Unit := do
  match ← (postLeg t r s .refund).attempt with
  | .ok _ =>
    let _ ← ask (.clearSettlement r.number)
    return
  | .error _ => return

/-- **Settles a claimed reservation.** The receipt tells the sender's side of the withdraw leg and
the receiver's side of the deposit leg. -/
def settle (t : Terms) (r : Reservation) (s : Settlement) : Action (Ledger σ) Receipt := do
  match ← (postLeg t r s .withdraw).attempt with
  | .error cause =>
    giveUpUnlessPosted r s
    refuse cause
  | .ok taken =>
    match ← (postLeg t r s .deposit).attempt with
    | .error cause =>
      refundAndGiveUp t r s
      refuse cause
    | .ok given =>
      let _ ← ask (.updateStatusIf r.number .reserved .committed)
      return { taken with
        destUuid := given.destUuid, destKind := given.destKind,
        receivedAmount := given.receivedAmount }

/-- Only the sender may act on a reservation, where it is asked who acts. -/
def checkIssuer (r : Reservation) (issuer : Option String) : Action (Ledger σ) Unit :=
  require .forbidden (issuer.all (· == r.senderUuid))

/-- **Claims a reservation and settles it.** The legs are named after the given reference, or else
after the reservation itself. -/
def advanceReservation (t : Terms) (number : String) (description ref issuer : Option String) :
    Action (Ledger σ) Receipt := do
  let r ← orRefuse (.invalidReservation "reservation not found") (← ask (.findReservation number))
  require (.invalidReservation ("reservation is " ++ r.status.name)) (r.status == .reserved)
  require (.invalidReservation "reservation expired") (!r.isExpiredAt (← now))
  checkIssuer r issuer
  let ids ← fresh
  let s : Settlement :=
    { settleRef := ref.getD r.number, attempt := ids.attempt, description, startedAt := ← now }
  require (.invalidReservation "reservation is already being settled")
    (← ask (.beginSettlement number s))
  settle t r s

/-- **Finishes or undoes an interrupted settlement.** One that has been refunded only has to be
given up; any other is settled again. -/
def resume (t : Terms) (r : Reservation) : Action (Ledger σ) ReservationStatus := do
  match r.settlement with
  | none => return r.status
  | some s =>
    match ← findPosting (r.legRef s .refund) with
    | some _ =>
      let _ ← ask (.clearSettlement r.number)
      return .reserved
    | none =>
      let _ ← settle t r s
      return .committed

/-! ## Closing -/

/-- Cancels a reservation that is not being settled. -/
def cancelReservation (number : String) (issuer : Option String) :
    Action (Ledger σ) Reservation := do
  let r ← orRefuse (.reservationNotFound number) (← ask (.findReservation number))
  checkIssuer r issuer
  require (.invalidReservation "reservation cannot be canceled")
    (← ask (.closeIfIdle number .canceled))
  return { r with status := .canceled }

/-- Closes the given reservations as expired; answers with how many were still idle. -/
def closeLapsed : List Reservation → Action (Ledger σ) Nat
  | [] => return 0
  | r :: rest => do
    let closed ← ask (.closeIfIdle r.number .expired)
    let others ← closeLapsed rest
    return (if closed then 1 else 0) + others

/-- Closes the first reservations that have lapsed by an instant. -/
def expireLapsed (now : Instant) (limit : Nat) : Action (Ledger σ) Nat := do
  closeLapsed (← ask (.findLapsed now limit))

end Ledger

end WalletLedger
