/-
**Withdrawals in a ledger.** A request moves funds from the owner's main wallet to the owner's
cashout wallet. Accepting moves them on to the system; canceling and rejecting return them. Each of
these first claims the new status, so that of several callers only one goes on, and then posts; if
the posting fails, the row is put back.
-/
import WalletLedger.Ledger.Transfers

set_option autoImplicit false

namespace WalletLedger

/-- The reference of the posting that belongs to a change of status. -/
def Withdrawal.legRef (w : Withdrawal) (status : WithdrawalStatus) : String :=
  "withdraw:" ++ toString w.id ++ ":" ++ status.name

/-- The reference of the posting that returns funds for which no row could be stored. -/
def Receipt.orphanRef (r : Receipt) : String := "withdraw:orphan:" ++ r.transferId.text

/-! ## What is stored -/

/-- The row of a request. -/
def WithdrawalRequest.draft (c : WithdrawalRequest) (owner : Owner) (currency : Currency)
    (cashout : Wallet) (net fee : Decimal) (staged : Receipt) : WithdrawalDraft where
  ownerUuid := owner.uuid
  currency := currency.symbol
  walletId := cashout.id
  amount := net
  requestTransaction := staged.transferId
  finalTransaction := none
  appliedFee := fee
  destAmount := some net
  destSymbol := some c.destSymbol
  destAddress := some c.destAddress
  destNetwork := some c.destNetwork
  destNote := c.destNote
  destTransactionRef := none
  status := .created
  applicator := none
  type := .onChain
  attachment := none

/-- The row of a payout that was made elsewhere. -/
def ManualWithdrawal.draft (c : ManualWithdrawal) (currency : Currency) (dest : Wallet)
    (amount : Amount) (posted : Receipt) : WithdrawalDraft where
  ownerUuid := c.sourceUuid
  currency := currency.symbol
  walletId := dest.id
  amount := amount.value
  requestTransaction := posted.transferId
  finalTransaction := some posted.transferId
  appliedFee := .zero
  destAmount := some .zero
  destSymbol := some currency.symbol
  destAddress := some c.receiverUuid
  destNetwork := none
  destNote := c.description
  destTransactionRef := c.ref
  status := .done
  applicator := some c.receiverUuid
  type := .manually
  attachment := c.attachment

/-- What accepting writes besides the status. A note that is there stays. -/
def WithdrawalAcceptance.update (c : WithdrawalAcceptance) (w : Withdrawal) : WithdrawalUpdate :=
  { WithdrawalUpdate.none with
    destAmount := some (c.destAmount.getD w.amount)
    destNote := w.destNote.or c.destNote
    destTransactionRef := c.destTransactionRef
    applicator := c.applicator }

/-- What rejecting writes besides the status. -/
def WithdrawalRejection.update (c : WithdrawalRejection) : WithdrawalUpdate :=
  { WithdrawalUpdate.none with
    statusReason := some c.statusReason, destNote := c.destNote, applicator := c.applicator }

namespace Ledger

open WalletLedger.Action

variable {σ : Type} [Stores σ]

def requireWithdrawal (id : Int) : Action (Ledger σ) Withdrawal := do
  orRefuse (.withdrawalNotFound id) (← ask (.findWithdrawal id))

/-! ## Requests -/

/-- The terms of a network, which must be enabled. -/
def requirePolicy (symbol network : String) : Action (Ledger σ) WithdrawalPolicy := do
  let policies ← peek (·.policies)
  orRefuse .withdrawalNotAllowed ((policies.find? symbol network).filter (·.enabled))

/-- **Returns funds that were set aside** for a row that could not be stored. -/
def unstage (t : Terms) (ownerUuid : String) (amount : Amount) (cashoutId : Int)
    (staged : Receipt) : Action (Ledger σ) Receipt := do
  let owner ← requireOwner ownerUuid
  let cashout ← loadWallet cashoutId
  let main ← requireWallet owner amount.currency .main
  post t .custody (.ofAmount cashout main amount .withdrawCancel none (some staged.orphanRef))

/-- **A payout is asked for.** The amount includes the fee, and it may exceed the balance by the fee
as far as this check is concerned; that the funds suffice is checked when they are moved. -/
def requestWithdrawal (t : Terms) (c : WithdrawalRequest) :
    Action (Ledger σ) WithdrawalOutcome := do
  let currency ← requireActive c.currency
  let owner ← requireOwner c.uuid
  require .forbidden owner.canWithdraw
  let amount ← ofExcept (currency.checkedAmount c.amount)
  let policy ← requirePolicy c.destSymbol c.destNetwork
  let source ← requireWallet owner currency.symbol .main
  let reach ← orAbort (source.balance.add? policy.fee)
  require .exceedsBalance (amount.value ≤ reach)
  require .belowMinimum (policy.minimum ≤ amount.value && policy.fee < amount.value)
  let net ← orAbort (amount.value.sub? policy.fee)
  let cashout ← findOrCreateWallet owner currency.symbol .cashout
  let staged ←
    post t .custody (.ofAmount source cashout amount .withdrawRequest c.description none)
  let draft := c.draft owner currency cashout net policy.fee staged
  match ← (ask (.insertWithdrawal draft (← now))).attempt with
  | .ok row => return ⟨row.id, row.status⟩
  | .error cause =>
    let _ ← (unstage t owner.uuid amount cashout.id staged).attempt
    refuse cause

/-! ## Decisions -/

/-- **Posts what belongs to a claimed status.** An error that surfaces after the posting has landed
is no failure; after any other the row is put back. -/
def postOrRevert (t : Terms) (w : Withdrawal) (status : WithdrawalStatus) (m : Movement) :
    Action (Ledger σ) Receipt := do
  match ← (post t .custody m).attempt with
  | .ok posted => return posted
  | .error cause =>
    match ← (findPosting (w.legRef status)).attempt with
    | .ok (some landed) => return landed.receipt
    | _ =>
      let _ ← ask (.revert status w)
      refuse cause

/-- **Claims a status and moves the staged amount** out of the cashout wallet. The row is gone when
another caller was faster, which is refused as `lost` says. -/
def transitionWithLeg (t : Terms) (w : Withdrawal) (status : WithdrawalStatus)
    (update : WithdrawalUpdate) (cashout dest : Wallet) (category : Category)
    (description : Option String) (lost : Error) : Action (Ledger σ) WithdrawalOutcome := do
  let claimed ← orRefuse lost (← ask (.transition w.id w.status status update (← now)))
  let staged ← orAbort w.staged?
  let movement :=
    Movement.ofAmount cashout dest ⟨w.currency, staged⟩ category description
      (some (w.legRef status))
  let posted ← postOrRevert t w status movement
  ask (.setFinal w.id posted.transferId)
  return ⟨claimed.id, claimed.status⟩

/-- **Confirms a payout;** the staged funds go to the system. -/
def acceptWithdrawal (t : Terms) (c : WithdrawalAcceptance) :
    Action (Ledger σ) WithdrawalOutcome := do
  let w ← requireWithdrawal c.withdrawalId
  require .withdrawalProcessed w.status.canBeAccepted
  let cashout ← loadWallet w.walletId
  let system ← systemOwner t
  let dest ← findOrCreateWallet system w.currency .main
  transitionWithLeg t w .done (c.update w) cashout dest .withdrawAccept none
    .withdrawalProcessed

/-- Takes a new withdrawal up; nothing moves. -/
def processWithdrawal (id : Int) : Action (Ledger σ) WithdrawalOutcome := do
  let w ← requireWithdrawal id
  require .withdrawalProcessed w.status.canBeProcessed
  let _ ← orRefuse .withdrawalProcessed
    (← ask (.transition w.id w.status .processing .none (← now)))
  return ⟨id, .processing⟩

/-- **The owner cancels;** the staged funds return to the owner. -/
def cancelWithdrawal (t : Terms) (uuid : String) (id : Int) :
    Action (Ledger σ) WithdrawalOutcome := do
  let w ← requireWithdrawal id
  require .forbidden (w.ownerUuid == uuid)
  require .withdrawalNotCancelable w.status.canBeCanceled
  let owner ← requireOwner uuid
  let cashout ← loadWallet w.walletId
  let dest ← findOrCreateWallet owner w.currency .main
  transitionWithLeg t w .canceled .none cashout dest .withdrawCancel none .withdrawalNotCancelable

/-- **An operator turns a payout down;** the staged funds return to the holder of the cashout
wallet. -/
def rejectWithdrawal (t : Terms) (c : WithdrawalRejection) :
    Action (Ledger σ) WithdrawalOutcome := do
  let w ← requireWithdrawal c.withdrawalId
  require .withdrawalNotRejectable w.status.canBeRejected
  let cashout ← loadWallet w.walletId
  let owner ← requireOwner cashout.ownerUuid
  let dest ← findOrCreateWallet owner cashout.currency .main
  transitionWithLeg t w .rejected c.update cashout dest .withdrawReject (some c.statusReason)
    .withdrawalNotRejectable

/-! ## Payouts made elsewhere -/

/-- Stores the row of a posting, once: that it is there already is no failure. -/
def recordOnce (draft : WithdrawalDraft) : Action (Ledger σ) Unit := do
  match ← ask (.withdrawalByRequest draft.requestTransaction) with
  | some _ => return
  | none =>
    match ← (ask (.insertWithdrawal draft (← now))).attempt with
    | .ok _ => return
    | .error cause =>
      match ← ask (.withdrawalByRequest draft.requestTransaction) with
      | some _ => return
      | none => refuse cause

/-- **Records a payout that was made elsewhere:** a posting between two main wallets and a row that
is done from the start. -/
def withdrawManually (t : Terms) (c : ManualWithdrawal) : Action (Ledger σ) Receipt := do
  let currency ← requireActive c.symbol
  let amount ← ofExcept (currency.checkedAmount c.amount)
  let sender ← requireOwner c.sourceUuid
  let source ← requireWallet sender currency.symbol .main
  let receiver ← findOrCreateOwner c.receiverUuid
  let dest ← findOrCreateWallet receiver currency.symbol .main
  let posted ←
    post t .generic (.ofAmount source dest amount .withdrawManually c.description c.ref)
  recordOnce (c.draft currency dest amount posted)
  return posted

end Ledger

end WalletLedger
