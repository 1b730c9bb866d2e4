/-
**Posting.** The only way in which services move funds: one movement is one call that writes both
balances and the record. A movement with a reference is posted once; asked for again, it is
answered with the posting that was made, provided that it is the same movement.

Cashout wallets are reached with custody access only.
-/
import WalletLedger.Ledger.Wallets

set_option autoImplicit false

namespace WalletLedger

/-- Which wallets a movement may touch. -/
inductive Access where
  /-- All but cashout wallets. -/
  | generic
  /-- All wallets; the withdrawal flow has it. -/
  | custody
deriving DecidableEq

/-- Whether two wallets may be the ends of a movement. -/
def Access.check (access : Access) (source dest : Wallet) : Except Error Unit :=
  match access with
  | .custody => .ok ()
  | .generic =>
    if source.kind.isGeneric && dest.kind.isGeneric then .ok () else .error .cashoutEndpoint

namespace Movement

/-- **What a movement must meet** before any store is asked: positive amounts, two wallets, and the
currencies of the wallets. -/
def check (m : Movement) : Except Error Unit :=
  if !(m.sourceAmount.isPositive && m.destAmount.isPositive) then .error .invalidAmount
  else if m.source.id = m.dest.id then .error .sameWallet
  else if m.sourceAmount.currency ≠ m.source.currency then
    .error (.currencyMismatch m.source.currency m.sourceAmount.currency)
  else if m.destAmount.currency ≠ m.dest.currency then
    .error (.currencyMismatch m.dest.currency m.destAmount.currency)
  else .ok ()

/-- Whether a posting is the record of this movement. -/
def isRecordedBy (m : Movement) (p : Posting) : Bool :=
  p.source.walletId == m.source.id && p.dest.walletId == m.dest.id &&
    p.source.amount.same m.sourceAmount && p.dest.amount.same m.destAmount &&
    p.category == m.category

/-- **The answer from an earlier posting** with the movement's reference. -/
def replay (m : Movement) (p : Posting) : Except Error Receipt :=
  if m.isRecordedBy p then .ok p.receipt else .error (.refTaken (p.ref.getD ""))

/-- The change of the source's balance. -/
def debit (m : Movement) : Amount := ⟨m.sourceAmount.currency, m.sourceAmount.value.neg⟩

/-- The record of the movement between two wallets as they are in the stores. -/
def posting (m : Movement) (source dest : Wallet) (sourceAfter destAfter : Decimal)
    (id : TransferId) (createdAt : Instant) : Posting where
  id
  source := ⟨source.id, source.ownerUuid, source.kind, m.sourceAmount, source.balance, sourceAfter⟩
  dest := ⟨dest.id, dest.ownerUuid, dest.kind, m.destAmount, dest.balance, destAfter⟩
  description := m.description
  ref := m.ref
  category := m.category
  createdAt

end Movement

namespace Ledger

open WalletLedger.Action

variable {σ : Type} [Stores σ]

/-- **One attempt to post:** both wallets are read again, and what was read is what the write
expects. No receipt if a wallet moved on. -/
def tryPost (t : Terms) (access : Access) (m : Movement) : Action (Ledger σ) (Option Receipt) := do
  let source ← loadWallet m.source.id
  let dest ← loadWallet m.dest.id
  ofExcept (access.check source dest)
  let sourceAfter ← ofExcept (source.balanceAfter m.debit)
  let destAfter ← ofExcept (dest.balanceAfter m.destAmount)
  let ids ← fresh
  let posting := m.posting source dest sourceAfter destAfter ids.transfer (← now)
  match ← ask (.commitPosting (source.write sourceAfter) (dest.write destAfter) posting) with
  | .committed =>
    count t m.category
    return some posting.receipt
  | .duplicate earlier => some <$> ofExcept (m.replay earlier)
  | .versionConflict => return none

/-- The posting that already has the reference of a movement. -/
def earlierPosting (m : Movement) : Action (Ledger σ) (Option Posting) :=
  match m.ref with
  | none => return none
  | some ref => ask (.findPosting ref)

/-- **Posts a movement.** -/
def post (t : Terms) (access : Access) (m : Movement) : Action (Ledger σ) Receipt := do
  ofExcept m.check
  ofExcept (access.check m.source m.dest)
  match ← earlierPosting m with
  | some earlier => ofExcept (m.replay earlier)
  | none =>
    retry (.contention m.source.id t.maxAttempts) (tryPost t access m) t.maxAttempts

/-- The posting with a reference. -/
def findPosting (ref : String) : Action (Ledger σ) (Option Posting) := ask (.findPosting ref)

/-- A page of the postings that a filter accepts. -/
def history (filter : Posting.Filter) (page : Page) : Action (Ledger σ) (List Posting) :=
  ask (.listPostings filter page)

end Ledger

end WalletLedger
