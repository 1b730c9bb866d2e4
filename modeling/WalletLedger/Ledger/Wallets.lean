/-
**Wallets in a ledger.** A balance is changed by reading the wallet, computing the new balance and
writing it on condition that the wallet has not moved on; if it has, the whole cycle is repeated, a
limited number of times.
-/
import WalletLedger.Ledger.Basic

set_option autoImplicit false

namespace WalletLedger.Ledger

open WalletLedger.Action

variable {σ : Type} [Stores σ]

def findWallet (owner : Owner) (currency : String) (kind : WalletKind) :
    Action (Ledger σ) (Option Wallet) :=
  ask (.findWallet ⟨owner.id, currency, kind⟩)

/-- The wallet of an owner, which must exist. -/
def requireWallet (owner : Owner) (currency : String) (kind : WalletKind) :
    Action (Ledger σ) Wallet := do
  orRefuse .walletNotFound (← findWallet owner currency kind)

/-- The wallet with a number, which must exist. -/
def loadWallet (id : Int) : Action (Ledger σ) Wallet := do
  orRefuse .walletNotFound (← ask (.findWalletById id))

/-- A new wallet in the currency of its initial amount. -/
def createWallet (owner : Owner) (initial : Amount) (kind : WalletKind) :
    Action (Ledger σ) Wallet :=
  ask (.createWallet owner ⟨owner.id, initial.currency, kind⟩ initial)

/-- **The wallet of an owner, created empty if need be.** If somebody else has created it in the
meantime, theirs is taken. -/
def findOrCreateWallet (owner : Owner) (currency : String) (kind : WalletKind) :
    Action (Ledger σ) Wallet := do
  match ← findWallet owner currency kind with
  | some wallet => return wallet
  | none =>
    match ← (createWallet owner (.zero currency) kind).attempt with
    | .ok wallet => return wallet
    | .error .walletExists => requireWallet owner currency kind
    | .error cause => refuse cause

/-- One cycle of reading, computing and writing; no wallet if the write came too late. -/
def tryMutate (id : Int) (change : Amount) : Action (Ledger σ) (Option Wallet) := do
  let wallet ← loadWallet id
  let balance ← ofExcept (wallet.balanceAfter change)
  ask (.compareAndSet ⟨id, wallet.version, balance⟩)

/-- **Repeats an action until it has an answer,** at most so many times. -/
def retry {α : Type} (exhausted : Error) (a : Action (Ledger σ) (Option α)) :
    (attempts : Nat) → Action (Ledger σ) α
  | 0 => refuse exhausted
  | attempts + 1 => do
    match ← a with
    | some answer => return answer
    | none => retry exhausted a attempts

/-- Applies a signed change to one wallet. -/
def mutateBalance (t : Terms) (id : Int) (change : Amount) : Action (Ledger σ) Wallet :=
  retry (.contention id t.maxAttempts) (tryMutate id change) t.maxAttempts

end WalletLedger.Ledger
