/-
**Owners and wallets.** An owner holds at most one wallet for each currency and kind. A wallet
carries a version that counts the writes of its balance; a write names the version that it was
computed from, so that a stale one can be told.
-/
import WalletLedger.Amount

set_option autoImplicit false

namespace WalletLedger

/-! ## Kinds of wallets -/

/-- What the funds of a wallet are for. -/
inductive WalletKind where
  /-- Spendable. -/
  | main
  /-- Set aside for a withdrawal. -/
  | cashout
  /-- Held by the trading side. -/
  | exchange
deriving DecidableEq, Inhabited

namespace WalletKind

def all : List WalletKind := [.main, .cashout, .exchange]

/-- The number under which a kind is stored. -/
def id : WalletKind → Int
  | .main => 1
  | .cashout => 2
  | .exchange => 3

def ofId? : Int → Option WalletKind
  | 1 => some .main
  | 2 => some .cashout
  | 3 => some .exchange
  | _ => none

def name : WalletKind → String
  | .main => "main"
  | .cashout => "cashout"
  | .exchange => "exchange"

/-- Only the withdrawal flow moves funds into or out of cashout wallets. -/
def isGeneric : WalletKind → Bool
  | .cashout => false
  | _ => true

def toDocument (k : WalletKind) : Document := .text k.name

def ofDocument? : Document → Option WalletKind :=
  Document.named? (all.map fun k => (k.name, k))

/-- **Reading a kind** as a person writes it: the name in any case, or the number. No letter
outside ASCII has a lower case among the letters of the names. -/
def ofText? (s : String) : Option WalletKind :=
  let lower := String.ofList (s.toList.map Char.toLower)
  all.find? fun k => lower == k.name || lower == toString k.id

theorem ofId?_id (k : WalletKind) : ofId? k.id = some k := by cases k <;> rfl

/-- A number is read as the value that it is the number of. -/
theorem ofId?_eq_some {n : Int} {k : WalletKind} : ofId? n = some k ↔ k.id = n := by
  constructor
  · intro h
    unfold ofId? at h
    split at h <;> cases h <;> rfl
  · rintro rfl
    exact ofId?_id k

end WalletKind

/-! ## Owners -/

/-- Someone who holds wallets. -/
structure Owner where
  id : Int
  uuid : String
  title : String
  level : String
  /-- Three permission bits. -/
  flags : Int
deriving DecidableEq, Inhabited

namespace Owner

/-- Bit `i` of a number in two's complement. -/
def bit (flags : Int) (i : Nat) : Bool := flags / pow2 i % 2 = 1

def canTrade (o : Owner) : Bool := bit o.flags 0

def canWithdraw (o : Owner) : Bool := bit o.flags 1

def canDeposit (o : Owner) : Bool := bit o.flags 2

/-- The flags of a choice of permissions. -/
def flagsOf (trade withdraw deposit : Bool) : Int :=
  (if trade then 1 else 0) + (if withdraw then 2 else 0) + (if deposit then 4 else 0)

/-- A new owner may do everything. -/
def defaultFlags : Int := flagsOf true true true

def toDocument (o : Owner) : Document :=
  .object [
    ("id", .int o.id), ("uuid", .text o.uuid), ("title", .text o.title),
    ("level", .text o.level), ("flags", .int o.flags)]

def ofDocument? (d : Document) : Option Owner := do
  let d := d.record 5 ["id", "uuid", "title", "level", "flags"]
  return {
    id := ← d.need "id" (Document.signed? 64)
    uuid := ← d.need "uuid" Document.text?
    title := ← d.need "title" Document.text?
    level := ← d.need "level" Document.text?
    flags := ← d.need "flags" (Document.signed? 32) }

end Owner

/-! ## Wallets -/

/-- The balance of an owner in one currency, for one purpose. -/
structure Wallet where
  id : Int
  ownerId : Int
  ownerUuid : String
  currency : String
  kind : WalletKind
  balance : Decimal
  version : Int
deriving DecidableEq, Inhabited

/-- What at most one wallet has. -/
structure WalletKey where
  ownerId : Int
  currency : String
  kind : WalletKind
deriving DecidableEq

/-- A new balance, valid only while the wallet is still at the expected version. -/
structure BalanceWrite where
  walletId : Int
  expectedVersion : Int
  newBalance : Decimal
deriving DecidableEq

namespace Wallet

def key (w : Wallet) : WalletKey := ⟨w.ownerId, w.currency, w.kind⟩

def amount (w : Wallet) : Amount := ⟨w.currency, w.balance⟩

/-- **The balance after a signed change.** The currency must be the wallet's, and the result is
neither out of range nor negative. -/
def balanceAfter (w : Wallet) (change : Amount) : Except Error Decimal :=
  if change.currency ≠ w.currency then
    .error (.currencyMismatch w.currency change.currency)
  else
    match w.balance.add? change.value with
    | none => .error (.internal .balanceOverflow)
    | some balance => if balance.isNegative then .error .insufficientFunds else .ok balance

/-- The write of a new balance to the wallet as it was read. -/
def write (w : Wallet) (balance : Decimal) : BalanceWrite := ⟨w.id, w.version, balance⟩

def toDocument (w : Wallet) : Document :=
  .object [
    ("id", .int w.id), ("owner_id", .int w.ownerId), ("owner_uuid", .text w.ownerUuid),
    ("currency", .text w.currency), ("wallet_type", w.kind.toDocument),
    ("balance", .ofDecimal w.balance), ("version", .int w.version)]

def ofDocument? (d : Document) : Option Wallet := do
  let d := d.record 7 ["id", "owner_id", "owner_uuid", "currency", "wallet_type", "balance",
    "version"]
  return {
    id := ← d.need "id" (Document.signed? 64)
    ownerId := ← d.need "owner_id" (Document.signed? 64)
    ownerUuid := ← d.need "owner_uuid" Document.text?
    currency := ← d.need "currency" Document.text?
    kind := ← d.need "wallet_type" WalletKind.ofDocument?
    balance := ← d.need "balance" Document.decimal?
    version := ← d.need "version" (Document.signed? 64) }

end Wallet

namespace BalanceWrite

def ofDocument? (d : Document) : Option BalanceWrite := do
  return {
    walletId := ← d.need "wallet_id" (Document.signed? 64)
    expectedVersion := ← d.need "expected_version" (Document.signed? 64)
    newBalance := ← d.need "new_balance" Document.decimal? }

end BalanceWrite

end WalletLedger
