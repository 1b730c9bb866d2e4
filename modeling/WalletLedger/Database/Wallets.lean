/-
**Owners and wallets in a database.** A wallet's row is joined with its owner's, and a write of a
balance is one statement that names the version it was computed from.
-/
import WalletLedger.Database.Basic

set_option autoImplicit false

namespace WalletLedger

/-! ## Rows -/

namespace Owner

def columns : List String := ["id", "uuid", "title", "level", "flags"]

def ofRow (r : Row) : Except Error Owner := do
  let id ← r.int "id"
  let uuid ← r.text "uuid"
  let title ← r.text "title"
  let level ← r.text "level"
  let flags ← r.int "flags"
  return { id, uuid, title, level, flags }

end Owner

namespace WalletKind

def ofRow (r : Row) (column : String) : Except Error WalletKind := do
  let id ← r.int column
  Row.known column (toString id) (ofId? id)

end WalletKind

namespace Wallet

def ofRow (r : Row) : Except Error Wallet := do
  let id ← r.int "id"
  let ownerId ← r.int "owner_id"
  let ownerUuid ← r.text "owner_uuid"
  let currency ← r.text "currency"
  let kind ← WalletKind.ofRow r "wallet_type"
  let balance ← r.decimal "balance"
  let version ← r.int "version"
  return { id, ownerId, ownerUuid, currency, kind, balance, version }

end Wallet

namespace Database

open WalletLedger.Action Statement

/-! ## Owners -/

def findOwner (uuid : String) : Action Database (Option Owner) :=
  fetch? Owner.ofRow
    ⟨words ["SELECT", names Owner.columns, "FROM wallet_owners_tb WHERE uuid = $1"],
      [.text uuid]⟩

def createOwner (uuid title level : String) (flags : Int) : Action Database Owner := do
  let row : Row :=
    [("uuid", .text uuid), ("title", .text title), ("level", .text level), ("flags", .int flags)]
  let created ← whenTaken (.internal (.ownerExists uuid))
    (fetchFirst (insert "wallet_owners_tb" row ["RETURNING", names Owner.columns]))
  ofExcept (Owner.ofRow created)

def setFlags (uuid : String) (flags : Int) : Action Database Owner := do
  let changed ← fetchFirst?
    ⟨words ["UPDATE wallet_owners_tb SET flags = $2 WHERE uuid = $1 RETURNING",
      names Owner.columns], [.text uuid, .int flags]⟩
  ofExcept (Owner.ofRow (← orRefuse (.ownerNotFound uuid) changed))

/-! ## Wallets -/

def selectWallets (which : String) (values : List Value) : Statement where
  text := words [
    "SELECT w.id, w.owner_id, o.uuid AS owner_uuid, w.currency, w.wallet_type, w.balance,",
    "w.version FROM wallets_tb w JOIN wallet_owners_tb o ON o.id = w.owner_id", which]
  values

def findWallet (key : WalletKey) : Action Database (Option Wallet) :=
  fetch? Wallet.ofRow
    (selectWallets "WHERE w.owner_id = $1 AND w.currency = $2 AND w.wallet_type = $3"
      [.int key.ownerId, .text key.currency, .int key.kind.id])

def findWalletById (id : Int) : Action Database (Option Wallet) :=
  fetch? Wallet.ofRow (selectWallets "WHERE w.id = $1" [.int id])

def walletsOf (ownerId : Int) : Action Database (List Wallet) :=
  fetchAll Wallet.ofRow (selectWallets "WHERE w.owner_id = $1 ORDER BY w.id" [.int ownerId])

/-- **A new wallet** is in the currency of its key and not in debt. It is answered as it was asked
for; only its number is the database's. -/
def createWallet (owner : Owner) (key : WalletKey) (initial : Amount) : Action Database Wallet := do
  require (.currencyMismatch key.currency initial.currency) (initial.currency == key.currency)
  require .invalidAmount (!initial.value.isNegative)
  let created ← whenTaken .walletExists (fetchFirst
    ⟨words ["INSERT INTO wallets_tb (owner_id, currency, wallet_type, balance, version)",
      "VALUES ($1, $2, $3, $4, 0) RETURNING id"],
      [.int owner.id, .text key.currency, .int key.kind.id, .ofDecimal initial.value]⟩)
  let id ← ofExcept (Row.single created Value.asInt)
  return {
    id, ownerId := owner.id, ownerUuid := owner.uuid, currency := key.currency, kind := key.kind,
    balance := initial.value, version := 0 }

/-- **The write of a balance;** it changes a row only while the wallet is at the version that the
write names. -/
def writeBalance (w : BalanceWrite) : Statement where
  text := words ["UPDATE wallets_tb SET balance = $1, version = version + 1",
    "WHERE id = $2 AND version = $3"]
  values := [.ofDecimal w.newBalance, .int w.walletId, .int w.expectedVersion]

def compareAndSet (w : BalanceWrite) : Action Database (Option Wallet) := do
  if (← execute (writeBalance w)) = 0 then return none
  findWalletById w.walletId

end Database

end WalletLedger
