/-
**Console commands about owners and wallets.** Where a command names an owner, that owner is looked
up before anything else.
-/
import WalletLedger.Console.Basic
import WalletLedger.Ledger.Owners
import WalletLedger.Ledger.Wallets

set_option autoImplicit false

namespace WalletLedger.Console

open Ledger

variable {σ : Type} [Stores σ]

def ownerCommand (t : Terms) (d : Document) : String → Dialog σ Document
  | "owner.find" => do
    let uuid ← text d "uuid"
    answer (.ofOption Owner.toDocument) (ask (.findOwner uuid))
  | "owner.require" => do
    let uuid ← text d "uuid"
    answer Owner.toDocument (requireOwner uuid)
  | "owner.find_or_create" => do
    let uuid ← text d "uuid"
    answer Owner.toDocument (findOrCreateOwner uuid)
  | "owner.create" => do
    let uuid ← text d "uuid"
    let title ← text d "title"
    let level ← text d "level"
    answer Owner.toDocument (createOwner uuid title level)
  | "owner.system" => answer Owner.toDocument (systemOwner t)
  | "owner.bootstrap" => answer Owner.toDocument (bootstrapSystemOwner t.systemUuid)
  | "owner.permissions" => do
    let uuid ← text d "uuid"
    let trade ← switch d "trade"
    let withdraw ← switch d "withdraw"
    let deposit ← switch d "deposit"
    answer Owner.toDocument (setPermissions uuid trade withdraw deposit)
  | _ => throw .unknown

/-- The owner that a command names. -/
def namedOwner (d : Document) : Dialog σ Owner := do
  let uuid ← text d "owner"
  perform (requireOwner uuid)

def walletCommand (t : Terms) (d : Document) : String → Dialog σ Document
  | "wallet.create" => do
    let owner ← namedOwner d
    let currency ← text d "currency"
    let value ← decimal d "amount"
    let kind ← kind d "type"
    answer Wallet.toDocument (createWallet owner ⟨currency, value⟩ kind)
  | "wallet.find" => do
    let owner ← namedOwner d
    let currency ← text d "currency"
    let kind ← kind d "type"
    answer (.ofOption Wallet.toDocument) (findWallet owner currency kind)
  | "wallet.find_or_create" => do
    let owner ← namedOwner d
    let currency ← text d "currency"
    let kind ← kind d "type"
    answer Wallet.toDocument (findOrCreateWallet owner currency kind)
  | "wallet.by_id" => do
    let id ← int d "id"
    answer (.ofOption Wallet.toDocument) (ask (.findWalletById id))
  | "wallet.of_owner" => do
    let id ← int d "owner_id"
    answer (.ofList Wallet.toDocument) (ask (.walletsOf id))
  | "wallet.amount" => do
    let id ← int d "wallet"
    answer (fun w => w.amount.toDocument) (loadWallet id)
  | "wallet.mutate" => do
    let id ← int d "id"
    let currency ← text d "currency"
    let change ← decimal d "delta"
    answer Wallet.toDocument (mutateBalance t id ⟨currency, change⟩)
  | "wallet.max_retries" => return .int t.maxAttempts
  | _ => throw .unknown

end WalletLedger.Console
