/-
**Console commands that move funds or look back on what was moved.**
-/
import WalletLedger.Console.Basic
import WalletLedger.Ledger.Transfers

set_option autoImplicit false

namespace WalletLedger

def Posting.Filter.ofDocument? (d : Document) : Option Posting.Filter := do
  return {
    ownerUuid := ← d.maybe "owner_uuid" Document.text?
    currency := ← d.maybe "currency" Document.text?
    category := ← d.maybe "category" Category.ofDocument?
    start := ← d.maybe "start" (Document.signed? 64)
    finish := ← d.maybe "end" (Document.signed? 64) }

/-- A movement between two wallets, each given whole. Without a second amount, what arrives is what
leaves. -/
def Movement.ofDocument? (d : Document) : Option Movement := do
  let amount ← d.need "amount" Amount.ofDocument?
  return {
    source := ← d.need "source" Wallet.ofDocument?
    dest := ← d.need "dest" Wallet.ofDocument?
    sourceAmount := amount
    destAmount := (← d.maybe "dest_amount" Amount.ofDocument?).getD amount
    description := ← d.maybe "description" Document.text?
    ref := ← d.maybe "transfer_ref" Document.text?
    category := (← d.maybe "category" Category.ofDocument?).getD .uncategorized }

namespace Console

open Ledger

variable {σ : Type} [Stores σ]

def transferCommand (t : Terms) (d : Document) : String → Dialog σ Document
  | "transfer" => do
    let request ← given (d.need "request" TransferRequest.ofDocument?)
    answer Receipt.toDocument (transfer t request)
  | "deposit" => do
    let symbol ← text d "symbol"
    let receiver ← text d "receiver"
    let kind ← kind d "type"
    let amount ← decimal d "amount"
    let description ← text? d "description"
    let ref ← text? d "transfer_ref"
    answer Receipt.toDocument (deposit t symbol receiver kind amount description ref)
  | "deposit_manually" => do
    let symbol ← text d "symbol"
    let sender ← text d "sender"
    let receiver ← text d "receiver"
    let amount ← decimal d "amount"
    let description ← text? d "description"
    let ref ← text? d "transfer_ref"
    answer Receipt.toDocument (depositManually t symbol sender receiver amount description ref)
  | "quote" => do
    let symbol ← text d "symbol"
    let amount ← decimal d "amount"
    let dest ← text d "dest"
    answer Amount.toDocument (quote t symbol amount dest)
  | "engine.transfer" => do
    let movement ← given (Movement.ofDocument? d)
    answer Receipt.toDocument (post t .generic movement)
  | "history" => do
    let filter ← given (Posting.Filter.ofDocument? d)
    let page ← given (Page.ofDocument? d)
    answer (.ofList Posting.toDocument) (history filter page)
  | "find_by_ref" => do
    let ref ← text d "transfer_ref"
    answer (.ofOption Posting.toDocument) (findPosting ref)
  | _ => throw .unknown

end Console

end WalletLedger
