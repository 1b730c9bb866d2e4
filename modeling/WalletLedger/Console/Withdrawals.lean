/-
**Console commands about withdrawals** and the policies of networks.
-/
import WalletLedger.Console.Basic
import WalletLedger.Ledger.Withdrawals

set_option autoImplicit false

namespace WalletLedger.Console

open Ledger

variable {σ : Type} [Stores σ]

def policyCommand (d : Document) : String → Dialog σ Document
  | "policy.set" => do
    let symbol ← text d "symbol"
    let network ← text d "network"
    let policy ← given (d.need "policy" WithdrawalPolicy.ofDocument?)
    done (adjust fun l => { l with policies := l.policies.set symbol network policy })
  | "policy.get" => do
    let symbol ← text d "symbol"
    let network ← text d "network"
    answer (.ofOption WithdrawalPolicy.toDocument)
      (peek fun l => l.policies.find? symbol network)
  | _ => throw .unknown

def withdrawalCommand (t : Terms) (d : Document) : String → Dialog σ Document
  | "withdraw.request" => do
    let command ← given (d.need "command" WithdrawalRequest.ofDocument?)
    answer WithdrawalOutcome.toDocument (requestWithdrawal t command)
  | "withdraw.accept" => do
    let command ← given (d.need "command" WithdrawalAcceptance.ofDocument?)
    answer WithdrawalOutcome.toDocument (acceptWithdrawal t command)
  | "withdraw.reject" => do
    let command ← given (d.need "command" WithdrawalRejection.ofDocument?)
    answer WithdrawalOutcome.toDocument (rejectWithdrawal t command)
  | "withdraw.manually" => do
    let command ← given (d.need "command" ManualWithdrawal.ofDocument?)
    answer Receipt.toDocument (withdrawManually t command)
  | "withdraw.process" => do
    let id ← int d "id"
    answer WithdrawalOutcome.toDocument (processWithdrawal id)
  | "withdraw.cancel" => do
    let uuid ← text d "uuid"
    let id ← int d "id"
    answer WithdrawalOutcome.toDocument (cancelWithdrawal t uuid id)
  | "withdraw.find" => do
    let id ← int d "id"
    answer (.ofOption Withdrawal.toDocument) (ask (.findWithdrawal id))
  | "withdraw.search" => do
    let criteria ← given (Withdrawal.Criteria.ofDocument? d)
    let offset ← natOr d "offset" 0
    let size ← given (d.maybe "size" (Document.nat? 64))
    answer (.ofList Withdrawal.toDocument) (ask (.searchWithdrawals criteria offset size))
  | "withdraw.history" => do
    let filter ← given (Withdrawal.Filter.ofDocument? d)
    let page ← given (Page.ofDocument? d)
    answer (.ofList Withdrawal.toDocument) (ask (.listWithdrawals filter page))
  | _ => throw .unknown

end WalletLedger.Console
