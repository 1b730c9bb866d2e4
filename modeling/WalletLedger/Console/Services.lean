/-
**The console commands of a ledger,** found by the first word of their name.
-/
import WalletLedger.Console.Conversion
import WalletLedger.Console.Reservations
import WalletLedger.Console.Transfers
import WalletLedger.Console.Wallets
import WalletLedger.Console.Withdrawals

set_option autoImplicit false

namespace WalletLedger.Console

variable {σ : Type} [Stores σ]

/-- **One operation of the ledger's services.** -/
def serviceCommand (t : Terms) (command : String) (d : Document) : Dialog σ Document :=
  match (command.splitOn ".").head? with
  | some "owner" => ownerCommand t d command
  | some "wallet" => walletCommand t d command
  | some "currency" => currencyCommand d command
  | some "graph" => graphCommand t d command
  | some "reservation" => reservationCommand t d command
  | some "policy" => policyCommand d command
  | some "withdraw" => withdrawalCommand t d command
  | _ => transferCommand t d command

end WalletLedger.Console
