/-
**Console commands about reservations** and about the workers that look after them.
-/
import WalletLedger.Console.Basic
import WalletLedger.Ledger.Upkeep

set_option autoImplicit false

namespace WalletLedger.Console

open Ledger

variable {σ : Type} [Stores σ]

/-- What a worker goes by for one pass. -/
def workerSettings (d : Document) : Dialog σ WorkerSettings := do
  let standard := WorkerSettings.standard
  return { standard with
    staleThresholdSecs := ← natOr d "stale_secs" standard.staleThresholdSecs
    batchSize := ← natOr d "batch" standard.batchSize }

def workerCommand (t : Terms) (d : Document) : String → Dialog σ Document
  | "reservation.sweep" => do answer (fun n => .int n) (sweep (← workerSettings d))
  | "reservation.recover" => do answer (fun n => .int n) (recover t (← workerSettings d))
  | "reservation.sweep_loop" => do done (runSweeper (← workerSettings d))
  | "reservation.recover_loop" => do done (runRecovery t (← workerSettings d))
  | _ => throw .unknown

def reservationCommand (t : Terms) (d : Document) : String → Dialog σ Document
  | "reservation.reserve" => do
    let request ← given (d.need "request" ReserveRequest.ofDocument?)
    answer Reservation.toDocument (reserve t request)
  | "reservation.advance" => do
    let number ← text d "reserve_number"
    let description ← text? d "description"
    let ref ← text? d "transfer_ref"
    let issuer ← text? d "issuer"
    answer Receipt.toDocument (advanceReservation t number description ref issuer)
  | "reservation.cancel" => do
    let number ← text d "reserve_number"
    let issuer ← text? d "issuer"
    answer Reservation.toDocument (cancelReservation number issuer)
  | "reservation.find" => do
    let number ← text d "reserve_number"
    answer (.ofOption Reservation.toDocument) (ask (.findReservation number))
  | "reservation.expire" => do
    let now ← int d "now"
    let limit ← natOr d "limit" 100
    answer (fun n => .int n) (expireLapsed now limit)
  | command => workerCommand t d command

end WalletLedger.Console
