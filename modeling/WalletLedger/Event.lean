/-
**What a running ledger reports.** Events are values; how one is written in a log is no business of
the code that reports it.
-/
import WalletLedger.Error
import WalletLedger.Instant
import WalletLedger.Reservation

set_option autoImplicit false

namespace WalletLedger

inductive Event where
  -- The program
  | starting (environment : String)
  | noDatabase
  | databaseConnected
  | schemaApplied
  | shutDown
  -- Opening a ledger
  | currencyRegistered (symbol : String)
  | ownerCreated (id : Int) (uuid level : String)
  | servicesReady (currencies policies : Nat) (systemUuid : String)
  -- The sweeper
  | sweeperStarted (scanSecs : Nat)
  | nothingLapsed
  | lapsedClosed (count : Nat)
  | sweepFailed (cause : Error)
  -- The recovery
  | recoveryStarted (scanSecs staleSecs : Nat)
  | nothingStalled
  | stalledFound (count : Nat)
  | settlementRecovered (number : String) (status : ReservationStatus)
  | settlementStuck (number : String) (cause : Error)
  | recoveryFailed (cause : Error)
deriving DecidableEq

end WalletLedger
