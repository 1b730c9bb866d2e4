/-
**Upkeep.** Two workers look after the reservations, one pass at a time: the sweeper closes those
that have lapsed, and the recovery resumes settlements that have been under way for too long.
-/
import WalletLedger.Ledger.Reservations

set_option autoImplicit false

namespace WalletLedger.Ledger

open WalletLedger.Action

variable {σ : Type} [Stores σ]

/-- **One pass of the sweeper;** answers with how many reservations it closed. -/
def sweep (w : WorkerSettings) : Action (Ledger σ) Nat := do
  let closed ← expireLapsed (← now) w.batchSize
  report (if 0 < closed then .lapsedClosed closed else .nothingLapsed)
  return closed

/-- How old a settlement must be before it is taken up. A span that cannot be counted stands for a
minute. -/
def staleSecs (w : WorkerSettings) : Nat :=
  if w.staleThresholdSecs ≤ Instant.longestSpan then w.staleThresholdSecs else 60

/-- Resumes one settlement; answers whether it was finished or undone. -/
def recoverOne (t : Terms) (r : Reservation) : Action (Ledger σ) Bool := do
  match ← (resume t r).attempt with
  | .ok status =>
    report (.settlementRecovered r.number status)
    return true
  | .error cause =>
    report (.settlementStuck r.number cause)
    return false

/-- Resumes settlements in turn; answers with how many were finished or undone. -/
def recoverAll (t : Terms) : List Reservation → Action (Ledger σ) Nat
  | [] => return 0
  | r :: rest => do
    let recovered ← recoverOne t r
    let others ← recoverAll t rest
    return (if recovered then 1 else 0) + others

/-- **One pass of the recovery;** answers with how many settlements it finished or undid. -/
def recover (t : Terms) (w : WorkerSettings) : Action (Ledger σ) Nat := do
  let threshold ← orAbort ((← now).plusSeconds? (-(staleSecs w : Int)))
  let stalled ← ask (.findStalled threshold w.batchSize)
  if stalled.isEmpty then
    report .nothingStalled
    return 0
  report (.stalledFound stalled.length)
  recoverAll t stalled

/-- The sweeper from its start to the end of its first pass, whose failure it only reports. -/
def runSweeper (w : WorkerSettings) : Action (Ledger σ) Unit := do
  report (.sweeperStarted w.scanIntervalSecs)
  match ← (sweep w).attempt with
  | .ok _ => return
  | .error cause => report (.sweepFailed cause)

/-- The recovery from its start to the end of its first pass, whose failure it only reports. -/
def runRecovery (t : Terms) (w : WorkerSettings) : Action (Ledger σ) Unit := do
  report (.recoveryStarted w.scanIntervalSecs w.staleThresholdSecs)
  match ← (recover t w).attempt with
  | .ok _ => return
  | .error cause => report (.recoveryFailed cause)

end WalletLedger.Ledger
