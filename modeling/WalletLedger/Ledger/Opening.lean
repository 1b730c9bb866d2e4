/-
**Opening a ledger** from its settings: the currencies of the settings are registered unless they
are there, the system's account is created unless it is there, and the terms are fixed.
-/
import WalletLedger.Ledger.Conversion
import WalletLedger.Ledger.Owners

set_option autoImplicit false

namespace WalletLedger

/-- **How long reservations live,** in seconds. A span that does not fit 64 bits is cut to the
longest that can be counted in milliseconds; one that fits but cannot be counted has no value. -/
def ReservationSettings.ttl? (s : ReservationSettings) : Option Nat :=
  if s.ttlSecs ≤ Instant.longestSpan then some s.ttlSecs
  else if s.ttlSecs < pow2 63 then none
  else some Instant.longestSpan

namespace Terms

/-- A write is tried at least once. -/
def ofSettings (s : Settings) (ttlSecs : Nat) (counting : Bool) : Terms where
  systemUuid := s.ledger.systemUuid
  maxAttempts := max s.ledger.maxAttempts 1
  maxHops := s.routing.maxHops
  policy := s.routing.policy
  ttlSecs
  counting

end Terms

namespace Ledger

open WalletLedger.Action

variable {σ : Type} [Stores σ]

/-- Registers the currencies that are missing. -/
def registerMissing : List Currency → Action (Ledger σ) Unit
  | [] => return
  | c :: rest => do
    if (← ask (.findCurrency c.symbol)).isNone then
      ask (.addCurrency c)
      report (.currencyRegistered c.symbol)
    registerMissing rest

/-- What is kept beside the stores starts anew. -/
def resetServices (policies : WithdrawalPolicies) : Action (Ledger σ) Unit :=
  adjust fun l => { l with graph := none, policies, counters := [] }

/-- **Opens a ledger.** -/
def openWith (s : Settings) (counting : Bool) : Action (Ledger σ) Terms := do
  registerMissing s.currencies
  let _ ← bootstrapSystemOwner s.ledger.systemUuid
  let ttlSecs ← orAbort s.reservation.ttl?
  resetServices (.ofEntries s.policies)
  report (.servicesReady s.currencies.length s.policies.length s.ledger.systemUuid)
  return .ofSettings s ttlSecs counting

end Ledger

end WalletLedger
