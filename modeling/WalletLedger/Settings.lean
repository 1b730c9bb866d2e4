/-
**Settings** of a running ledger, each with its default. A section that has defaults of its own
may be given in part; the other sections are given whole or not at all.
-/
import WalletLedger.Currency
import WalletLedger.Routing.Graph
import WalletLedger.Withdrawal.Command

set_option autoImplicit false

namespace WalletLedger

/-- Who the system is, and how often a write is tried. -/
structure LedgerSettings where
  systemUuid : String
  maxAttempts : Nat
deriving DecidableEq

/-- How conversions are routed. -/
structure RoutingSettings where
  maxHops : Nat
  policy : RoutePolicy
deriving DecidableEq

/-- How long reservations live, and how they are looked after. -/
structure ReservationSettings where
  ttlSecs : Nat
  sweepIntervalSecs : Nat
  sweepBatchSize : Nat
  /-- How old a settlement must be before recovery takes it up. -/
  settlementGraceSecs : Nat
deriving DecidableEq

structure Settings where
  logLevel : String
  logDir : String
  logFile : String
  useJson : Bool
  rotation : String
  databaseUrl : Option String
  ledger : LedgerSettings
  routing : RoutingSettings
  reservation : ReservationSettings
  /-- Registered at the start if they are missing. -/
  currencies : List Currency
  policies : List WithdrawalPolicyEntry
deriving DecidableEq

/-- What the two workers go by. -/
structure WorkerSettings where
  scanIntervalSecs : Nat
  staleThresholdSecs : Nat
  batchSize : Nat
deriving DecidableEq

namespace LedgerSettings

def standard : LedgerSettings := ⟨"1", 16⟩

def fields : List String := ["system_uuid", "max_cas_retries"]

def toDocument (s : LedgerSettings) : Document :=
  .object [("system_uuid", .text s.systemUuid), ("max_cas_retries", .int s.maxAttempts)]

def ofDocument? (d : Document) : Option LedgerSettings := do
  let d := d.record 2 fields
  return {
    systemUuid := ← d.need "system_uuid" Document.text?
    maxAttempts := ← d.need "max_cas_retries" (Document.nat? 32) }

end LedgerSettings

namespace RoutingSettings

def standard : RoutingSettings := ⟨Graph.defaultMaxHops, .shortestHops⟩

def fields : List String := ["max_hops", "route_policy"]

def toDocument (s : RoutingSettings) : Document :=
  .object [("max_hops", .int s.maxHops), ("route_policy", s.policy.toDocument)]

def ofDocument? (d : Document) : Option RoutingSettings := do
  let d := d.record 2 fields
  return {
    maxHops := ← d.need "max_hops" (Document.nat? 64)
    policy := ← d.need "route_policy" RoutePolicy.ofDocument? }

end RoutingSettings

namespace ReservationSettings

def standard : ReservationSettings := ⟨300, 30, 100, 60⟩

def fields : List String :=
  ["ttl_secs", "sweep_interval_secs", "sweep_batch_size", "settlement_grace_secs"]

def toDocument (s : ReservationSettings) : Document :=
  .object [
    ("ttl_secs", .int s.ttlSecs), ("sweep_interval_secs", .int s.sweepIntervalSecs),
    ("sweep_batch_size", .int s.sweepBatchSize),
    ("settlement_grace_secs", .int s.settlementGraceSecs)]

def ofDocument? (d : Document) : Option ReservationSettings := do
  let d := d.record 0 fields
  return {
    ttlSecs := ← d.orElse "ttl_secs" (Document.nat? 64) standard.ttlSecs
    sweepIntervalSecs := ←
      d.orElse "sweep_interval_secs" (Document.nat? 64) standard.sweepIntervalSecs
    sweepBatchSize := ← d.orElse "sweep_batch_size" (Document.nat? 64) standard.sweepBatchSize
    settlementGraceSecs := ←
      d.orElse "settlement_grace_secs" (Document.nat? 64) standard.settlementGraceSecs }

/-- The workers scan at least every second and take at least one row. -/
def worker (s : ReservationSettings) : WorkerSettings where
  scanIntervalSecs := max s.sweepIntervalSecs 1
  staleThresholdSecs := s.settlementGraceSecs
  batchSize := max s.sweepBatchSize 1

end ReservationSettings

namespace WorkerSettings

def standard : WorkerSettings := ⟨30, 60, 100⟩

end WorkerSettings

namespace Settings

def standard : Settings where
  logLevel := "info"
  logDir := "./logs"
  logFile := "custody-ledger.log"
  useJson := false
  rotation := "daily"
  databaseUrl := none
  ledger := .standard
  routing := .standard
  reservation := .standard
  currencies := []
  policies := []

def fields : List String :=
  ["log_level", "log_dir", "log_file", "use_json", "rotation", "postgres_url", "ledger",
    "conversion", "reservation", "currencies", "withdraw_policies"]

def toDocument (s : Settings) : Document :=
  .object [
    ("log_level", .text s.logLevel),
    ("log_dir", .text s.logDir),
    ("log_file", .text s.logFile),
    ("use_json", .bool s.useJson),
    ("rotation", .text s.rotation),
    ("postgres_url", .ofOption .text s.databaseUrl),
    ("ledger", s.ledger.toDocument),
    ("conversion", s.routing.toDocument),
    ("reservation", s.reservation.toDocument),
    ("currencies", .list (s.currencies.map Currency.toDocument)),
    ("withdraw_policies", .list (s.policies.map WithdrawalPolicyEntry.toDocument))]

def ofDocument? (d : Document) : Option Settings := do
  let d := d.record 0 fields
  return {
    logLevel := ← d.orElse "log_level" Document.text? standard.logLevel
    logDir := ← d.orElse "log_dir" Document.text? standard.logDir
    logFile := ← d.orElse "log_file" Document.text? standard.logFile
    useJson := ← d.orElse "use_json" Document.bool? standard.useJson
    rotation := ← d.orElse "rotation" Document.text? standard.rotation
    databaseUrl := ← d.maybe "postgres_url" Document.text?
    ledger := ← d.orElse "ledger" LedgerSettings.ofDocument? standard.ledger
    routing := ← d.orElse "conversion" RoutingSettings.ofDocument? standard.routing
    reservation := ←
      d.orElse "reservation" ReservationSettings.ofDocument? standard.reservation
    currencies := ← d.orElse "currencies" (Document.list? Currency.ofDocument?) []
    policies := ←
      d.orElse "withdraw_policies" (Document.list? WithdrawalPolicyEntry.ofDocument?) [] }

end Settings

end WalletLedger
