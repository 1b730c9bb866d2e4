/-
**Log lines.** An event is written as a line with a level, a target that names the part of the
program it comes from, a sentence, and the data of the event as named fields. A line is shown as
text or as a document.
-/
import WalletLedger.Document
import WalletLedger.Event
import WalletLedger.Log.Filter

set_option autoImplicit false

namespace WalletLedger

/-- Where the rows of a ledger are held. -/
inductive Backing where
  | memory
  | database
deriving DecidableEq

structure LogLine where
  level : LogLevel
  target : String
  message : String
  /-- Numbers and texts. -/
  fields : List (String × Document)

namespace LogLine

/-- A field as it stands in a text. -/
def fieldText : String × Document → String
  | (name, .int n) => name ++ "=" ++ toString n
  | (name, .text s) => name ++ "=" ++ s
  | (name, _) => name ++ "="

def text (l : LogLine) : String :=
  " ".intercalate (l.level.name :: l.message :: l.fields.map fieldText)

/-- The line as a document, its sentence among the fields. -/
def toDocument (l : LogLine) : Document :=
  .object [
    ("level", .text l.level.name),
    ("fields", .object (("message", .text l.message) :: l.fields)),
    ("target", .text l.target)]

end LogLine

namespace Event

/-! ## The targets -/

def programTarget : String := "custody_ledger"

def databaseTarget : String := "custody_ledger::db"

def openingTarget : String := "custody_ledger::state"

def ownerTarget : String := "custody_ledger::wallet::owner"

def workerTarget : String := "custody_ledger::reservation::worker"

/-- Currencies are registered where they are held. -/
def currencyTarget : Backing → String
  | .memory => "custody_ledger::currency::registry"
  | .database => "custody_ledger::persistence::currencies"

/-! ## The lines -/

/-- A field that is a number. -/
def number (name : String) (n : Nat) : String × Document := (name, .int n)

/-- A field that is a text. -/
def word (name s : String) : String × Document := (name, .text s)

/-- **The line of an event.** -/
def line (b : Backing) : Event → LogLine
  | .starting environment =>
    ⟨.info, programTarget, "Starting custody ledger in " ++ environment ++ " mode", []⟩
  | .noDatabase =>
    ⟨.warn, programTarget, "No postgres_url configured; balances live in memory only", []⟩
  | .databaseConnected => ⟨.info, databaseTarget, "PostgreSQL connection pool established", []⟩
  | .schemaApplied => ⟨.info, databaseTarget, "Ledger schema applied", []⟩
  | .shutDown => ⟨.info, programTarget, "Shutdown signal received", []⟩
  | .currencyRegistered symbol =>
    ⟨.info, currencyTarget b, "Currency registered", [word "symbol" symbol]⟩
  | .ownerCreated id uuid level =>
    ⟨.info, ownerTarget, "Wallet owner created",
      [("owner_id", .int id), word "uuid" uuid, word "level" level]⟩
  | .servicesReady currencies policies systemUuid =>
    ⟨.info, openingTarget, "Ledger services ready",
      [number "currencies" currencies, number "withdraw_policies" policies,
        word "system_uuid" systemUuid]⟩
  | .sweeperStarted scanSecs =>
    ⟨.info, workerTarget, "Starting reservation expiry sweeper",
      [number "scan_interval_secs" scanSecs]⟩
  | .nothingLapsed => ⟨.debug, workerTarget, "No lapsed reservations", []⟩
  | .lapsedClosed count =>
    ⟨.info, workerTarget, "Expired lapsed reservations", [number "count" count]⟩
  | .sweepFailed cause =>
    ⟨.error, workerTarget, "Expiry sweep failed", [word "error" cause.message]⟩
  | .recoveryStarted scanSecs staleSecs =>
    ⟨.info, workerTarget, "Starting settlement recovery worker",
      [number "scan_interval_secs" scanSecs, number "stale_threshold_secs" staleSecs]⟩
  | .nothingStalled => ⟨.debug, workerTarget, "No stalled settlements found", []⟩
  | .stalledFound count =>
    ⟨.info, workerTarget, "Found stalled settlements to recover", [number "count" count]⟩
  | .settlementRecovered reserved status =>
    ⟨.info, workerTarget, "Settlement recovered",
      [word "reserve_number" reserved, word "status" status.name]⟩
  | .settlementStuck reserved cause =>
    ⟨.error, workerTarget, "Failed to recover settlement",
      [word "reserve_number" reserved, word "error" cause.message]⟩
  | .recoveryFailed cause =>
    ⟨.error, workerTarget, "Settlement recovery scan failed", [word "error" cause.message]⟩

end Event

end WalletLedger
