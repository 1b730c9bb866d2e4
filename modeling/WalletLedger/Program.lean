/-
**The program,** from its start until it waits for the signal to stop: it finds its settings, opens
its log, opens the ledger over a database or in memory, and sets the two workers to their first
pass. `Program.run` says what comes of a start at a given `Site`; what it says is done by the outer
layer.
-/
import WalletLedger.Database.Schema
import WalletLedger.Database.Stores
import WalletLedger.Ledger.Opening
import WalletLedger.Ledger.Upkeep
import WalletLedger.Log.File
import WalletLedger.Log.Line
import WalletLedger.Settings.File
import WalletLedger.Store.Memory

set_option autoImplicit false

namespace WalletLedger

/-- Why the program stops at its start. -/
inductive StartFailure where
  | settingsMissing (path : String)
  | settingsMalformed (path : String)
  | unreachable
  | schemaRefused
  | refused (cause : Error)
deriving DecidableEq

def StartFailure.message : StartFailure → String
  | .settingsMissing path => "Failed to read config file: " ++ path
  | .settingsMalformed path => "Failed to parse config yaml: " ++ path
  | .unreachable => "Failed to connect to PostgreSQL"
  | .schemaRefused => "Failed to apply schema"
  | .refused cause => cause.message

/-- How far the program came. -/
inductive Progress where
  /-- It waits for the signal to stop. -/
  | serving
  | failed (why : StartFailure)
  /-- It was aborted. -/
  | crashed
deriving DecidableEq

/-- The number that the program leaves to its caller once it has stopped. -/
def Progress.exitCode : Progress → Nat
  | .serving => 0
  | .failed _ => 1
  | .crashed => 101

/-- What the program meets where it is started. -/
structure Site where
  arguments : List String
  /-- The settings file at a path. -/
  settingsAt : String → SettingsFile
  /-- A filter of log lines that goes before the settings. -/
  filter : Option String
  /-- Whether the file at a path can be written. -/
  opens : String → Bool
  /-- The database at an address, if one answers. -/
  database : String → Option Database
  ids : IdSource
  clock : Instant

/-- What the program writes to its log. -/
structure LogOutput where
  path : String
  /-- Whether lines are written as documents; if not, they are shown on the screen as well. -/
  asDocuments : Bool
  lines : List LogLine

/-- What came of a start. -/
structure Run where
  progress : Progress
  /-- Nothing if the log could not be opened. -/
  log : Option LogOutput
  /-- What was exchanged with the database, oldest first. -/
  exchanges : List Exchange

namespace Program

open WalletLedger.Action

/-! ## Settings -/

/-- **The environment:** what follows the first option for it, or `dev`. -/
def environment : List String → String
  | option :: name :: rest =>
    if option = "--env" || option = "-e" then name else environment (name :: rest)
  | _ => "dev"

def settingsPath (environment : String) : String := "config/" ++ environment ++ ".yaml"

def loadSettings (path : String) (file : SettingsFile) : Except StartFailure Settings :=
  match file, Settings.ofFile? file with
  | .missing, _ => .error (.settingsMissing path)
  | _, some settings => .ok settings
  | _, none => .error (.settingsMalformed path)

/-! ## Service -/

/-- **Opens a ledger and lets the workers make a pass.** A worker that is aborted takes nothing
else with it. -/
def serve {σ : Type} [Stores σ] (s : Settings) : Action (Ledger σ) Unit := do
  let terms ← Ledger.openWith s false
  let worker := s.reservation.worker
  (Ledger.runSweeper worker).aside
  (Ledger.runRecovery terms worker).aside

/-- How far a service came. -/
def progressOf : Except Stop Unit → Progress
  | .ok () => .serving
  | .error (.refused cause) => .failed (.refused cause)
  | .error .aborted => .crashed

/-- The progress and the events of a service, oldest first. -/
structure Service where
  progress : Progress
  backing : Backing
  events : List Event
  exchanges : List Exchange

/-- A service in memory. -/
def serveMemory (site : Site) (s : Settings) : Service :=
  let (result, ledger) := (serve s).runIn (.start (Memory.empty site.ids) site.clock)
  { progress := progressOf result, backing := .memory
    events := .noDatabase :: ledger.events.reverse, exchanges := [] }

/-- A service over a database, to which the schema is applied first. -/
def serveDatabase (site : Site) (s : Settings) (database : Database) : Service :=
  let (applied, database) := Database.applySchema.runIn database
  match applied with
  | .error _ =>
    { progress := .failed .schemaRefused, backing := .database, events := [.databaseConnected]
      exchanges := database.exchanges.reverse }
  | .ok () =>
    let (result, ledger) := (serve s).runIn (.start database site.clock)
    { progress := progressOf result, backing := .database
      events := .databaseConnected :: .schemaApplied :: ledger.events.reverse
      exchanges := ledger.stores.exchanges.reverse }

/-- **The service that the settings ask for.** -/
def serveSettings (site : Site) (s : Settings) : Service :=
  match s.databaseUrl with
  | none => serveMemory site s
  | some url =>
    match site.database url with
    | some database => serveDatabase site s database
    | none =>
      { progress := .failed .unreachable, backing := .database, events := [], exchanges := [] }

/-! ## The whole -/

/-- The events of a run: the service's between the start and, if it came that far, the end. -/
def eventsOf (environment : String) (v : Service) : List Event :=
  .starting environment :: v.events ++ if v.progress = .serving then [.shutDown] else []

/-- The lines that a filter lets through. -/
def linesOf (f : LogFilter) (b : Backing) (events : List Event) : List LogLine :=
  (events.map (·.line b)).filter fun l => f.allows l.level l.target

/-- A run with settings. -/
def runWith (site : Site) (environment : String) (s : Settings) : Run :=
  let path := s.logPath (.ofInstant site.clock)
  if site.opens path then
    let v := serveSettings site s
    let f := LogFilter.choose site.filter s.logLevel
    { progress := v.progress
      log := some {
        path, asDocuments := s.useJson, lines := linesOf f v.backing (eventsOf environment v) }
      exchanges := v.exchanges }
  else { progress := .crashed, log := none, exchanges := [] }

/-- **A run of the program.** Settings that cannot be loaded end it before there is a log, and a log
that cannot be opened aborts it. -/
def run (site : Site) : Run :=
  let environment := environment site.arguments
  let path := settingsPath environment
  match loadSettings path (site.settingsAt path) with
  | .ok settings => runWith site environment settings
  | .error why => { progress := .failed why, log := none, exchanges := [] }

end Program

end WalletLedger
