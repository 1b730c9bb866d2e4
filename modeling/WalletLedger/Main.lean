/-
**The command line.** This layer reads the settings file, the clock and the variable that filters
log lines, writes what a run of the program says, and waits for the end of the input as the signal
to stop. It has no way to reach a database, so that no address answers.
-/
import Std.Time.DateTime.Timestamp
import WalletLedger.Document.Json
import WalletLedger.Program

set_option autoImplicit false

namespace WalletLedger.Main

def readClock : IO Instant := do
  return (← Std.Time.Timestamp.now).toMillisecondsSinceUnixEpoch.val

def readSettings (path : String) : IO SettingsFile := do
  try
    return .ofText (← IO.FS.readFile path)
  catch _ =>
    return .missing

/-- The directory of a path. -/
def directoryOf (path : String) : String := "/".intercalate (path.splitOn "/").dropLast

/-- Opens a file to add to it, and makes its directory if there is none. -/
def openLog (path : String) : IO (Option IO.FS.Handle) := do
  try
    let dir := directoryOf path
    unless dir.isEmpty do IO.FS.createDirAll dir
    return some (← IO.FS.Handle.mk path .append)
  catch _ =>
    return none

/-- A line as it stands in the log. -/
def lineText (o : LogOutput) (clock : Instant) (l : LogLine) : String :=
  let time := (CalendarTime.ofInstant clock).fullText
  if o.asDocuments then (l.toDocument.insert "timestamp" (.text time)).toJson
  else time ++ (if l.level.name.length < 5 then "  " else " ") ++ l.text

/-- Writes lines to the log and, unless they are documents, to the screen. -/
def writeLines (log : IO.FS.Handle) (o : LogOutput) (clock : Instant) (lines : List LogLine) :
    IO Unit := do
  for l in lines do
    let text := lineText o clock l
    log.putStrLn text
    unless o.asDocuments do IO.println text
  log.flush

/-- Waits until the input has ended. -/
partial def awaitEnd (input : IO.FS.Stream) : IO Unit := do
  unless (← input.getLine).isEmpty do awaitEnd input

/-- The lines of the end, which are written after the wait. -/
def isLast (l : LogLine) : Bool := l.message = (Event.shutDown.line .memory).message

end WalletLedger.Main

open WalletLedger WalletLedger.Main in
/-- Runs the program and answers with its exit code. -/
def main (arguments : List String) : IO UInt32 := do
  let clock ← readClock
  let file ← readSettings (Program.settingsPath (Program.environment arguments))
  let log ← match Settings.ofFile? file with
    | some s => openLog (s.logPath (.ofInstant clock))
    | none => pure none
  let filter ← IO.getEnv "RUST_LOG"
  let run := Program.run {
    arguments, filter, clock
    settingsAt := fun _ => file
    opens := fun _ => log.isSome
    database := fun _ => none
    ids := .ofSeed clock (← IO.rand 0 (pow2 32)) }
  match log, run.log with
  | some handle, some output =>
    let (last, first) := output.lines.partition isLast
    writeLines handle output clock first
    if run.progress = .serving then awaitEnd (← IO.getStdin)
    writeLines handle output (← readClock) last
  | _, _ => pure ()
  match run.progress with
  | .failed why => IO.eprintln ("Error: " ++ why.message)
  | _ => pure ()
  return run.progress.exitCode.toUInt32
