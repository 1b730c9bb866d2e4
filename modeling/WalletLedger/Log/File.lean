/-
**Log files.** A log is continued in a new file each day, hour or minute, or never; the name of the
file tells when it was begun.
-/
import WalletLedger.Calendar
import WalletLedger.Settings

set_option autoImplicit false

namespace WalletLedger

/-- How often a log is continued in a new file. -/
inductive Rotation where
  | minutely
  | hourly
  | daily
  | never
deriving DecidableEq

namespace Rotation

/-- The rotation of a name; names that mean nothing else mean `never`. -/
def ofName : String → Rotation
  | "minutely" => .minutely
  | "hourly" => .hourly
  | "daily" => .daily
  | _ => .never

/-- What tells the files of a log apart. -/
def stamp (r : Rotation) (t : CalendarTime) : String :=
  match r with
  | .minutely => t.dateText ++ "-" ++ CalendarTime.twoDigits t.hour ++ "-" ++
    CalendarTime.twoDigits t.minute
  | .hourly => t.dateText ++ "-" ++ CalendarTime.twoDigits t.hour
  | .daily | .never => t.dateText

end Rotation

/-- **The name of a log file:** the log's name and the stamp. A log that is never continued has no
stamp, and one without a name has nothing else. -/
def logFileName (name : String) (r : Rotation) (t : CalendarTime) : String :=
  if name = "" then r.stamp t
  else if r = .never then name
  else name ++ "." ++ r.stamp t

/-- The path of a file in a directory; a path from the root stands for itself. -/
def pathIn (dir file : String) : String :=
  if dir = "" || file.toList.head? = some '/' then file
  else if dir.toList.getLast? = some '/' then dir ++ file
  else dir ++ "/" ++ file

/-- The path of the log file that the settings ask for. -/
def Settings.logPath (s : Settings) (t : CalendarTime) : String :=
  pathIn s.logDir (logFileName s.logFile (.ofName s.rotation) t)

end WalletLedger
