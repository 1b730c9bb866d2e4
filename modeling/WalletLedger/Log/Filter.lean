/-
**Which log lines are written.** A filter is a list of directives. A directive admits lines up to a
level whose target starts with a given text; of the directives whose text is a target's start the
longest decides (`Filter.allows`), and of two with the same text the later.
-/
import WalletLedger.Text.Blank

set_option autoImplicit false

namespace WalletLedger

/-- How grave a line is, the gravest first. -/
inductive LogLevel where
  | error
  | warn
  | info
  | debug
  | trace
deriving DecidableEq

namespace LogLevel

def all : List LogLevel := [.error, .warn, .info, .debug, .trace]

def name : LogLevel → String
  | .error => "ERROR"
  | .warn => "WARN"
  | .info => "INFO"
  | .debug => "DEBUG"
  | .trace => "TRACE"

/-- Levels are numbered from one. -/
def rank : LogLevel → Nat
  | .error => 1
  | .warn => 2
  | .info => 3
  | .debug => 4
  | .trace => 5

end LogLevel

/-- What a filter says of the targets that start with a text. -/
structure LogDirective where
  target : String
  /-- Lines up to this rank are admitted; rank zero admits none. -/
  rank : Nat
  /-- Whether it is about lines inside spans, of which there are none. -/
  isScoped : Bool
deriving DecidableEq

structure LogFilter where
  directives : List LogDirective
deriving DecidableEq

namespace LogDirective

/-- The rank of a level that is given by name, in any case, or by number; `off` has rank zero. -/
def rankOf? (s : String) : Option Nat :=
  let upper := String.ofList (s.toList.map Char.toUpper)
  if upper = "OFF" then some 0
  else
    match LogLevel.all.find? (·.name = upper) with
    | some level => some level.rank
    | none => s.toNat?.bind fun n => if n ≤ 5 then some n else none

/-- Whether a directive may start with a character. -/
def isFirstChar (c : Char) : Bool :=
  ['-', ':', '_', '['].contains c || c.isAlphanum || 127 < c.toNat

/-- **Reading a directive:** a level for all targets, a target for all levels, or both, joined by an
equals sign. After a target nothing at all stands for all levels. -/
def ofText? (text : String) : Option LogDirective :=
  let cs := Text.trim text.toList
  let target := cs.takeWhile fun c => c ≠ '=' && c ≠ '['
  let rest := cs.drop target.length
  let name := String.ofList target
  if !cs.head?.any isFirstChar then none
  else
    match rest with
    | [] => some (match rankOf? name with
      | some rank => ⟨"", rank, false⟩
      | none => ⟨name, LogLevel.trace.rank, false⟩)
    | '=' :: level =>
      if level = [] then some ⟨name, LogLevel.trace.rank, false⟩
      else (rankOf? (String.ofList level)).map fun rank => ⟨name, rank, false⟩
    | _ => if rest.contains ']' then some ⟨name, LogLevel.trace.rank, true⟩ else none

/-- Whether a directive is about a target. -/
def isAbout (d : LogDirective) (target : String) : Bool :=
  !d.isScoped && d.target.toList.isPrefixOf target.toList

end LogDirective

namespace LogFilter

/-- The texts between commas, the empty ones left out. -/
def parts (text : String) : List String := (text.splitOn ",").filter (· ≠ "")

/-- The directives of a text, or the one for errors if there are none. -/
def orErrors (ds : List LogDirective) : LogFilter :=
  ⟨if ds = [] then [⟨"", LogLevel.error.rank, false⟩] else ds⟩

/-- Reading a filter all of whose directives must be readable. -/
def ofText? (text : String) : Option LogFilter :=
  ((parts text).mapM LogDirective.ofText?).map orErrors

/-- The directives of a text that can be read; the others are left out. -/
def ofReadable (text : String) : LogFilter := ⟨(parts text).filterMap LogDirective.ofText?⟩

/-- **The filter of a run:** the override, if there is one that can be read, or else the level of
the settings. -/
def choose (override : Option String) (level : String) : LogFilter :=
  match override.bind ofText? with
  | some f => f
  | none => ofReadable level

/-- The directive that decides about a target. -/
def decisive? (f : LogFilter) (target : String) : Option LogDirective :=
  (f.directives.filter (·.isAbout target)).foldl
    (fun best d =>
      match best with
      | none => some d
      | some b => if b.target.length ≤ d.target.length then some d else some b)
    none

/-- **Whether a line of a level and a target is written.** -/
def allows (f : LogFilter) (level : LogLevel) (target : String) : Bool :=
  (f.decisive? target).any fun d => level.rank ≤ d.rank

end LogFilter

end WalletLedger
