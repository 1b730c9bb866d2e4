/-
**A database, seen from its client.** The client sends statements and controls transactions; the
database answers each of them. What was exchanged is kept, so that what a client does can be judged
by what it sent and by how it was answered.

A transaction ends in one of two ways that its body chooses, and a body that is refused ends it too
(`inTransaction`). Nothing is sent after a transaction was not opened.
-/
import WalletLedger.Action
import WalletLedger.Database.Value
import WalletLedger.Store.Call

set_option autoImplicit false

namespace WalletLedger

/-! ## Statements and replies -/

/-- A text with numbered places, and the values that stand there. -/
structure Statement where
  text : String
  values : List Value
deriving DecidableEq

/-- Why a server refuses. -/
structure ServerError where
  code : String
  message : String
deriving DecidableEq

inductive Reply where
  /-- No rows; so many were changed. -/
  | affected (count : Nat)
  | rows (rows : List Row)
  | refused (error : ServerError)
deriving DecidableEq

/-- The steps of a transaction. -/
inductive Verb where
  | start
  | commit
  | rollback
deriving DecidableEq

def Verb.text : Verb → String
  | .start => "BEGIN"
  | .commit => "COMMIT"
  | .rollback => "ROLLBACK"

/-- What was sent, and how it was answered. -/
inductive Exchange where
  | statement (sent : Statement) (reply : Reply)
  | step (verb : Verb) (refusal : Option ServerError)
deriving DecidableEq

structure Database where
  /-- How the next statements will be answered. -/
  replies : List Reply
  /-- How the statements after those will be answered. -/
  otherwise : Reply
  /-- Whether the next steps of transactions will be refused. -/
  steps : List (Option ServerError)
  /-- Which steps will be refused after those. -/
  refusals : List (Verb × ServerError)
  ids : IdSource
  /-- What was exchanged, newest first. -/
  exchanges : List Exchange

namespace ServerError

/-- The code under which servers refuse a row whose key is taken. -/
def keyTaken : String := "23505"

def fault (e : ServerError) : DatabaseFault :=
  if e.code = keyTaken then .keyTaken e.message else .answered e.message

end ServerError

namespace Reply

/-- How many rows were changed or found. -/
def count : Reply → Nat
  | .affected n => n
  | .rows found => found.length
  | .refused _ => 0

def found : Reply → List Row
  | .rows found => found
  | _ => []

end Reply

namespace Statement

/-- Words with a blank between any two. -/
def words (ws : List String) : String := " ".intercalate ws

/-- Names with a comma between any two. -/
def names (ns : List String) : String := ", ".intercalate ns

/-- The first `n` numbered places. -/
def places (n : Nat) : String := names ((List.range n).map fun i => "$" ++ toString (i + 1))

/-- The names of a row's columns; those of a wide row stand on lines of their own. -/
def columnList (columns : List String) : String :=
  if columns.length ≤ 8 then "(" ++ names columns ++ ")" else "(\n    " ++ names columns ++ "\n)"

/-- **A new row,** and what else is said of it. -/
def insert (table : String) (row : Row) (rest : List String) : Statement where
  text := words (["INSERT INTO", table, columnList (row.map (·.1)), "VALUES",
    "(" ++ places row.length ++ ")"] ++ rest)
  values := row.map (·.2)

end Statement

namespace Database

open WalletLedger.Action

/-- A database that will give some replies, and then always the same. -/
def ofReplies (replies : List Reply) (otherwise : Reply) (ids : IdSource) : Database :=
  { replies, otherwise, steps := [], refusals := [], ids, exchanges := [] }

/-! ## Statements -/

/-- **Sends a statement.** -/
def send (s : Statement) : Action Database Reply :=
  ofFun fun d =>
    let reply := d.replies.headD d.otherwise
    (.ok reply, { d with
      replies := d.replies.tail, exchanges := .statement s reply :: d.exchanges })

/-- A reply that is no refusal. -/
def accepted : Reply → Action Database Reply
  | .refused e => refuse (.database e.fault)
  | reply => pure reply

/-- Sends a statement that changes rows; answers with their number. -/
def execute (s : Statement) : Action Database Nat := return (← accepted (← send s)).count

/-- Sends a statement that finds rows. -/
def fetch (s : Statement) : Action Database (List Row) := return (← accepted (← send s)).found

def fetchFirst? (s : Statement) : Action Database (Option Row) := return (← fetch s).head?

/-- Sends a statement that always finds a row. -/
def fetchFirst (s : Statement) : Action Database Row := do
  orRefuse (.database .noRow) (← fetchFirst? s)

/-- All rows, each of them read; the first that cannot be read decides. -/
def fetchAll {α : Type} (read : Row → Except Error α) (s : Statement) :
    Action Database (List α) := do
  ofExcept ((← fetch s).mapM read)

/-- The first row, if there is one, read. -/
def fetch? {α : Type} (read : Row → Except Error α) (s : Statement) :
    Action Database (Option α) := do
  ofExcept ((← fetchFirst? s).mapM read)

/-- The first row of a statement that always finds one, read. -/
def fetchOne {α : Type} (read : Row → Except Error α) (s : Statement) : Action Database α := do
  ofExcept (read (← fetchFirst s))

/-- **A key that is taken** is refused for a cause of its own. -/
def whenTaken {α : Type} (cause : Error) (a : Action Database α) : Action Database α := do
  match ← a.attempt with
  | .ok v => return v
  | .error (.database (.keyTaken _)) => refuse cause
  | .error other => refuse other

/-- A statement that must change a row. -/
def mustChange (cause : Error) (s : Statement) : Action Database Unit := do
  require cause (0 < (← execute s))

/-! ## Transactions -/

/-- Takes a step of a transaction. -/
def step (v : Verb) : Action Database Unit :=
  ofFun fun d =>
    let refusal := d.steps.headD (d.refusals.lookup v)
    let d' := { d with steps := d.steps.tail, exchanges := .step v refusal :: d.exchanges }
    match refusal with
    | none => (.ok (), d')
    | some e => (.error (.refused (.database e.fault)), d')

/-- How a transaction is to end. -/
inductive Ending (α : Type) where
  /-- What it wrote is kept. -/
  | keep (answer : α)
  /-- What it wrote is undone. -/
  | undo (answer : α)

/-- **A transaction.** It is undone if its body is refused, if its body says so, or if what it wrote
cannot be kept. A refusal is told even where the undoing is refused as well. -/
def inTransaction {α : Type} (body : Action Database (Ending α)) : Action Database α := do
  step .start
  match ← body.attempt with
  | .error cause =>
    aside (step .rollback)
    refuse cause
  | .ok (.undo answer) =>
    step .rollback
    return answer
  | .ok (.keep answer) =>
    match ← (step .commit).attempt with
    | .ok () => return answer
    | .error cause =>
      aside (step .rollback)
      refuse cause

/-- The identifiers for new rows. Whoever uses one sends it, so that what was sent numbers them. -/
def fresh (d : Database) : FreshIds :=
  let n := d.exchanges.length + 1
  { transfer := d.ids.transfer n, reservation := d.ids.reservation n, attempt := d.ids.attempt n }

/-- Whether the database answers. -/
def checkHealth : Action Database Unit := do
  let _ ← execute ⟨"SELECT 1", []⟩

end Database

end WalletLedger
