/-
**The console** lets a ledger be worked from outside: a command names an operation and gives its
arguments in a document, and the answer is a document. This module holds the conversation; the
commands stand in modules of their own.
-/
import WalletLedger.Ledger.Basic

set_option autoImplicit false

namespace WalletLedger.Console

/-- Why a command has no answer. -/
inductive Failure where
  /-- There is no such command. -/
  | unknown
  /-- An argument is missing or is not of its type. -/
  | undecodable
  /-- The ledger stopped. -/
  | stopped (stop : Stop)

/-- **A conversation** with a ledger. -/
abbrev Dialog (σ : Type) := ExceptT Failure (StateM (Ledger σ))

variable {σ α : Type}

/-- Lets the ledger act. -/
def perform (a : Action (Ledger σ) α) : Dialog σ α :=
  ExceptT.mk fun l =>
    match a.runIn l with
    | (.ok v, l') => (.ok v, l')
    | (.error stop, l') => (.error (.stopped stop), l')

/-- An argument. -/
def given : Option α → Dialog σ α
  | some a => pure a
  | none => throw .undecodable

/-! ## Arguments -/

def text (d : Document) (name : String) : Dialog σ String := given (d.need name Document.text?)

def text? (d : Document) (name : String) : Dialog σ (Option String) :=
  given (d.maybe name Document.text?)

def int (d : Document) (name : String) : Dialog σ Int := given (d.need name (Document.signed? 64))

def decimal (d : Document) (name : String) : Dialog σ Decimal :=
  given (d.need name Document.decimal?)

/-- A switch that is off unless it is given. -/
def switch (d : Document) (name : String) : Dialog σ Bool :=
  given (d.orElse name Document.bool? false)

def natOr (d : Document) (name : String) (default : Nat) : Dialog σ Nat :=
  given (d.orElse name (Document.nat? 64) default)

/-- The kind of a wallet, which is the main one unless it is given. -/
def kind (d : Document) (name : String) : Dialog σ WalletKind :=
  return (← given (d.maybe name WalletKind.ofDocument?)).getD .main

/-! ## Answers -/

/-- The answer of a command that has nothing to say. -/
def done (a : Action (Ledger σ) Unit) : Dialog σ Document := do
  perform a
  return .null

/-- An answer written from a value. -/
def answer (write : α → Document) (a : Action (Ledger σ) α) : Dialog σ Document :=
  return write (← perform a)

end WalletLedger.Console
