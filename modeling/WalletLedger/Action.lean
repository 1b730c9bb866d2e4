/-
**Actions.** An action runs in a state and ends in one of three ways: with a value, refused for a
cause, or aborted because a number or a date left its range where no cause is foreseen. What it
wrote before it stopped stays written; a caller that must undo it undoes it.

`Action.zoom` runs an action in a part of a larger state and leaves the rest alone.
-/
import WalletLedger.Error

set_option autoImplicit false

namespace WalletLedger

/-- Why an action has no value. -/
inductive Stop where
  /-- Refused for a cause, which a caller may look at. -/
  | refused (cause : Error)
  /-- Aborted; no caller inside the ledger sees it. -/
  | aborted
deriving DecidableEq, Repr

/-- A computation in a state `σ` that may stop. -/
abbrev Action (σ : Type) := ExceptT Stop (StateM σ)

namespace Action

variable {σ τ α : Type}

/-- Runs an action: its result and the state it leaves. -/
def runIn (a : Action σ α) (s : σ) : Except Stop α × σ := a.run.run s

/-- An action from what it does to a state. -/
def ofFun (f : σ → Except Stop α × σ) : Action σ α := ExceptT.mk (fun s => f s)

/-- Stops for a cause. -/
def refuse (cause : Error) : Action σ α := throw (.refused cause)

/-- Stops without one. -/
def abort : Action σ α := throw .aborted

/-- A result that needs no state. -/
def ofExcept : Except Error α → Action σ α
  | .ok a => pure a
  | .error cause => refuse cause

/-- A value that must be there. -/
def orRefuse (cause : Error) : Option α → Action σ α
  | some a => pure a
  | none => refuse cause

/-- A value without which the action is aborted. -/
def orAbort : Option α → Action σ α
  | some a => pure a
  | none => abort

/-- Stops for a cause unless a condition holds. -/
def require (cause : Error) (condition : Bool) : Action σ Unit :=
  if condition then pure () else refuse cause

/-- **An action whose refusal is an answer.** What it wrote before it was refused stays. -/
def attempt (a : Action σ α) : Action σ (Except Error α) :=
  ofFun fun s =>
    match a.runIn s with
    | (.ok v, s') => (.ok (.ok v), s')
    | (.error (.refused cause), s') => (.ok (.error cause), s')
    | (.error .aborted, s') => (.error .aborted, s')

/-- **An action on the side:** its caller goes on, however it ends. -/
def aside (a : Action σ Unit) : Action σ Unit := ofFun fun s => (.ok (), (a.runIn s).2)

/-- **An action in a part of a state,** given how the part is read and put back. -/
def zoom (part : τ → σ) (put : σ → τ → τ) (a : Action σ α) : Action τ α :=
  ofFun fun t =>
    match a.runIn (part t) with
    | (result, s') => (result, put s' t)

theorem runIn_ofFun (f : σ → Except Stop α × σ) (s : σ) : (ofFun f).runIn s = f s := rfl

theorem runIn_zoom (part : τ → σ) (put : σ → τ → τ) (a : Action σ α) (t : τ) :
    (a.zoom part put).runIn t = ((a.runIn (part t)).1, put (a.runIn (part t)).2 t) := rfl

theorem runIn_pure (a : α) (s : σ) : (pure a : Action σ α).runIn s = (.ok a, s) := rfl

theorem runIn_get (s : σ) : (get : Action σ σ).runIn s = (.ok s, s) := rfl

theorem runIn_set (s' s : σ) : (set s' : Action σ PUnit).runIn s = (.ok ⟨⟩, s') := rfl

theorem runIn_refuse (cause : Error) (s : σ) :
    (refuse cause : Action σ α).runIn s = (.error (.refused cause), s) := rfl

theorem runIn_bind {β : Type} (a : Action σ α) (f : α → Action σ β) (s : σ) :
    (a >>= f).runIn s =
      match a.runIn s with
      | (.ok v, s') => (f v).runIn s'
      | (.error stop, s') => (.error stop, s') := by
  show (ExceptT.bind a f).run.run s = _
  simp only [runIn, ExceptT.bind, ExceptT.mk, ExceptT.run, StateT.run, bind, StateT.bind]
  generalize hr : (a : StateM σ (Except Stop α)) s = r
  obtain ⟨result, s'⟩ := r
  cases result <;> rfl

end Action

end WalletLedger
