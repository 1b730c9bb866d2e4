/-
**Owners in a ledger.** An owner is created the first time somebody needs one; the system has an
owner of its own, who exists from the start.
-/
import WalletLedger.Ledger.Basic

set_option autoImplicit false

namespace WalletLedger.Ledger

open WalletLedger.Action

variable {σ : Type} [Stores σ]

/-- The owner of a uuid, who must exist. -/
def requireOwner (uuid : String) : Action (Ledger σ) Owner := do
  orRefuse (.ownerNotFound uuid) (← ask (.findOwner uuid))

/-- A new owner, who may do everything. -/
def createOwner (uuid title level : String) : Action (Ledger σ) Owner := do
  let owner ← ask (.createOwner uuid title level Owner.defaultFlags)
  report (.ownerCreated owner.id uuid level)
  return owner

/-- **The owner of a uuid, created if need be.** If that fails, somebody else may have created the
owner, so it is looked up once more. -/
def findOrCreateOwner (uuid : String) : Action (Ledger σ) Owner := do
  match ← ask (.findOwner uuid) with
  | some owner => return owner
  | none =>
    match ← (createOwner uuid "not set" "1").attempt with
    | .ok owner => return owner
    | .error _ => requireOwner uuid

/-- The system's own account. -/
def systemOwner (t : Terms) : Action (Ledger σ) Owner := requireOwner t.systemUuid

/-- The system's own account, created if it is missing. -/
def bootstrapSystemOwner (systemUuid : String) : Action (Ledger σ) Owner := do
  match ← ask (.findOwner systemUuid) with
  | some owner => return owner
  | none => createOwner systemUuid "system" "system"

/-- Sets all three permissions of an owner. -/
def setPermissions (uuid : String) (trade withdraw deposit : Bool) : Action (Ledger σ) Owner :=
  ask (.setFlags uuid (Owner.flagsOf trade withdraw deposit))

end WalletLedger.Ledger
