/-
**Stores that fail.** A store can be made to fail in chosen calls: instead of the call, after it,
or by answering that nothing happened. Each fault says which calls of its name it lets pass and
how many it then strikes, so that any pattern of failures can be described by a list of them.
-/
import WalletLedger.Store.Call

set_option autoImplicit false

namespace WalletLedger

/-- How a call fails. -/
inductive FaultMode where
  /-- The call is not made and an error is reported. -/
  | before
  /-- The call is made, and an error is reported although it succeeded. -/
  | after
  /-- The call is not made and answers that nothing happened. -/
  | miss
deriving DecidableEq, Inhabited

namespace FaultMode

def ofDocument? : Document → Option FaultMode :=
  Document.named? [("before", .before), ("after", .after), ("miss", .miss)]

end FaultMode

/-- A fault in the calls of one name. -/
structure Fault where
  method : String
  mode : FaultMode
  /-- How many calls pass first. -/
  skip : Nat
  /-- How many calls then fail. -/
  count : Nat
deriving DecidableEq

namespace Fault

/-- **Consulting the faults** before a call: the first one of its name with failures left decides,
and the answer tells how the call fails, if it does. -/
def consult (method : String) : List Fault → Option FaultMode × List Fault
  | [] => (none, [])
  | f :: rest =>
    if f.method = method && 0 < f.count then
      if 0 < f.skip then (none, { f with skip := f.skip - 1 } :: rest)
      else (some f.mode, { f with count := f.count - 1 } :: rest)
    else
      let (mode, rest') := consult method rest
      (mode, f :: rest')

end Fault

/-- Stores in front of which faults are armed. -/
structure Faulty (σ : Type) where
  stores : σ
  armed : List Fault

namespace Faulty

variable {σ : Type} [Stores σ]

/-- What a struck call reports. -/
def injected {α : Type} (c : Call α) : Stop := .refused (.database (.injected c.name))

/-- The call itself. -/
def forward {α : Type} (c : Call α) : Action (Faulty σ) α :=
  (Stores.call c).zoom (·.stores) fun stores f => { f with stores }

/-- **A call under faults.** -/
def call {α : Type} (c : Call α) : Action (Faulty σ) α := do
  let f ← get
  let (mode, armed) := Fault.consult c.name f.armed
  set ({ f with armed } : Faulty σ)
  match mode with
  | none => forward c
  | some .before => throw (injected c)
  | some .after =>
    let _ ← forward c
    throw (injected c)
  | some .miss =>
    match c.nothing? with
    | some a => pure a
    | none => throw (injected c)

instance : Stores (Faulty σ) where
  call := Faulty.call
  fresh f := Stores.fresh f.stores

end Faulty

end WalletLedger
