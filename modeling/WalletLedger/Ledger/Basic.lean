/-
**A running ledger:** the stores that hold its rows, and what is kept beside them while it runs:
the clock, the graph of conversions as it was last built, the policies of the networks, the
counters and the events. `Terms` are what is settled when a ledger is opened.

The services of a ledger are actions on it. They reach the stores through `ask` alone.
-/
import WalletLedger.Event
import WalletLedger.Routing.Graph
import WalletLedger.Settings
import WalletLedger.Store.Call
import WalletLedger.Withdrawal.Command

set_option autoImplicit false

namespace WalletLedger

/-- What does not change while a ledger is open. -/
structure Terms where
  systemUuid : String
  /-- How often a write of balances is tried. -/
  maxAttempts : Nat
  maxHops : Nat
  policy : RoutePolicy
  /-- How many seconds a reservation lives. -/
  ttlSecs : Nat
  /-- Whether postings are counted. -/
  counting : Bool
deriving DecidableEq

/-- A ledger over its stores. -/
structure Ledger (σ : Type) where
  stores : σ
  /-- The last instant that was told. -/
  clock : Instant
  /-- The graph of conversions, until something it was built from changes. -/
  graph : Option Graph
  policies : WithdrawalPolicies
  /-- How many postings of a category were made. -/
  counters : List (Category × Nat)
  /-- What was reported, newest first. -/
  events : List Event

namespace Ledger

variable {σ : Type}

/-- A ledger that has not done anything yet. -/
def start (stores : σ) (clock : Instant) : Ledger σ :=
  { stores, clock, graph := none, policies := [], counters := [], events := [] }

/-- The count of a category, which is zero until its first posting. -/
def counted (l : Ledger σ) (c : Category) : Nat := (l.counters.lookup c).getD 0

/-- The counters with one of them advanced. -/
def advance (c : Category) : List (Category × Nat) → List (Category × Nat)
  | [] => [(c, 1)]
  | (d, n) :: rest => if d = c then (d, n + 1) :: rest else (d, n) :: advance c rest

/-! ## Primitive actions -/

/-- **A call to the stores.** -/
def ask [Stores σ] {α : Type} (c : Call α) : Action (Ledger σ) α :=
  (Stores.call c).zoom (·.stores) fun stores l => { l with stores }

/-- A change of what is kept beside the stores. -/
def adjust (f : Ledger σ → Ledger σ) : Action (Ledger σ) Unit :=
  Action.ofFun fun l => (.ok (), f l)

/-- What is kept beside the stores. -/
def peek {α : Type} (f : Ledger σ → α) : Action (Ledger σ) α :=
  Action.ofFun fun l => (.ok (f l), l)

/-- The time; it is never told twice. -/
def now : Action (Ledger σ) Instant :=
  Action.ofFun fun l => (.ok (l.clock + 1), { l with clock := l.clock + 1 })

/-- The identifiers for new rows. -/
def fresh [Stores σ] : Action (Ledger σ) FreshIds := peek fun l => Stores.fresh l.stores

def report (e : Event) : Action (Ledger σ) Unit :=
  adjust fun l => { l with events := e :: l.events }

/-- Counts a posting. -/
def count (t : Terms) (c : Category) : Action (Ledger σ) Unit :=
  adjust fun l => if t.counting then { l with counters := advance c l.counters } else l

end Ledger

end WalletLedger
