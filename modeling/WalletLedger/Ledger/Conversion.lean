/-
**Conversions in a ledger.** Routes are found in a graph that is built once and kept until a rate, a
forbidden pair or a transitive flag is changed here. A change that is made elsewhere has to be
announced with `forgetGraph`.
-/
import WalletLedger.Ledger.Basic

set_option autoImplicit false

namespace WalletLedger.Ledger

open WalletLedger.Action

variable {σ : Type} [Stores σ]

/-! ## Currencies -/

/-- A currency that must be registered. -/
def requireCurrency (symbol : String) : Action (Ledger σ) Currency := do
  orRefuse (.currencyNotFound symbol) (← ask (.findCurrency symbol))

/-- A currency that must be registered and active. -/
def requireActive (symbol : String) : Action (Ledger σ) Currency := do
  let currency ← requireCurrency symbol
  require (.currencyInactive symbol) currency.isActive
  return currency

/-! ## The graph -/

/-- The graph is built again when it is next needed. -/
def forgetGraph : Action (Ledger σ) Unit := adjust fun l => { l with graph := none }

/-- **The graph of conversions.** -/
def currentGraph (t : Terms) : Action (Ledger σ) Graph := do
  match ← peek (·.graph) with
  | some graph => return graph
  | none =>
    let currencies ← ask .listCurrencies
    let rates ← ask .listRates
    let forbidden ← ask .listForbidden
    let graph := Graph.build currencies rates forbidden t.maxHops
    adjust fun l => { l with graph := some graph }
    return graph

/-- The first routes from one currency to another. -/
def routes (t : Terms) (source dest : String) (limit : Nat) : Action (Ledger σ) (List Route) := do
  let graph ← currentGraph t
  return (graph.routes source dest t.policy).take limit

/-- The route that conversions take. -/
def firstRoute (t : Terms) (source dest : String) : Action (Ledger σ) Route := do
  let graph ← currentGraph t
  orRefuse (.noConversionPath source dest) (graph.routes source dest t.policy).head?

/-- An amount in another currency, by the first route. -/
def convert (t : Terms) (amount : Amount) (dest : String) : Action (Ledger σ) Amount := do
  let route ← firstRoute t amount.currency dest
  ofExcept (amount.convert dest route.rate)

/-! ## Rates -/

def addRate (rate : Rate) (ignoreIfExists : Bool) : Action (Ledger σ) Unit := do
  ofExcept rate.check
  let _ ← requireCurrency rate.source
  let _ ← requireCurrency rate.dest
  ask (.addRate rate ignoreIfExists)
  forgetGraph

/-- Replaces a rate; answers with all rates. -/
def updateRate (rate : Rate) : Action (Ledger σ) (List Rate) := do
  ofExcept rate.check
  ask (.updateRate rate)
  forgetGraph
  ask .listRates

/-- Deletes a rate; answers with all rates. -/
def deleteRate (source dest : String) : Action (Ledger σ) (List Rate) := do
  ask (.deleteRate source dest)
  forgetGraph
  ask .listRates

/-! ## Forbidden pairs -/

def forbid (pair : ForbiddenPair) : Action (Ledger σ) Unit := do
  ask (.forbid pair)
  forgetGraph

/-- Allows a pair again; answers with the pairs that are still forbidden. -/
def allow (pair : ForbiddenPair) : Action (Ledger σ) (List ForbiddenPair) := do
  ask (.allow pair)
  forgetGraph
  ask .listForbidden

/-! ## Transitive currencies -/

/-- The symbols of the transitive currencies. -/
def transitiveSymbols : Action (Ledger σ) (List String) := do
  return ((← ask .listCurrencies).filter (·.isTransitive)).map (·.symbol)

/-- Sets one flag after the other; the first that fails ends it. -/
def setTransitive (on : Bool) : List String → Action (Ledger σ) Unit
  | [] => return
  | symbol :: rest => do
    ask (.setTransitive symbol on)
    setTransitive on rest

def addTransitive (symbols : List String) : Action (Ledger σ) Unit := do
  setTransitive true symbols
  forgetGraph

/-- Takes the flag away; answers with the symbols that still have it. -/
def deleteTransitive (symbols : List String) : Action (Ledger σ) (List String) := do
  setTransitive false symbols
  forgetGraph
  transitiveSymbols

end WalletLedger.Ledger
