/-
**Rates and routes.** A rate turns one unit of its source currency into `rate` units of its
destination; the opposite direction is a rate of its own. A route is a chain of rates, and its own
rate is their product, multiplied from the first to the last.
-/
import WalletLedger.Document
import WalletLedger.Error

set_option autoImplicit false

namespace WalletLedger

/-- One unit of `source` is worth `rate` units of `dest`. -/
structure Rate where
  source : String
  dest : String
  rate : Decimal
deriving DecidableEq, Inhabited

/-- A direct conversion that must not be used, whatever rates exist. -/
structure ForbiddenPair where
  source : String
  dest : String
deriving DecidableEq, Inhabited

/-- The order in which routes are offered. -/
inductive RoutePolicy where
  /-- Fewest hops first. -/
  | shortestHops
  /-- The order of a depth-first walk. -/
  | depthFirst
deriving DecidableEq, Inhabited

/-- A chain of rates with its composite rate. -/
structure Route where
  source : String
  dest : String
  edges : List Rate
  rate : Decimal
deriving DecidableEq

/-- The order of symbols: by code points, which is the order of their UTF-8 bytes. -/
def symbolLE (a b : String) : Bool := !decide (b < a)

/-- The order of pairs of symbols. -/
def symbolPairLE (a b : String × String) : Bool :=
  a.1 < b.1 || (a.1 == b.1 && symbolLE a.2 b.2)

namespace Rate

def pair (r : Rate) : String × String := (r.source, r.dest)

/-- A usable rate is positive and joins two different currencies. -/
def isValid (r : Rate) : Bool := r.rate.isPositive && r.source ≠ r.dest

def check (r : Rate) : Except Error Unit := if r.isValid then .ok () else .error .invalidRate

def toDocument (r : Rate) : Document :=
  .object [
    ("source_symbol", .text r.source), ("dest_symbol", .text r.dest),
    ("rate", .ofDecimal r.rate)]

def ofDocument? (d : Document) : Option Rate := do
  let d := d.record 3 ["source_symbol", "dest_symbol", "rate"]
  return {
    source := ← d.need "source_symbol" Document.text?
    dest := ← d.need "dest_symbol" Document.text?
    rate := ← d.need "rate" Document.decimal? }

end Rate

namespace ForbiddenPair

def pair (p : ForbiddenPair) : String × String := (p.source, p.dest)

def swap (p : ForbiddenPair) : ForbiddenPair := ⟨p.dest, p.source⟩

def order (p q : ForbiddenPair) : Ordering :=
  (compare p.source q.source).then (compare p.dest q.dest)

def toDocument (p : ForbiddenPair) : Document :=
  .object [("source_symbol", .text p.source), ("dest_symbol", .text p.dest)]

def ofDocument? (d : Document) : Option ForbiddenPair := do
  let d := d.record 2 ["source_symbol", "dest_symbol"]
  return {
    source := ← d.need "source_symbol" Document.text?
    dest := ← d.need "dest_symbol" Document.text? }

end ForbiddenPair

namespace RoutePolicy

def name : RoutePolicy → String
  | .shortestHops => "shortest_hops"
  | .depthFirst => "depth_first"

def toDocument (p : RoutePolicy) : Document := .text p.name

def ofDocument? : Document → Option RoutePolicy :=
  Document.named? [("shortest_hops", .shortestHops), ("depth_first", .depthFirst)]

end RoutePolicy

namespace Route

/-- The route of no hops from a currency to itself. -/
def identity (symbol : String) : Route := ⟨symbol, symbol, [], Decimal.one⟩

/-- The product of the rates of a chain, from the left, if it stays in range. -/
def composite? (edges : List Rate) : Option Decimal :=
  edges.foldlM (fun product e => product.mul? e.rate) Decimal.one

/-- The route along a chain of rates. A chain has at least one rate and a composite rate. -/
def ofEdges? (edges : List Rate) : Option Route := do
  let first ← edges.head?
  let last ← edges.getLast?
  let rate ← composite? edges
  return ⟨first.source, last.dest, edges, rate⟩

def hops (r : Route) : Nat := r.edges.length

/-- The symbols on the way, both ends included. -/
def symbols (r : Route) : List String := r.source :: r.edges.map (·.dest)

def toDocument (r : Route) : Document :=
  .object [
    ("source_symbol", .text r.source), ("dest_symbol", .text r.dest),
    ("edges", .list (r.edges.map Rate.toDocument)), ("rate", .ofDecimal r.rate)]

/-- A route as it is offered: what it passes, at which rates, and what comes of it. -/
def summary (r : Route) : Document :=
  .object [
    ("source", .text r.source), ("dest", .text r.dest),
    ("symbols", .list (r.symbols.map .text)), ("hops", .int r.hops),
    ("edge_rates", .list (r.edges.map fun e => .ofDecimal e.rate)), ("rate", .ofDecimal r.rate)]

def ofDocument? (d : Document) : Option Route := do
  let d := d.record 4 ["source_symbol", "dest_symbol", "edges", "rate"]
  return {
    source := ← d.need "source_symbol" Document.text?
    dest := ← d.need "dest_symbol" Document.text?
    edges := ← d.need "edges" (Document.list? Rate.ofDocument?)
    rate := ← d.need "rate" Document.decimal? }

end Route

end WalletLedger
