/-
**The conversion graph.** Its nodes are the active currencies and its edges the usable rates
between them, one for each pair, less the forbidden pairs. A trail leads from one currency to
another, visits no currency twice, and passes only through transitive ones. Edges out of a
currency are tried in the order of their destinations, so that the sequence of trails is
determined by the graph.

A depth-first offer lists the trails as one walk finds them. A shortest-first offer walks once for
each length and keeps the trails of exactly that length. Either way a trail whose composite rate
is out of range is left out.
-/
import WalletLedger.Currency
import WalletLedger.Routing.Rate

set_option autoImplicit false

namespace WalletLedger

/-- A view of currencies, rates and forbidden pairs that is made for finding routes. -/
structure Graph where
  /-- The active currencies. -/
  nodes : List String
  /-- Those among them that may stand in the middle of a route. -/
  hubs : List String
  /-- The usable rates, ordered by destination; no two of them join the same pair. -/
  edges : List Rate
  /-- The longest route offered, at least one hop. -/
  maxHops : Nat
deriving DecidableEq

namespace Graph

/-- The hop limit where none is set. -/
def defaultMaxHops : Nat := 4

/-- The first of the rates for each pair. -/
def firstOfPairs : List Rate → List Rate
  | [] => []
  | r :: rest => r :: (firstOfPairs rest).filter (·.pair ≠ r.pair)

/-- **Building the graph.** Of several usable rates for one pair the first listed counts. -/
def build (currencies : List Currency) (rates : List Rate) (forbidden : List ForbiddenPair)
    (maxHops : Nat) : Graph :=
  let nodes := (currencies.filter (·.isActive)).map (·.symbol)
  let usable := rates.filter fun r =>
    r.isValid && nodes.contains r.source && nodes.contains r.dest &&
      !(forbidden.map ForbiddenPair.pair).contains r.pair
  { nodes
    hubs := (currencies.filter fun c => c.isActive && c.isTransitive).map (·.symbol)
    edges := (firstOfPairs usable).mergeSort fun a b => symbolLE a.dest b.dest
    maxHops := max maxHops 1 }

variable (g : Graph)

def contains (symbol : String) : Bool := g.nodes.contains symbol

def isHub (symbol : String) : Bool := g.hubs.contains symbol

/-- The edges out of a currency, in the order of their destinations. -/
def outgoing (symbol : String) : List Rate := g.edges.filter (·.source == symbol)

/-- **The trails to `dest`** from a currency, of at most `hops` hops, or of exactly so many when
`exact` is set, none through a currency in `visited`. The trails through one edge come together,
in the order of the edges. -/
def trails (dest : String) (exact : Bool) :
    (hops : Nat) → (visited : List String) → (node : String) → List (List Rate)
  | 0, _, _ => []
  | hops + 1, visited, node =>
    (g.outgoing node).flatMap fun e =>
      if visited.contains e.dest then []
      else if e.dest = dest then
        if exact && hops ≠ 0 then [] else [[e]]
      else if g.isHub e.dest then
        (trails dest exact hops (e.dest :: visited) e.dest).map (e :: ·)
      else []

/-- No trail is longer than there are currencies. -/
def hopBound : Nat := min g.maxHops g.nodes.length

/-- The routes along the trails that one walk finds. -/
def walk (source dest : String) (exact : Bool) (hops : Nat) : List Route :=
  (g.trails dest exact hops [source] source).filterMap Route.ofEdges?

/-- **The routes from one currency to another,** in the order of a policy. A currency leads to
itself in no hops; a currency that is not active has no routes. -/
def routes (source dest : String) (policy : RoutePolicy) : List Route :=
  if !(g.contains source && g.contains dest) then []
  else if source = dest then [Route.identity source]
  else
    match policy with
    | .depthFirst => g.walk source dest false g.hopBound
    | .shortestHops =>
      (List.range g.hopBound).flatMap fun d => g.walk source dest true (d + 1)

end Graph

end WalletLedger
