/-
**The search for routes, round by round.** A search keeps the currencies that it stands on, each
with the number of its edges that have been tried, and the edges that led there. One round tries the
next edge of the currency it reached last, or steps back when all of them have been tried; so the
routes come one after the other, and whoever has seen enough of them asks for no more rounds.

An offer of routes is a search of one depth, or one search after the other for every depth. What it
yields in all its rounds is what `Graph.routes` lists.
-/
import WalletLedger.Routing.Graph

set_option autoImplicit false

namespace WalletLedger

/-- A currency that a search stands on, and how many of its edges have been tried. -/
structure Frame where
  node : String
  next : Nat
deriving DecidableEq

/-- **A search under way.** The currency reached last and the edge that led there come first. -/
structure PathSearch where
  source : String
  dest : String
  /-- The longest path, in hops. -/
  maxLen : Nat
  /-- Whether only the paths of just that length are wanted. -/
  exact : Bool
  stack : List Frame
  path : List Rate
deriving DecidableEq

/-- **What comes of one round:** nothing is left, or the search goes on, with a route to offer or
without one. -/
inductive Round (σ : Type) where
  | ended
  | onward (s : σ)
  | found (route : Route) (s : σ)

namespace PathSearch

/-- A search that has not tried any edge yet. -/
def start (g : Graph) (source dest : String) (maxLen : Nat) (exact : Bool) : PathSearch where
  source
  dest
  maxLen
  exact
  stack := if g.contains source then [⟨source, 0⟩] else []
  path := []

/-- The same search for another length. -/
def restart (g : Graph) (s : PathSearch) (maxLen : Nat) : PathSearch :=
  start g s.source s.dest maxLen s.exact

def onPath (s : PathSearch) (symbol : String) : Bool := s.stack.any (·.node == symbol)

/-- The route along the path and one more edge. -/
def routeWith? (s : PathSearch) (last : Rate) : Option Route :=
  Route.ofEdges? (s.path.reverse ++ [last])

/-- **One round.** A path whose composite rate is out of range is passed over. -/
def round (g : Graph) (s : PathSearch) : Round PathSearch :=
  match s.stack with
  | [] => .ended
  | frame :: below =>
    match (g.outgoing frame.node)[frame.next]? with
    | none => .onward { s with stack := below, path := s.path.tail }
    | some e =>
      let tried := { s with stack := { frame with next := frame.next + 1 } :: below }
      let hops := s.path.length + 1
      if s.onPath e.dest then .onward tried
      else if e.dest = s.dest then
        if s.exact && hops ≠ s.maxLen then .onward tried
        else
          match s.routeWith? e with
          | some route => .found route tried
          | none => .onward tried
      else if s.maxLen ≤ hops || !g.isHub e.dest then .onward tried
      else .onward { tried with stack := ⟨e.dest, 0⟩ :: tried.stack, path := e :: s.path }

end PathSearch

/-- **Where an offer of routes stands.** -/
inductive Offer where
  | done
  /-- The one route from a currency to itself is still to be offered. -/
  | identity (symbol : String)
  | search (s : PathSearch)
  /-- One search after the other, each one hop deeper. -/
  | deepening (depth : Nat) (s : PathSearch)
deriving DecidableEq

namespace Offer

/-- An offer from which nothing has been taken yet. -/
def start (g : Graph) (source dest : String) (policy : RoutePolicy) : Offer :=
  if !(g.contains source && g.contains dest) then .done
  else if source = dest then .identity source
  else
    match policy with
    | .depthFirst => .search (.start g source dest g.maxHops false)
    | .shortestHops => .deepening 1 (.start g source dest 1 true)

/-- One round of an offer. -/
def round (g : Graph) : Offer → Round Offer
  | .done => .ended
  | .identity symbol => .found (.identity symbol) .done
  | .search s =>
    match s.round g with
    | .ended => .ended
    | .onward s' => .onward (.search s')
    | .found route s' => .found route (.search s')
  | .deepening depth s =>
    match s.round g with
    | .ended =>
      if g.maxHops ≤ depth then .ended
      else .onward (.deepening (depth + 1) (s.restart g (depth + 1)))
    | .onward s' => .onward (.deepening depth s')
    | .found route s' => .found route (.deepening depth s')

end Offer

end WalletLedger
