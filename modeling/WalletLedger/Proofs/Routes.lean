/-
The routes that are offered.

A route from one currency to another is described by the lists that a graph is built from
(`Offered`): it leads from the one to the other in at most so many hops, along rates that are used,
passes no currency twice and only transitive ones on the way, and its rate is the product of theirs.
Depth-first routing offers these routes and no others, each once, in the order of the symbols that
they pass (`routes_depthFirst`).

A route is a trail with its composite rate (`mem_walk`), so what is known of the trails of a graph
carries over. The list of routes is cut off at the number of currencies and the search is not; no
trail is longer than that, and a strictly ordered list is determined by its members.
-/
import WalletLedger.Proofs.Building
import WalletLedger.Proofs.Search

set_option autoImplicit false

namespace WalletLedger

variable {currencies : List Currency} {rates : List Rate} {forbidden : List ForbiddenPair}
  {maxHops hops : Nat} {source dest : String} {exact : Bool} {es : List Rate} {route : Route}

/-- **A route that can be offered** from one currency to another one. -/
structure Offered (currencies : List Currency) (rates : List Rate)
    (forbidden : List ForbiddenPair) (maxHops : Nat) (source dest : String) (route : Route) :
    Prop where
  starts : route.source = source
  ends : route.dest = dest
  leads : Leads source route.edges dest
  used : ∀ e ∈ route.edges, IsUsed currencies rates forbidden e
  pos : 1 ≤ route.hops
  le : route.hops ≤ max maxHops 1
  simple : route.symbols.Nodup
  through : ∀ s ∈ route.symbols.tail.dropLast, IsTransit currencies s
  rate : Route.composite? route.edges = some route.rate

/-! ## 1. The routes along trails -/

namespace Route

/-- A route is a chain of rates that has a composite rate, with the ends of the chain. -/
theorem ofEdges?_eq (hne : es ≠ []) (h : Leads source es dest) :
    ofEdges? es = (composite? es).map fun rate => ⟨source, dest, es, rate⟩ := by
  have hlast := Graph.dest_getLast hne h
  rw [ofEdges?, List.getLast?_eq_some_getLast hne]
  cases es with
  | nil => exact absurd rfl hne
  | cons e rest =>
    obtain ⟨rfl, -⟩ := h
    cases hrate : composite? (e :: rest) with
    | none => simp
    | some rate => simp [hlast]

end Route

namespace Graph

variable {g : Graph}

theorem mem_walk :
    route ∈ g.walk source dest exact hops ↔
      g.Trail dest [source] source route.edges ∧ route.hops ≤ hops ∧
        (exact = true → route.hops = hops) ∧ route.source = source ∧ route.dest = dest ∧
        Route.composite? route.edges = some route.rate := by
  rw [walk, List.mem_filterMap]
  constructor
  · rintro ⟨es, hes, hroute⟩
    obtain ⟨htrail, hle, hexact⟩ := mem_trails.1 hes
    rw [Route.ofEdges?_eq htrail.nonempty htrail.leads, Option.map_eq_some_iff] at hroute
    obtain ⟨rate, hrate, rfl⟩ := hroute
    exact ⟨htrail, hle, hexact, rfl, rfl, hrate⟩
  · rintro ⟨htrail, hle, hexact, rfl, rfl, hrate⟩
    refine ⟨route.edges, mem_trails.2 ⟨htrail, hle, hexact⟩, ?_⟩
    rw [Route.ofEdges?_eq htrail.nonempty htrail.leads, hrate]
    rfl

/-- **The routes of a walk are ordered** by the symbols that they pass, strictly. -/
theorem Ordered.walk (h : g.Ordered) (source dest : String) (exact : Bool) (hops : Nat) :
    (g.walk source dest exact hops).Pairwise fun a b => a.symbols < b.symbols := by
  rw [Graph.walk, List.pairwise_filterMap]
  refine (h.trails dest exact hops [source] source).imp_of_mem ?_
  intro es es' hes hes' hlt a ha b hb
  obtain ⟨htrail, -⟩ := mem_trails.1 hes
  obtain ⟨htrail', -⟩ := mem_trails.1 hes'
  rw [Route.ofEdges?_eq htrail.nonempty htrail.leads, Option.map_eq_some_iff] at ha
  rw [Route.ofEdges?_eq htrail'.nonempty htrail'.leads, Option.map_eq_some_iff] at hb
  obtain ⟨-, -, rfl⟩ := ha
  obtain ⟨-, -, rfl⟩ := hb
  exact List.Lex.cons hlt

/-- No trail is longer than there are currencies. -/
theorem Trail.length_le (hnodes : ∀ e ∈ g.edges, e.dest ∈ g.nodes) {visited : List String}
    (h : g.Trail dest visited source es) : es.length ≤ g.nodes.length := by
  rw [← List.length_map (·.dest)]
  refine h.simple.length_le_of_subset fun s hs => ?_
  obtain ⟨e, he, rfl⟩ := List.mem_map.1 hs
  exact hnodes e (h.edges e he)

/-- So a walk finds all trails within that number of hops. -/
theorem walk_hopBound (hnodes : ∀ e ∈ g.edges, e.dest ∈ g.nodes) (h : g.Ordered)
    (source dest : String) :
    g.walk source dest false g.hopBound = g.walk source dest false g.maxHops := by
  have htrails : g.trails dest false g.hopBound [source] source =
      g.trails dest false g.maxHops [source] source := by
    refine eq_of_ordered (h.trails _ _ _ _ _) (h.trails _ _ _ _ _) fun es => ?_
    rw [mem_trails, mem_trails, hopBound, Nat.le_min]
    refine and_congr_right fun htrail => ?_
    simp only [htrail.length_le hnodes, and_true, Bool.false_eq_true, false_implies]
  rw [walk, walk, htrails]

end Graph

/-! ## 2. What an offer yields -/

namespace Offer

variable {g : Graph} {s : PathSearch} {routes : List Route}

/-- An offer that searches once yields what the search does. -/
theorem yields_search (h : Yields (PathSearch.round g) s routes) :
    Yields (round g) (.search s) routes := by
  induction h with
  | ended hs => exact .ended (by simp only [round, hs])
  | onward hs _ ih => exact .onward (by simp only [round, hs]) ih
  | found hs _ ih => exact .found (by simp only [round, hs]) ih

/-- **A depth-first offer yields the routes that the graph lists.** -/
theorem yields_depthFirst (hnodes : ∀ e ∈ g.edges, e.dest ∈ g.nodes) (hordered : g.Ordered)
    (hmax : 1 ≤ g.maxHops) (source dest : String) :
    Yields (round g) (start g source dest .depthFirst) (g.routes source dest .depthFirst) := by
  unfold start Graph.routes
  split_ifs with hactive hsame
  · exact .ended rfl
  · exact .found rfl (.ended rfl)
  · have hsource : g.contains source = true := by simp_all
    obtain ⟨hops, hhops⟩ := Nat.exists_eq_add_of_le' hmax
    have hsearch := PathSearch.yields_start source dest hops false hsource
    rw [← hhops, ← Graph.walk_hopBound hnodes hordered] at hsearch
    exact yields_search hsearch

end Offer

/-! ## 3. Depth-first routing -/

namespace Graph

theorem dest_mem_nodes_build (currencies : List Currency) (rates : List Rate)
    (forbidden : List ForbiddenPair) (maxHops : Nat) :
    ∀ e ∈ (build currencies rates forbidden maxHops).edges,
      e.dest ∈ (build currencies rates forbidden maxHops).nodes :=
  fun _ he => mem_nodes_build.2 (mem_edges_build.1 he).1.dest

/-- A walk through a graph that was built finds the routes that can be offered. -/
theorem mem_walk_build :
    route ∈ (build currencies rates forbidden maxHops).walk source dest false (max maxHops 1) ↔
      Offered currencies rates forbidden maxHops source dest route := by
  rw [mem_walk]
  constructor
  · rintro ⟨htrail, hle, -, rfl, hdest, hrate⟩
    refine ⟨rfl, hdest, htrail.leads, ?_, ?_, hle, ?_, ?_, hrate⟩
    · exact fun e he => mem_edges_build.1 (htrail.edges e he)
    · exact List.length_pos_iff.2 htrail.nonempty
    · refine List.nodup_cons.2 ⟨fun hmem => ?_, htrail.simple⟩
      obtain ⟨e, he, hsource⟩ := List.mem_map.1 hmem
      exact htrail.clear e he (List.mem_singleton.2 hsource)
    · rw [Route.symbols, List.tail_cons, ← List.map_dropLast, List.forall_mem_map]
      exact fun e he => isHub_build.1 (htrail.through e he)
  · intro h
    obtain ⟨hsource, hsimple⟩ := List.nodup_cons.1 h.simple
    have hthrough := h.through
    rw [Route.symbols, List.tail_cons, ← List.map_dropLast, List.forall_mem_map] at hthrough
    refine ⟨⟨?_, h.leads, ?_, hsimple, ?_, ?_⟩, h.le, nofun, h.starts, h.ends, h.rate⟩
    · exact List.length_pos_iff.1 h.pos
    · exact fun e he => mem_edges_build.2 (h.used e he)
    · intro e he hmem
      refine hsource (List.mem_map.2 ⟨e, he, ?_⟩)
      rw [h.starts, List.mem_singleton.1 hmem]
    · exact fun e he => isHub_build.2 (hthrough e he)

/-- **What depth-first routing offers.** Its rounds come to an end. Between two different active
currencies they yield the routes that can be offered, each once, in the order of the bytes of the
symbols that they pass; from an active currency to itself, the route of no hops; and nothing if one
of the two is not active. -/
theorem routes_depthFirst (currencies : List Currency) (rates : List Rate)
    (forbidden : List ForbiddenPair) (maxHops : Nat) (source dest : String) :
    ∃ routes,
      Yields (Offer.round (build currencies rates forbidden maxHops))
        (Offer.start (build currencies rates forbidden maxHops) source dest .depthFirst) routes ∧
      routes = (build currencies rates forbidden maxHops).routes source dest .depthFirst ∧
      (IsActive currencies source → IsActive currencies dest → source ≠ dest →
        (∀ route, route ∈ routes ↔
          Offered currencies rates forbidden maxHops source dest route) ∧
        routes.Nodup ∧
        routes.Pairwise fun a b => a.symbols.map utf8Bytes < b.symbols.map utf8Bytes) ∧
      (IsActive currencies source → source = dest → routes = [Route.identity source]) ∧
      (¬IsActive currencies source ∨ ¬IsActive currencies dest → routes = []) := by
  have hnodes := dest_mem_nodes_build currencies rates forbidden maxHops
  have hordered := ordered_build currencies rates forbidden maxHops
  have hyields := Offer.yields_depthFirst hnodes hordered (le_max_right maxHops 1) source dest
  refine ⟨_, hyields, rfl, fun hsource hdest hne => ?_, ?_, fun hinactive => ?_⟩
  · have hroutes : (build currencies rates forbidden maxHops).routes source dest .depthFirst =
        (build currencies rates forbidden maxHops).walk source dest false (max maxHops 1) := by
      rw [routes, contains_build.2 hsource, contains_build.2 hdest, if_neg (by decide), if_neg hne]
      exact walk_hopBound hnodes hordered source dest
    have hwalk := hordered.walk source dest false (max maxHops 1)
    rw [hroutes]
    refine ⟨fun route => mem_walk_build, hwalk.imp ?_, ?_⟩
    · rintro a b hlt rfl
      exact List.lt_irrefl _ hlt
    · exact hwalk.imp fun hlt => List.map_lt (fun _ _ => utf8Bytes_lt) hlt
  · rintro hsource rfl
    rw [routes, contains_build.2 hsource, if_neg (by decide), if_pos rfl]
  · rw [routes, if_pos]
    simpa only [Bool.not_and, Bool.or_eq_true, Bool.not_eq_true', ← Bool.not_eq_true,
      contains_build] using hinactive

end Graph

namespace Small

def traded : List Currency :=
  [.define "ETH" "Ether" 18, .define "USDT" "Tether" 6, (Currency.define "Z" "Zed" 8).transitive]

def rate (source dest : String) (n : Int) : Rate := ⟨source, dest, (Decimal.ofInt? n).getD .one⟩

def toZ : Rate := rate "ETH" "Z" 100

def fromZ : Rate := rate "Z" "USDT" 2

def viaZ : Route := ⟨"ETH", "USDT", [toZ, fromZ], (Decimal.ofInt? 200).getD .one⟩

/-- The second of the rates is for the same pair as the first, and the last one is forbidden. -/
def listed : List Rate := [toZ, rate "ETH" "Z" 150, fromZ, rate "ETH" "USDT" 300]

def closed : List ForbiddenPair := [⟨"ETH", "USDT"⟩]

theorem viaZ_offered : Offered traded listed closed 4 "ETH" "USDT" viaZ :=
  ⟨rfl, rfl, ⟨rfl, rfl, rfl⟩, by decide +kernel, by decide, by decide, by decide, by decide,
    by decide +kernel⟩

end Small

open WalletLedger.Small in
/-- The way through the third currency is offered, at the first of its rates; from a currency to
itself there is the route of no hops, and to one that is not listed there is none. -/
theorem Graph.routes_depthFirst_small :
    IsActive traded "ETH" ∧ IsActive traded "USDT" ∧ ¬IsActive traded "DAI" ∧
      viaZ ∈ (build traded listed closed 4).routes "ETH" "USDT" .depthFirst ∧
      (build traded listed closed 4).routes "ETH" "ETH" .depthFirst = [Route.identity "ETH"] ∧
      (build traded listed closed 4).routes "ETH" "DAI" .depthFirst = [] := by
  have heth : IsActive traded "ETH" := by decide
  have husdt : IsActive traded "USDT" := by decide
  have hdai : ¬IsActive traded "DAI" := by decide
  obtain ⟨-, -, rfl, hroutes, -⟩ := routes_depthFirst traded listed closed 4 "ETH" "USDT"
  obtain ⟨-, -, rfl, -, hself, -⟩ := routes_depthFirst traded listed closed 4 "ETH" "ETH"
  obtain ⟨-, -, rfl, -, -, hnone⟩ := routes_depthFirst traded listed closed 4 "ETH" "DAI"
  exact ⟨heth, husdt, hdai, ((hroutes heth husdt (by decide)).1 viaZ).2 viaZ_offered,
    hself heth rfl, hnone (.inr hdai)⟩

end WalletLedger
