/-
What a search yields.

A search goes on round by round, and what it yields in all of them is a list of routes, if its rounds
come to an end (`Yields`). It yields the routes along the trails of its graph, in the order in which
`Graph.walk` lists them (`yields_start`).

A frame of the stack stands for the edges of its currency that are still to be tried, and the frames
below for what is tried after them. So the proof is one statement about the frame on top
(`yields_frame`): if the rest of the stack yields some routes, then the whole stack yields the
routes through the edges that are left, and those after them. It is by induction on the hops that
are left, and inside on the edges that are left. What one edge adds is a lemma of its own
(`yields_edge`): a route that is yielded, and a path whose composite rate is out of range, is one
round like any other.
-/
import WalletLedger.Proofs.Trails
import WalletLedger.Routing.Search

set_option autoImplicit false

namespace WalletLedger

/-- **What the rounds yield until they are over:** these routes, in this order. -/
inductive Yields {σ : Type} (round : σ → Round σ) : σ → List Route → Prop
  | ended {s : σ} : round s = .ended → Yields round s []
  | onward {s s' : σ} {routes : List Route} :
      round s = .onward s' → Yields round s' routes → Yields round s routes
  | found {s s' : σ} {route : Route} {routes : List Route} :
      round s = .found route s' → Yields round s' routes → Yields round s (route :: routes)

/-- Nothing else is yielded. -/
theorem Yields.unique {σ : Type} {round : σ → Round σ} {s : σ} {routes routes' : List Route}
    (h : Yields round s routes) (h' : Yields round s routes') : routes = routes' := by
  induction h generalizing routes' with
  | ended hs =>
    cases h' with
    | ended => rfl
    | onward hs' => rw [hs] at hs'; cases hs'
    | found hs' => rw [hs] at hs'; cases hs'
  | onward hs _ ih =>
    cases h' with
    | ended hs' => rw [hs] at hs'; cases hs'
    | onward hs' hrest =>
      rw [hs] at hs'
      cases hs'
      exact ih hrest
    | found hs' => rw [hs] at hs'; cases hs'
  | found hs _ ih =>
    cases h' with
    | ended hs' => rw [hs] at hs'; cases hs'
    | onward hs' => rw [hs] at hs'; cases hs'
    | found hs' hrest =>
      rw [hs] at hs'
      cases hs'
      exact congrArg _ (ih hrest)

namespace PathSearch

variable {g : Graph} {source dest node : String} {maxLen hops k : Nat} {exact : Bool}
  {below : List Frame} {path : List Rate} {e : Rate}

/-! ## 1. One round -/

theorem onPath_eq (s : PathSearch) (symbol : String) :
    s.onPath symbol = (s.stack.map (·.node)).contains symbol := by
  rw [onPath, List.contains_eq_any_beq, List.any_map]
  exact congrArg (s.stack.any ·) (funext fun frame => Bool.beq_comm ..)

/-- **When all edges are tried** the search steps back. -/
theorem round_back (h : (g.outgoing node)[k]? = none) :
    round g ⟨source, dest, maxLen, exact, ⟨node, k⟩ :: below, path⟩ =
      .onward ⟨source, dest, maxLen, exact, below, path.tail⟩ := by
  simp only [round, h]

/-- **Otherwise the next edge is tried.** -/
theorem round_try (source dest : String) (maxLen : Nat) (exact : Bool) (below : List Frame)
    (path : List Rate) (h : (g.outgoing node)[k]? = some e) :
    round g ⟨source, dest, maxLen, exact, ⟨node, k⟩ :: below, path⟩ =
      if (node :: below.map (·.node)).contains e.dest then
        .onward ⟨source, dest, maxLen, exact, ⟨node, k + 1⟩ :: below, path⟩
      else if e.dest = dest then
        if exact && path.length + 1 ≠ maxLen then
          .onward ⟨source, dest, maxLen, exact, ⟨node, k + 1⟩ :: below, path⟩
        else
          match Route.ofEdges? (path.reverse ++ [e]) with
          | some route => .found route ⟨source, dest, maxLen, exact, ⟨node, k + 1⟩ :: below, path⟩
          | none => .onward ⟨source, dest, maxLen, exact, ⟨node, k + 1⟩ :: below, path⟩
      else if maxLen ≤ path.length + 1 || !g.isHub e.dest then
        .onward ⟨source, dest, maxLen, exact, ⟨node, k + 1⟩ :: below, path⟩
      else
        .onward
          ⟨source, dest, maxLen, exact, ⟨e.dest, 0⟩ :: ⟨node, k + 1⟩ :: below, e :: path⟩ := by
  simp only [round, h, onPath_eq]
  rfl

/-! ## 2. All rounds -/

/-- **One edge:** the routes through it come first, and then what is yielded after it was tried. An
edge that the path goes on with puts a frame on top, which is all that is asked of `hdeeper`. -/
theorem yields_edge {later : List Route} (hsome : (g.outgoing node)[k]? = some e)
    (hlength : maxLen = path.length + hops + 1)
    (htried : Yields (round g) ⟨source, dest, maxLen, exact, ⟨node, k + 1⟩ :: below, path⟩ later)
    (hdeeper : hops ≠ 0 → Yields (round g)
      ⟨source, dest, maxLen, exact, ⟨e.dest, 0⟩ :: ⟨node, k + 1⟩ :: below, e :: path⟩
      ((g.trails dest exact hops (e.dest :: node :: below.map (·.node)) e.dest).filterMap
        (fun es => Route.ofEdges? (path.reverse ++ e :: es)) ++ later)) :
    Yields (round g) ⟨source, dest, maxLen, exact, ⟨node, k⟩ :: below, path⟩
      ((g.through dest exact hops (node :: below.map (·.node)) e).filterMap
        (fun es => Route.ofEdges? (path.reverse ++ es)) ++ later) := by
  have hround := round_try source dest maxLen exact below path hsome
  unfold Graph.through
  by_cases hvisited : (node :: below.map (·.node)).contains e.dest = true
  · rw [if_pos hvisited] at hround ⊢
    exact .onward hround htried
  rw [if_neg hvisited] at hround ⊢
  by_cases hdest : e.dest = dest
  · rw [if_pos hdest] at hround ⊢
    have hlast : (path.length + 1 ≠ maxLen) = (hops ≠ 0) := by
      rw [hlength]
      simp
    simp only [hlast] at hround
    by_cases hskip : (exact && decide (hops ≠ 0)) = true
    · rw [if_pos hskip] at hround ⊢
      exact .onward hround htried
    · rw [if_neg hskip] at hround ⊢
      rw [List.filterMap_cons, List.filterMap_nil]
      cases hroute : Route.ofEdges? (path.reverse ++ [e]) with
      | none =>
        rw [hroute] at hround
        exact .onward hround htried
      | some route =>
        rw [hroute] at hround
        exact .found hround htried
  rw [if_neg hdest] at hround ⊢
  by_cases hhub : g.isHub e.dest = true
  · rw [if_pos hhub]
    by_cases hzero : hops = 0
    · -- No hop is left, and there is no trail of no hops.
      subst hzero
      rw [if_pos (by simp [hlength])] at hround
      exact .onward hround htried
    · rw [if_neg (by simp [hlength, hhub, hzero])] at hround
      rw [List.filterMap_map]
      exact .onward hround (hdeeper hzero)
  · rw [if_neg hhub]
    rw [if_pos (by simp [hhub])] at hround
    exact .onward hround htried

/-- **The frame on top:** the routes through the edges that are left come first, and then what the
frames below yield. -/
theorem yields_frame : ∀ (hops : Nat) (edges : List Rate) {node : String} {k : Nat}
    {below : List Frame} {path : List Rate} {routes : List Route},
    (g.outgoing node).drop k = edges → maxLen = path.length + hops + 1 →
    Yields (round g) ⟨source, dest, maxLen, exact, below, path.tail⟩ routes →
    Yields (round g) ⟨source, dest, maxLen, exact, ⟨node, k⟩ :: below, path⟩
      ((edges.flatMap (g.through dest exact hops (node :: below.map (·.node)))).filterMap
        (fun es => Route.ofEdges? (path.reverse ++ es)) ++ routes) := by
  intro hops
  induction hops using Nat.strongRecOn with | ind hops ihops
  intro edges
  induction edges with
  | nil =>
    intro node k below path routes hdrop _ hbelow
    have hnone : (g.outgoing node)[k]? = none := by
      rw [← List.head?_drop, hdrop]
      rfl
    exact .onward (round_back hnone) hbelow
  | cons e edges iedges =>
    intro node k below path routes hdrop hlength hbelow
    have hsome : (g.outgoing node)[k]? = some e := by
      rw [← List.head?_drop, hdrop]
      rfl
    have hnext : (g.outgoing node).drop (k + 1) = edges := by
      rw [← List.tail_drop, hdrop]
      rfl
    have htried := iedges hnext hlength hbelow
    rw [List.flatMap_cons, List.filterMap_append, List.append_assoc]
    refine yields_edge hsome hlength htried fun hne => ?_
    obtain ⟨fewer, rfl⟩ := Nat.exists_eq_succ_of_ne_zero hne
    have hlength' : maxLen = (e :: path).length + fewer + 1 := by
      rw [List.length_cons]
      omega
    have hdeeper := ihops fewer (Nat.lt_succ_self fewer) (g.outgoing e.dest) List.drop_zero
      hlength' htried
    rw [Graph.trails_succ]
    simpa only [List.reverse_cons, List.append_assoc, List.singleton_append, List.map_cons]
      using hdeeper

/-- **A search yields the routes of a walk.** -/
theorem yields_start (source dest : String) (hops : Nat) (exact : Bool)
    (hsource : g.contains source = true) :
    Yields (round g) (start g source dest (hops + 1) exact)
      (g.walk source dest exact (hops + 1)) := by
  have hbelow : Yields (round g) ⟨source, dest, hops + 1, exact, [], [].tail⟩ [] := .ended rfl
  have hlength : hops + 1 = ([] : List Rate).length + hops + 1 := by simp
  have hframe := yields_frame hops (g.outgoing source) List.drop_zero hlength hbelow
  rw [List.append_nil] at hframe
  unfold start
  rw [if_pos hsource]
  exact hframe

end PathSearch

end WalletLedger
