/-
Which trails a graph has, and in which order.

`Graph.trails` counts the hops down and carries the currencies it has visited. What it lists is
described without either (`Graph.Trail`): the rates lead from one currency to the other, no currency
is reached twice, and those on the way are transitive. A trail is one edge and what follows it
(`trail_cons_iff`), and this is also how the list is made, so the description is proved by
induction on the hops (`mem_trails`).

The edges out of a currency are ordered by their destinations, strictly, where no two rates join the
same pair. Then the trails are strictly ordered by the symbols that they pass (`Ordered.trails`), so
each is listed once, and two lists of trails with the same members are the same list
(`eq_of_ordered`).
-/
import WalletLedger.Routing.Graph
import Mathlib.Data.List.Sort
import Mathlib.Data.String.Basic

set_option autoImplicit false

namespace WalletLedger

/-- **Rates lead from one symbol to another,** each from where the one before has ended. -/
def Leads : String → List Rate → String → Prop
  | source, [], dest => source = dest
  | source, e :: rest, dest => e.source = source ∧ Leads e.dest rest dest

namespace Graph

variable {g : Graph} {dest node : String} {exact : Bool} {hops : Nat} {visited : List String}
  {e e' : Rate} {es rest : List Rate}

/-- **A trail to `dest`** from a currency, clear of those that were visited. -/
structure Trail (g : Graph) (dest : String) (visited : List String) (node : String)
    (es : List Rate) : Prop where
  nonempty : es ≠ []
  leads : Leads node es dest
  edges : ∀ e ∈ es, e ∈ g.edges
  simple : (es.map (·.dest)).Nodup
  clear : ∀ e ∈ es, e.dest ∉ visited
  through : ∀ e ∈ es.dropLast, g.isHub e.dest = true

/-- The trails that begin with one edge. -/
def through (g : Graph) (dest : String) (exact : Bool) (hops : Nat) (visited : List String)
    (e : Rate) : List (List Rate) :=
  if visited.contains e.dest then []
  else if e.dest = dest then
    if exact && hops ≠ 0 then [] else [[e]]
  else if g.isHub e.dest then
    (g.trails dest exact hops (e.dest :: visited) e.dest).map (e :: ·)
  else []

theorem trails_succ (g : Graph) (dest : String) (exact : Bool) (hops : Nat) (visited : List String)
    (node : String) :
    g.trails dest exact (hops + 1) visited node =
      (g.outgoing node).flatMap (g.through dest exact hops visited) := rfl

/-! ## 1. Which trails there are -/

theorem mem_outgoing : e ∈ g.outgoing node ↔ e ∈ g.edges ∧ e.source = node := by
  rw [outgoing, List.mem_filter, beq_iff_eq]

/-- Rates lead to where the last of them ends. -/
theorem dest_getLast (hne : es ≠ []) (h : Leads node es dest) : (es.getLast hne).dest = dest := by
  induction es generalizing node with
  | nil => exact absurd rfl hne
  | cons e rest ih =>
    cases rest with
    | nil => exact h.2
    | cons e' rest =>
      rw [List.getLast_cons_cons]
      exact ih (List.cons_ne_nil e' rest) h.2

theorem mem_of_leads (hne : es ≠ []) (h : Leads node es dest) : dest ∈ es.map (·.dest) :=
  List.mem_map.2 ⟨es.getLast hne, List.getLast_mem hne, dest_getLast hne h⟩

/-- **A trail is one edge, and it ends there or goes on** through a transitive currency. -/
theorem trail_cons_iff :
    g.Trail dest visited node (e :: rest) ↔
      e ∈ g.edges ∧ e.source = node ∧ e.dest ∉ visited ∧
        (rest = [] ∧ e.dest = dest ∨
          e.dest ≠ dest ∧ g.isHub e.dest = true ∧ g.Trail dest (e.dest :: visited) e.dest rest) := by
  constructor
  · intro h
    have hnodup := h.simple
    rw [List.map_cons, List.nodup_cons] at hnodup
    refine ⟨h.edges e List.mem_cons_self, h.leads.1, h.clear e List.mem_cons_self, ?_⟩
    cases rest with
    | nil => exact .inl ⟨rfl, h.leads.2⟩
    | cons e' rest =>
      have hne : e' :: rest ≠ [] := List.cons_ne_nil e' rest
      have hthrough := h.through
      rw [List.dropLast_cons_of_ne_nil hne, List.forall_mem_cons] at hthrough
      refine .inr ⟨?_, hthrough.1, hne, h.leads.2, ?_, hnodup.2, ?_, hthrough.2⟩
      · -- The trail goes on to its end, and no currency is reached twice.
        intro hdest
        exact hnodup.1 (hdest ▸ mem_of_leads hne h.leads.2)
      · exact fun x hx => h.edges x (List.mem_cons_of_mem e hx)
      · intro x hx hmem
        rcases List.mem_cons.1 hmem with heq | hmem
        · exact hnodup.1 (heq ▸ List.mem_map_of_mem hx)
        · exact h.clear x (List.mem_cons_of_mem e hx) hmem
  · rintro ⟨hedge, hsource, hclear, ⟨rfl, hdest⟩ | ⟨-, hhub, h⟩⟩
    · refine ⟨List.cons_ne_nil e [], ⟨hsource, hdest⟩, ?_, List.nodup_singleton _, ?_, nofun⟩
      · exact List.forall_mem_singleton.2 hedge
      · exact List.forall_mem_singleton.2 hclear
    · refine ⟨List.cons_ne_nil e rest, ⟨hsource, h.leads⟩, ?_, ?_, ?_, ?_⟩
      · exact List.forall_mem_cons.2 ⟨hedge, h.edges⟩
      · refine List.nodup_cons.2 ⟨fun hmem => ?_, h.simple⟩
        obtain ⟨x, hx, heq⟩ := List.mem_map.1 hmem
        exact h.clear x hx (heq ▸ List.mem_cons_self)
      · refine List.forall_mem_cons.2 ⟨hclear, fun x hx hmem => ?_⟩
        exact h.clear x hx (List.mem_cons_of_mem _ hmem)
      · rw [List.dropLast_cons_of_ne_nil h.nonempty]
        exact List.forall_mem_cons.2 ⟨hhub, h.through⟩

/-- **What is listed through an edge** begins with it. -/
theorem mem_through :
    es ∈ g.through dest exact hops visited e ↔
      ∃ rest, es = e :: rest ∧ e.dest ∉ visited ∧
        (rest = [] ∧ e.dest = dest ∧ (exact = true → hops = 0) ∨
          e.dest ≠ dest ∧ g.isHub e.dest = true ∧
            rest ∈ g.trails dest exact hops (e.dest :: visited) e.dest) := by
  unfold through
  simp only [List.contains_iff_mem]
  by_cases hvisited : e.dest ∈ visited
  · simp [hvisited]
  · by_cases hdest : e.dest = dest
    · by_cases hlength : (exact && hops ≠ 0) = true
      · simp_all
      · simp_all
    · by_cases hhub : g.isHub e.dest = true
      · simp [hvisited, hdest, hhub, eq_comm, and_comm]
      · simp [hvisited, hdest, hhub]

/-- **What is listed:** the trails of at most so many hops, or of exactly so many. -/
theorem mem_trails :
    es ∈ g.trails dest exact hops visited node ↔
      g.Trail dest visited node es ∧ es.length ≤ hops ∧ (exact = true → es.length = hops) := by
  induction hops generalizing visited node es with
  | zero =>
    refine ⟨nofun, fun h => ?_⟩
    exact absurd (List.length_eq_zero_iff.1 (Nat.le_zero.1 h.2.1)) h.1.nonempty
  | succ hops ih =>
    rw [trails_succ, List.mem_flatMap]
    constructor
    · rintro ⟨e, he, hthrough⟩
      obtain ⟨rest, rfl, hclear, hcases⟩ := mem_through.1 hthrough
      obtain ⟨hedge, hsource⟩ := mem_outgoing.1 he
      rw [trail_cons_iff, List.length_cons]
      rcases hcases with ⟨rfl, hdest, hexact⟩ | ⟨hdest, hhub, hrest⟩
      · refine ⟨⟨hedge, hsource, hclear, .inl ⟨rfl, hdest⟩⟩, by simp, fun h => ?_⟩
        rw [hexact h, List.length_nil]
      · obtain ⟨htrail, hlength, hexact⟩ := ih.1 hrest
        refine ⟨⟨hedge, hsource, hclear, .inr ⟨hdest, hhub, htrail⟩⟩, by omega, fun h => ?_⟩
        rw [hexact h]
    · rintro ⟨htrail, hlength, hexact⟩
      cases es with
      | nil => exact absurd rfl htrail.nonempty
      | cons e rest =>
        rw [List.length_cons] at hlength hexact
        obtain ⟨hedge, hsource, hclear, hcases⟩ := trail_cons_iff.1 htrail
        refine ⟨e, mem_outgoing.2 ⟨hedge, hsource⟩, mem_through.2 ⟨rest, rfl, hclear, ?_⟩⟩
        rcases hcases with ⟨rfl, hdest⟩ | ⟨hdest, hhub, hrest⟩
        · refine .inl ⟨rfl, hdest, fun h => ?_⟩
          have hone := hexact h
          rw [List.length_nil] at hone
          omega
        · refine .inr ⟨hdest, hhub, ih.2 ⟨hrest, by omega, fun h => ?_⟩⟩
          have hsucc := hexact h
          omega

/-! ## 2. In which order -/

/-- **The edges out of every currency are ordered** by where they lead, strictly. -/
def Ordered (g : Graph) : Prop :=
  ∀ node, (g.outgoing node).Pairwise fun a b => a.dest < b.dest

/-- A strictly ordered list is determined by its members. -/
theorem eq_of_ordered {α : Type} {f : α → List String} {xs ys : List α}
    (hxs : xs.Pairwise fun a b => f a < f b) (hys : ys.Pairwise fun a b => f a < f b)
    (h : ∀ a, a ∈ xs ↔ a ∈ ys) : xs = ys := by
  have : Std.Irrefl fun a b => f a < f b := ⟨fun _ => List.lt_irrefl _⟩
  have : Std.Antisymm fun a b => f a < f b := ⟨fun _ _ hab hba => absurd hba (List.lt_asymm hab)⟩
  exact hxs.eq_of_mem_iff hys h

/-- **The trails are ordered** by the symbols that they pass, strictly. -/
theorem Ordered.trails (h : g.Ordered) (dest : String) (exact : Bool) (hops : Nat) :
    ∀ (visited : List String) (node : String), (g.trails dest exact hops visited node).Pairwise
      fun es es' => es.map (·.dest) < es'.map (·.dest) := by
  induction hops with
  | zero => exact fun _ _ => .nil
  | succ hops ih =>
    intro visited node
    rw [trails_succ, List.pairwise_flatMap]
    constructor
    · intro e _
      unfold through
      split_ifs
      · exact .nil
      · exact .nil
      · exact List.pairwise_singleton _ _
      · exact List.pairwise_map.2 ((ih _ _).imp fun hlt => List.Lex.cons hlt)
      · exact .nil
    · -- Trails through different edges differ in the first symbol.
      refine (h node).imp fun hlt es hes es' hes' => ?_
      obtain ⟨rest, rfl, -⟩ := mem_through.1 hes
      obtain ⟨rest', rfl, -⟩ := mem_through.1 hes'
      exact List.Lex.rel hlt

end Graph

end WalletLedger
