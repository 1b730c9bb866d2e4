/-
What a graph is built from.

A graph is made of three lists: currencies, rates and forbidden pairs. What its nodes, its hubs and
its edges are is said here about the lists alone (`IsActive`, `IsTransit`, `IsUsed`), and the lemmas
below turn every question to a graph into one about them.

No two edges join the same pair, because of several usable rates for one pair the first listed
counts (`mem_firstOfPairs`). So the edges out of a currency, which are sorted by where they lead, are
strictly ordered (`ordered_build`).
-/
import WalletLedger.Proofs.Decimal
import WalletLedger.Proofs.SymbolOrder
import WalletLedger.Proofs.Trails

set_option autoImplicit false

namespace WalletLedger

variable {currencies : List Currency} {rates : List Rate} {forbidden : List ForbiddenPair}
  {maxHops : Nat} {r : Rate} {s : String}

/-! ## 1. The lists -/

/-- An active currency of this symbol is listed. -/
def IsActive (currencies : List Currency) (s : String) : Prop :=
  ∃ c ∈ currencies, c.symbol = s ∧ c.isActive = true
deriving Decidable

/-- An active currency of this symbol is listed that may stand in the middle of a route. -/
def IsTransit (currencies : List Currency) (s : String) : Prop :=
  ∃ c ∈ currencies, c.symbol = s ∧ c.isActive = true ∧ c.isTransitive = true
deriving Decidable

/-- **A usable rate** is positive and joins two different active currencies, and the conversion is
not forbidden. -/
structure Usable (currencies : List Currency) (forbidden : List ForbiddenPair) (r : Rate) :
    Prop where
  positive : 0 < r.rate.toRat
  differ : r.source ≠ r.dest
  source : IsActive currencies r.source
  dest : IsActive currencies r.dest
  allowed : ∀ p ∈ forbidden, p.pair ≠ r.pair

/-- **The rate of a pair that is used:** it is listed, it is usable, and no usable rate for the same
pair is listed before it. -/
def IsUsed (currencies : List Currency) (rates : List Rate) (forbidden : List ForbiddenPair)
    (r : Rate) : Prop :=
  Usable currencies forbidden r ∧
    ∃ before after, rates = before ++ r :: after ∧
      ∀ q ∈ before, Usable currencies forbidden q → q.pair ≠ r.pair

theorem mem_active :
    s ∈ (currencies.filter (·.isActive)).map (·.symbol) ↔ IsActive currencies s := by
  simp only [List.mem_map, List.mem_filter, IsActive]
  exact exists_congr fun c => by rw [and_assoc, and_comm (a := c.isActive = true)]

theorem mem_transit :
    s ∈ (currencies.filter fun c => c.isActive && c.isTransitive).map (·.symbol) ↔
      IsTransit currencies s := by
  simp only [List.mem_map, List.mem_filter, Bool.and_eq_true, IsTransit]
  exact exists_congr fun c => by rw [and_assoc, and_comm (b := c.symbol = s)]

/-- The test that a listed rate has to pass. -/
theorem usable_iff :
    (r.isValid && ((currencies.filter (·.isActive)).map (·.symbol)).contains r.source &&
        ((currencies.filter (·.isActive)).map (·.symbol)).contains r.dest &&
        !(forbidden.map ForbiddenPair.pair).contains r.pair) = true ↔
      Usable currencies forbidden r := by
  rw [Bool.and_eq_true, Bool.and_eq_true, Bool.and_eq_true, Rate.isValid, Bool.and_eq_true,
    Decimal.isPositive_iff, decide_eq_true_iff, List.contains_iff_mem, List.contains_iff_mem,
    mem_active, mem_active, Bool.not_eq_true', ← Bool.not_eq_true, List.contains_iff_mem,
    List.mem_map, not_exists]
  simp only [not_and, ← ne_eq]
  exact ⟨fun ⟨⟨⟨⟨h₁, h₂⟩, h₃⟩, h₄⟩, h₅⟩ => ⟨h₁, h₂, h₃, h₄, h₅⟩,
    fun h => ⟨⟨⟨⟨h.positive, h.differ⟩, h.source⟩, h.dest⟩, h.allowed⟩⟩

/-! ## 2. The first of the rates for each pair -/

/-- **A rate is kept just if it is the first** for its pair. -/
theorem mem_firstOfPairs :
    r ∈ Graph.firstOfPairs rates ↔ rates.find? (·.pair == r.pair) = some r := by
  induction rates with
  | nil => simp [Graph.firstOfPairs]
  | cons first rest ih =>
    rw [Graph.firstOfPairs, List.mem_cons, List.mem_filter, ih]
    by_cases hpair : first.pair = r.pair
    · rw [List.find?_cons, beq_iff_eq.2 hpair]
      simp [hpair, eq_comm]
    · rw [List.find?_cons, beq_eq_false_iff_ne.2 hpair]
      have hne : r ≠ first := fun h => hpair (h ▸ rfl)
      simp [hne, Ne.symm hpair]

/-- So the rates that are kept of the usable ones are those that are used. -/
theorem mem_firstOfPairs_filter {p : Rate → Bool}
    (hp : ∀ r, p r = true ↔ Usable currencies forbidden r) :
    r ∈ Graph.firstOfPairs (rates.filter p) ↔ IsUsed currencies rates forbidden r := by
  rw [mem_firstOfPairs, List.find?_filter, List.find?_eq_some_iff_append]
  simp only [IsUsed, ← hp]
  simp [imp_iff_not_or]

/-- No two of the rates that are kept join the same pair. -/
theorem pairwise_firstOfPairs (rates : List Rate) :
    (Graph.firstOfPairs rates).Pairwise fun a b => a.pair ≠ b.pair := by
  induction rates with
  | nil => exact .nil
  | cons first rest ih =>
    refine List.pairwise_cons.2 ⟨fun b hb => ?_, ih.filter _⟩
    have hne : b.pair ≠ first.pair := by simpa using (List.mem_filter.1 hb).2
    exact hne.symm

/-- Whether a rate is usable, and whether it is used, can be decided. -/
instance : Decidable (Usable currencies forbidden r) := decidable_of_iff _ usable_iff

instance : Decidable (IsUsed currencies rates forbidden r) :=
  decidable_of_iff (r ∈ Graph.firstOfPairs (rates.filter (Usable currencies forbidden ·)))
    (mem_firstOfPairs_filter fun _ => decide_eq_true_iff)

/-! ## 3. The graph -/

namespace Graph

theorem mem_nodes_build :
    s ∈ (build currencies rates forbidden maxHops).nodes ↔ IsActive currencies s :=
  mem_active

theorem contains_build :
    (build currencies rates forbidden maxHops).contains s = true ↔ IsActive currencies s :=
  List.contains_iff_mem.trans mem_active

theorem isHub_build :
    (build currencies rates forbidden maxHops).isHub s = true ↔ IsTransit currencies s :=
  List.contains_iff_mem.trans mem_transit

/-- **The edges** are the rates that are used. -/
theorem mem_edges_build :
    r ∈ (build currencies rates forbidden maxHops).edges ↔ IsUsed currencies rates forbidden r :=
  List.mem_mergeSort.trans (mem_firstOfPairs_filter fun _ => usable_iff)

/-- **The edges out of a currency are ordered.** -/
theorem ordered_build (currencies : List Currency) (rates : List Rate)
    (forbidden : List ForbiddenPair) (maxHops : Nat) :
    (build currencies rates forbidden maxHops).Ordered := by
  intro node
  have hsorted : (build currencies rates forbidden maxHops).edges.Pairwise fun a b =>
      symbolLE a.dest b.dest = true := by
    refine List.pairwise_mergeSort ?_ ?_ _
    · exact fun _ _ _ => symbolLE_trans
    · exact fun _ _ => symbolLE_total _ _
  have hdistinct : (build currencies rates forbidden maxHops).edges.Pairwise fun a b =>
      a.pair ≠ b.pair :=
    ((List.mergeSort_perm _ _).pairwise_iff Ne.symm).2 (pairwise_firstOfPairs _)
  refine ((hsorted.and hdistinct).filter _).imp_of_mem fun ha hb ⟨hle, hpair⟩ => ?_
  obtain ⟨-, rfl⟩ := mem_outgoing.1 ha
  obtain ⟨-, hsource⟩ := mem_outgoing.1 hb
  refine lt_of_le_of_ne (symbolLE_iff.1 hle) fun hdest => hpair ?_
  exact Prod.ext hsource.symm hdest

end Graph

end WalletLedger
