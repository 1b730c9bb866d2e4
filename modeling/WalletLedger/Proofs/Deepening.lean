/-
Searching depth by depth.

A shortest-first offer does not sort anything: it searches once for each number of hops, keeps the
routes of exactly that many, and starts again one hop deeper. A depth-first offer searches once.
What the first one yields is what the second one yields, stably sorted by hops
(`routes_shortestHops`).

The searches of an offer come one after the other, so the offer yields one walk for each depth
(`yields_deepening`). A walk of an exact length finds the routes of that length among those of a
longer walk, in the same order (`walk_exact`): whether a trail is found does not depend on where the
search is cut off, as long as it is not cut off before the trail ends. So both offers hold the same
routes of each length. And a list that is sorted by a key is determined by what it holds for each
value of the key (`eq_of_filter_eq`), which is why there is only one way to sort stably.
-/
import WalletLedger.Proofs.Routes

set_option autoImplicit false

namespace WalletLedger

/-! ## 1. Sorting by a key -/

section Keys

variable {α : Type} {key : α → Nat} {l l' : List α}

theorem mem_iff_of_filter_eq (h : ∀ k, l.filter (key · = k) = l'.filter (key · = k)) {a : α} :
    a ∈ l ↔ a ∈ l' := by
  have ha := congrArg (a ∈ ·) (h (key a))
  simpa using ha

/-- **A list that is sorted by a key** is determined by what it holds for each value of the key. -/
theorem eq_of_filter_eq (key : α → Nat) (h : l.Pairwise fun a b => key a ≤ key b)
    (h' : l'.Pairwise fun a b => key a ≤ key b)
    (hkeys : ∀ k, l.filter (key · = k) = l'.filter (key · = k)) : l = l' := by
  induction l generalizing l' with
  | nil =>
    refine (List.eq_nil_iff_forall_not_mem.2 fun a ha => ?_).symm
    exact List.not_mem_nil ((mem_iff_of_filter_eq hkeys).2 ha)
  | cons a rest ih =>
    cases l' with
    | nil => exact absurd ((mem_iff_of_filter_eq hkeys).1 List.mem_cons_self) List.not_mem_nil
    | cons b rest' =>
      rw [List.pairwise_cons] at h h'
      have hkey : key a = key b := by
        have hb := (mem_iff_of_filter_eq hkeys).2 (List.mem_cons_self (a := b))
        have ha := (mem_iff_of_filter_eq hkeys).1 (List.mem_cons_self (a := a))
        rcases List.mem_cons.1 hb with rfl | hb
        · rfl
        · rcases List.mem_cons.1 ha with rfl | ha
          · rfl
          · exact le_antisymm (h.1 b hb) (h'.1 a ha)
      have hfirst := hkeys (key a)
      rw [List.filter_cons_of_pos (by simp), List.filter_cons_of_pos (by simp [hkey])] at hfirst
      obtain ⟨rfl, hrest⟩ := List.cons_eq_cons.1 hfirst
      refine congrArg _ (ih h.2 h'.2 fun k => ?_)
      by_cases hk : key a = k
      · rw [← hk]
        exact hrest
      · have hothers := hkeys k
        rwa [List.filter_cons_of_neg (by simpa using hk),
          List.filter_cons_of_neg (by simpa using hk)] at hothers

theorem keyLE_trans (a b c : α) (hab : decide (key a ≤ key b) = true)
    (hbc : decide (key b ≤ key c) = true) : decide (key a ≤ key c) = true :=
  decide_eq_true (le_trans (of_decide_eq_true hab) (of_decide_eq_true hbc))

theorem keyLE_total (a b : α) : (decide (key a ≤ key b) || decide (key b ≤ key a)) = true := by
  rw [Bool.or_eq_true, decide_eq_true_iff, decide_eq_true_iff]
  exact le_total (key a) (key b)

/-- What is taken from a list by one value of the key is sorted. -/
theorem pairwise_filter_key (l : List α) (k : Nat) :
    (l.filter (key · = k)).Pairwise fun a b => key a ≤ key b := by
  refine List.pairwise_filter.2 (List.pairwise_of_forall fun a b ha hb => ?_)
  rw [of_decide_eq_true ha, of_decide_eq_true hb]

/-- Sorting by a key keeps what there is for each value of the key, in its order. -/
theorem filter_mergeSort (l : List α) (k : Nat) :
    (l.mergeSort fun a b => key a ≤ key b).filter (key · = k) = l.filter (key · = k) := by
  have hsub : (l.filter (key · = k)).Sublist (l.mergeSort fun a b => key a ≤ key b) :=
    List.sublist_mergeSort keyLE_trans keyLE_total
      ((pairwise_filter_key l k).imp fun h => decide_eq_true h) List.filter_sublist
  have hfilter := hsub.filter (key · = k)
  rw [List.filter_filter] at hfilter
  simp only [Bool.and_self] at hfilter
  have hperm := (List.mergeSort_perm l fun a b => key a ≤ key b).filter (key · = k)
  exact (hfilter.eq_of_length hperm.length_eq.symm).symm

/-- What there is for one value of the key, if one value is taken after the other. -/
theorem filter_flatMap_filter (l : List α) (n k : Nat) :
    ((List.range n).flatMap fun d => l.filter (key · = d + 1)).filter (key · = k) =
      l.filter fun a => key a = k ∧ 1 ≤ k ∧ k ≤ n := by
  induction n with
  | zero =>
    refine (List.filter_eq_nil_iff.2 fun a _ => ?_).symm
    simp only [decide_eq_true_eq]
    omega
  | succ n ih =>
    rw [List.range_succ, List.flatMap_append, List.filter_append, ih, List.flatMap_singleton,
      List.filter_filter]
    by_cases hk : k = n + 1
    · rw [List.filter_eq_nil_iff.2, List.nil_append]
      · exact List.filter_congr fun a _ => by simp [hk]
      · simp [hk]
    · rw [(List.filter_eq_nil_iff (l := l)
        (p := fun a => decide (key a = k) && decide (key a = n + 1))).2, List.append_nil]
      · refine List.filter_congr fun a _ => ?_
        simp only [decide_eq_decide]
        omega
      · simp only [Bool.and_eq_true, decide_eq_true_eq]
        omega

/-- **Sorting is taking one value of the key after the other.** -/
theorem flatMap_filter_eq_mergeSort {n : Nat} (hpos : ∀ a ∈ l, 1 ≤ key a)
    (hle : ∀ a ∈ l, key a ≤ n) :
    ((List.range n).flatMap fun d => l.filter (key · = d + 1)) =
      l.mergeSort fun a b => key a ≤ key b := by
  refine eq_of_filter_eq key ?_ ?_ fun k => ?_
  · rw [List.pairwise_flatMap]
    refine ⟨fun d _ => pairwise_filter_key l (d + 1), ?_⟩
    refine List.pairwise_lt_range.imp fun {d d'} hlt a ha b hb => ?_
    have hd := (List.mem_filter.1 ha).2
    have hd' := (List.mem_filter.1 hb).2
    rw [decide_eq_true_iff] at hd hd'
    omega
  · exact (List.pairwise_mergeSort keyLE_trans keyLE_total l).imp fun h => of_decide_eq_true h
  · rw [filter_flatMap_filter, filter_mergeSort]
    refine List.filter_congr fun a ha => ?_
    have h1 := hpos a ha
    have h2 := hle a ha
    simp only [decide_eq_decide]
    omega

/-- **Sorting is stable:** what has equal keys stays as it was ordered. -/
theorem pairwise_mergeSort_key {R : α → α → Prop} (h : l.Pairwise R) :
    (l.mergeSort fun a b => key a ≤ key b).Pairwise
      fun a b => key a < key b ∨ key a = key b ∧ R a b := by
  refine List.pairwise_iff_forall_sublist.2 fun {a b} hab => ?_
  have hle : key a ≤ key b :=
    of_decide_eq_true (List.pairwise_iff_forall_sublist.1
      (List.pairwise_mergeSort keyLE_trans keyLE_total l) hab)
  refine hle.lt_or_eq.imp_right fun heq => ⟨heq, ?_⟩
  have hfilter := hab.filter (key · = key a)
  rw [filter_mergeSort, List.filter_eq_self.2 (by simp [heq])] at hfilter
  exact List.pairwise_iff_forall_sublist.1 h (hfilter.trans List.filter_sublist)

end Keys

/-! ## 2. Walks of an exact length -/

namespace Graph

variable {g : Graph} {source dest : String} {hops d : Nat} {route : Route}

/-- A route that a walk finds has at least one hop, and at most those of the walk. -/
theorem hops_of_mem_walk {exact : Bool} (h : route ∈ g.walk source dest exact hops) :
    1 ≤ route.hops ∧ route.hops ≤ hops := by
  obtain ⟨htrail, hle, -⟩ := mem_walk.1 h
  exact ⟨List.length_pos_iff.2 htrail.nonempty, hle⟩

/-- **A walk of an exact length** finds the routes of that length among those of a longer one. -/
theorem walk_exact (h : g.Ordered) (hle : d ≤ hops) :
    g.walk source dest true d = (g.walk source dest false hops).filter (·.hops = d) := by
  refine eq_of_ordered (h.walk source dest true d)
    ((h.walk source dest false hops).sublist List.filter_sublist) fun route => ?_
  rw [List.mem_filter, mem_walk, mem_walk, decide_eq_true_iff]
  constructor
  · rintro ⟨htrail, hhops, hexact, hsource, hdest, hrate⟩
    exact ⟨⟨htrail, hhops.trans hle, nofun, hsource, hdest, hrate⟩, hexact rfl⟩
  · rintro ⟨⟨htrail, -, -, hsource, hdest, hrate⟩, hhops⟩
    exact ⟨htrail, hhops.le, fun _ => hhops, hsource, hdest, hrate⟩

/-- **Walking once for each length** finds what one walk finds, sorted by hops. -/
theorem flatMap_walk_exact (h : g.Ordered) (source dest : String) (hops : Nat) :
    ((List.range hops).flatMap fun d => g.walk source dest true (d + 1)) =
      (g.walk source dest false hops).mergeSort fun a b => a.hops ≤ b.hops := by
  rw [← flatMap_filter_eq_mergeSort (fun _ ha => (hops_of_mem_walk ha).1)
    (fun _ ha => (hops_of_mem_walk ha).2)]
  refine List.flatMap_congr fun d hd => walk_exact h ?_
  have hlt := List.mem_range.1 hd
  omega

end Graph

/-! ## 3. What a shortest-first offer yields -/

/-- A search that went on starts again like before. -/
theorem PathSearch.restart_of_round {g : Graph} {s s' : PathSearch}
    (h : s.round g = .onward s' ∨ ∃ route, s.round g = .found route s') (hops : Nat) :
    s'.restart g hops = s.restart g hops := by
  rcases h with h | ⟨route, h⟩
  · simp only [round] at h
    split at h
    · cases h
    · split at h
      · cases h
        rfl
      · split_ifs at h <;> try cases h; rfl
        split at h <;> cases h
        rfl
  · simp only [round] at h
    split at h
    · cases h
    · split at h
      · cases h
      · split_ifs at h
        split at h <;> cases h
        rfl

namespace Offer

variable {g : Graph} {s : PathSearch} {depth : Nat} {routes later : List Route}

/-- **One depth:** what the search yields comes first, and then what the offer yields that goes on
one hop deeper, if there is a deeper one. -/
theorem yields_depth (h : Yields (PathSearch.round g) s routes)
    (hlast : g.maxHops ≤ depth → later = [])
    (hdeeper : depth < g.maxHops →
      Yields (round g) (.deepening (depth + 1) (s.restart g (depth + 1))) later) :
    Yields (round g) (.deepening depth s) (routes ++ later) := by
  induction h with
  | ended hs =>
    by_cases hmax : g.maxHops ≤ depth
    · rw [hlast hmax]
      exact .ended (by simp only [round, hs, if_pos hmax])
    · exact .onward (by simp only [round, hs, if_neg hmax]) (hdeeper (by omega))
  | onward hs _ ih =>
    rw [← PathSearch.restart_of_round (.inl hs)] at hdeeper
    exact .onward (by simp only [round, hs]) (ih hdeeper)
  | found hs _ ih =>
    rw [← PathSearch.restart_of_round (.inr ⟨_, hs⟩)] at hdeeper
    exact .found (by simp only [round, hs]) (ih hdeeper)

/-- **All depths:** an offer yields one walk for each depth that is left. -/
theorem yields_deepening (source dest : String) (hsource : g.contains source = true)
    (depth more : Nat) (hmax : g.maxHops = depth + 1 + more) :
    Yields (round g) (.deepening (depth + 1) (.start g source dest (depth + 1) true))
      ((List.range' (depth + 1) (more + 1)).flatMap (g.walk source dest true)) := by
  have hsearch := PathSearch.yields_start source dest depth true hsource
  induction more generalizing depth with
  | zero => exact yields_depth hsearch (fun _ => rfl) (fun hlt => by omega)
  | succ more ih =>
    have hrest := ih (depth + 1) (by omega)
      (PathSearch.yields_start source dest (depth + 1) true hsource)
    rw [List.range'_succ, List.flatMap_cons]
    exact yields_depth hsearch (fun hle => by omega) fun _ => hrest

/-- **A shortest-first offer yields the routes that the graph lists.** -/
theorem yields_shortestHops (hnodes : ∀ e ∈ g.edges, e.dest ∈ g.nodes) (hordered : g.Ordered)
    (hmax : 1 ≤ g.maxHops) (source dest : String) :
    Yields (round g) (start g source dest .shortestHops) (g.routes source dest .shortestHops) := by
  unfold start Graph.routes
  split_ifs with hactive hsame
  · exact .ended rfl
  · exact .found rfl (.ended rfl)
  · have hsource : g.contains source = true := by simp_all
    obtain ⟨more, hmore⟩ := Nat.exists_eq_add_of_le hmax
    have hyields := yields_deepening source dest hsource 0 more (by omega)
    rw [Nat.zero_add, Nat.add_comm more, ← hmore, List.range'_eq_map_range,
      List.flatMap_map] at hyields
    -- The list is cut off at the number of currencies, and the offer is not.
    have hroutes := Graph.flatMap_walk_exact hordered source dest g.hopBound
    rw [Graph.walk_hopBound hnodes hordered, ← Graph.flatMap_walk_exact hordered] at hroutes
    simp only [hroutes]
    simpa only [Nat.add_comm 1] using hyields

end Offer

/-! ## 4. Both ways of routing -/

namespace Graph

/-- **The routes of fewest hops first** are those of a depth-first walk, sorted by hops. -/
theorem routes_eq_mergeSort {g : Graph} (h : g.Ordered) (source dest : String) :
    g.routes source dest .shortestHops =
      (g.routes source dest .depthFirst).mergeSort fun a b => a.hops ≤ b.hops := by
  unfold routes
  split_ifs
  · exact List.mergeSort_nil.symm
  · exact (List.mergeSort_singleton _).symm
  · exact flatMap_walk_exact h source dest g.hopBound

/-- Depth-first routing lists the routes by the symbols that they pass, strictly. -/
theorem Ordered.routes {g : Graph} (h : g.Ordered) (source dest : String) :
    (g.routes source dest .depthFirst).Pairwise fun a b => a.symbols < b.symbols := by
  unfold Graph.routes
  split_ifs
  · exact .nil
  · exact List.pairwise_singleton _ _
  · exact h.walk source dest false g.hopBound

/-- **Both ways of routing offer the same routes.** The rounds of both come to an end, whatever the
graph was built from. What a shortest-first offer yields is what a depth-first offer yields, stably
sorted by hops: the same routes at the same rates, each once, those of fewer hops first, and those
of as many hops in the order of the bytes of the symbols that they pass. -/
theorem routes_shortestHops (currencies : List Currency) (rates : List Rate)
    (forbidden : List ForbiddenPair) (maxHops : Nat) (source dest : String) :
    ∃ shortest deep,
      Yields (Offer.round (build currencies rates forbidden maxHops))
        (Offer.start (build currencies rates forbidden maxHops) source dest .shortestHops)
        shortest ∧
      Yields (Offer.round (build currencies rates forbidden maxHops))
        (Offer.start (build currencies rates forbidden maxHops) source dest .depthFirst) deep ∧
      shortest = (build currencies rates forbidden maxHops).routes source dest .shortestHops ∧
      deep = (build currencies rates forbidden maxHops).routes source dest .depthFirst ∧
      shortest = deep.mergeSort (fun a b => a.hops ≤ b.hops) ∧
      shortest.Perm deep ∧ shortest.Nodup ∧ deep.Nodup ∧
      shortest.Pairwise fun a b =>
        a.hops < b.hops ∨
          a.hops = b.hops ∧ a.symbols.map utf8Bytes < b.symbols.map utf8Bytes := by
  have hnodes := dest_mem_nodes_build currencies rates forbidden maxHops
  have hordered := ordered_build currencies rates forbidden maxHops
  have hmax := le_max_right maxHops 1
  have hsorted := routes_eq_mergeSort hordered source dest
  have hperm : ((build currencies rates forbidden maxHops).routes source dest .shortestHops).Perm
      ((build currencies rates forbidden maxHops).routes source dest .depthFirst) := by
    rw [hsorted]
    exact List.mergeSort_perm _ _
  have hroutes := hordered.routes source dest
  have hnodup :
      ((build currencies rates forbidden maxHops).routes source dest .depthFirst).Nodup := by
    refine hroutes.imp ?_
    rintro a b hlt rfl
    exact List.lt_irrefl _ hlt
  refine ⟨_, _, Offer.yields_shortestHops hnodes hordered hmax source dest,
    Offer.yields_depthFirst hnodes hordered hmax source dest, rfl, rfl, hsorted, hperm,
    hperm.nodup_iff.2 hnodup, hnodup, ?_⟩
  rw [hsorted]
  exact pairwise_mergeSort_key (hroutes.imp fun hlt => List.map_lt (fun _ _ => utf8Bytes_lt) hlt)

end Graph

end WalletLedger
