/-
When the rate of a route is positive.

Every rate that a graph uses is positive, and so is every product of them. The rate of a route is
not their product, though: it is multiplied from the left, and each product is brought into range
before the next. A product that is too large is refused, and the route is left out. A product that
is too small is rounded to zero, and the route is offered at that rate.

A product of two positive decimals is rounded to zero if it is at most half of the least positive
decimal (`mul?_pos_iff`). Digits that are shed because the coefficient is too large have no part in
that, since they leave a large number. So whether a route has a usable rate is seen from the
products on its way: it has one if none of them vanishes, and only then (`rate_pos_iff`).
-/
import WalletLedger.Proofs.Deepening
import WalletLedger.Proofs.Rounding

set_option autoImplicit false

namespace WalletLedger

namespace Decimal

/-! ## 1. Products that vanish -/

/-- **A positive number vanishes** where it is rounded if it is at most half of the least positive
decimal. -/
def Vanishes (x : ℚ) : Prop := x ≤ 1 / 2 / 10 ^ 28

/-- Rounding leaves nothing of what is at most a half, as zero is even. -/
theorem roundHalfEven_pos_iff {m d : Nat} (hd : 0 < d) : 0 < roundHalfEven m d ↔ d < 2 * m := by
  rcases Nat.lt_or_ge m d with hlt | hge
  · simp only [roundHalfEven, Nat.div_eq_of_lt hlt, Nat.mod_eq_of_lt hlt]
    split_ifs <;> omega
  · have hone : 1 ≤ m / d := Nat.div_pos hge hd
    exact iff_of_true (hone.trans (le_roundHalfEven m d)) (by omega)

/-- The same of a fraction, whatever it is that was shed of it. -/
theorem not_vanishes_iff {m s : Nat} :
    ¬Vanishes (m / 10 ^ s) ↔ pow10 s < 2 * m * pow10 28 := by
  rw [Vanishes, not_le, div_div, div_lt_div_iff₀ (by positivity) (ten_pow_pos s), one_mul,
    ← pow10_cast, ← pow10_cast, ← mul_assoc, mul_comm (m : ℚ) 2]
  exact_mod_cast Iff.rfl

theorem fit?_nonneg {m s : Nat} {c : Decimal} (h : fit? m s = some c) : 0 ≤ c.toRat := by
  obtain ⟨k, -, -, -, hcoeff, -⟩ := fit?_eq_some h
  rw [toRat_eq, hcoeff, shed_natCast, Int.cast_natCast]
  positivity

/-- A coefficient that was too large leaves something when one digit more is shed. -/
theorem roundHalfEven_pos_of_large {m j : Nat} (h : pow2 96 ≤ roundHalfEven m (pow10 j)) :
    0 < roundHalfEven m (pow10 (j + 1)) ∧ pow10 j < 2 * m := by
  have hmax : 1 < pow2 96 := by decide
  have hleft := le_mul_roundHalfEven (pow10_pos j) h
  rw [Nat.mul_comm 10 (pow10 j), ← pow10_succ] at hleft
  exact ⟨by omega, (roundHalfEven_pos_iff (pow10_pos j)).1 (by omega)⟩

/-- Whether a number vanishes is seen from the digits beyond the 28th place. -/
theorem not_vanishes_iff_of_shed {m s : Nat} (hm : 0 < m) :
    ¬Vanishes (m / 10 ^ s) ↔ pow10 (s - 28) < 2 * m := by
  rw [not_vanishes_iff]
  rcases Nat.le_total 28 s with hle | hle
  · have hsplit : pow10 s = pow10 (s - 28) * pow10 28 := by
      rw [pow10_eq, pow10_eq, pow10_eq, ← pow_add, Nat.sub_add_cancel hle]
    rw [hsplit, Nat.mul_lt_mul_right (pow10_pos 28)]
  · -- There are none, and the number is at least the least decimal.
    have hone : pow10 28 < 2 * m * pow10 28 :=
      (Nat.lt_mul_iff_one_lt_left (pow10_pos 28)).2 (by omega)
    rw [Nat.sub_eq_zero_of_le hle, pow10_zero]
    exact iff_of_true ((Nat.pow_le_pow_right (by decide) hle).trans_lt hone) (by omega)

/-- **What is left of a number** that is brought into range: nothing if it vanishes, and otherwise
something, since digits that are shed for the size of the coefficient leave a large one. -/
theorem fit?_pos_iff {m s : Nat} {c : Decimal} (hm : 0 < m) (h : fit? m s = some c) :
    0 < c.toRat ↔ ¬Vanishes (m / 10 ^ s) := by
  obtain ⟨k, hks, hfits, hleast, hcoeff, -⟩ := fit?_eq_some h
  have hk : s - 28 ≤ k := by
    simp only [fitsAfter, Bool.and_eq_true, decide_eq_true_eq] at hfits
    exact hfits.1
  rw [toRat_eq, hcoeff, shed_natCast, Int.cast_natCast, div_pos_iff_of_pos_right (ten_pow_pos _),
    Nat.cast_pos, not_vanishes_iff_of_shed hm]
  rcases Nat.lt_or_eq_of_le hk with hlt | heq
  · -- One digit less would have left too large a number.
    obtain ⟨j, rfl⟩ := Nat.exists_eq_add_one_of_ne_zero (Nat.ne_zero_of_lt hlt)
    have hlarge : pow2 96 ≤ roundHalfEven m (pow10 j) := by
      have hfail := hleast j (Nat.lt_succ_self j)
      simp only [fitsAfter, Bool.and_eq_false_iff, decide_eq_false_iff_not, not_le, not_lt,
        natAbs_shed, Int.natAbs_natCast] at hfail
      exact hfail.resolve_left (by omega)
    obtain ⟨hleft, hj⟩ := roundHalfEven_pos_of_large hlarge
    have hs : pow10 (s - 28) ≤ pow10 j := Nat.pow_le_pow_right (by decide) (by omega)
    exact iff_of_true hleft (hs.trans_lt hj)
  · rw [← heq, roundHalfEven_pos_iff (pow10_pos _)]

/-- The coefficient of a positive number. -/
theorem exists_coeff {a : Decimal} (h : 0 < a.toRat) : ∃ m : Nat, 0 < m ∧ a.coeff = m := by
  rw [toRat_eq, div_pos_iff_of_pos_right (ten_pow_pos _), Int.cast_pos] at h
  obtain ⟨m, hm⟩ := Int.eq_ofNat_of_zero_le h.le
  exact ⟨m, by rw [hm] at h; exact_mod_cast h, hm⟩

/-- **How two positive numbers are multiplied:** their product is brought into range, or it is taken
for zero and vanishes. -/
theorem mul?_cases {a b c : Decimal} (ha : 0 < a.toRat) (hb : 0 < b.toRat)
    (h : a.mul? b = some c) :
    c.toRat = 0 ∧ Vanishes (a.toRat * b.toRat) ∨
      ∃ m s : Nat, 0 < m ∧ a.toRat * b.toRat = m / 10 ^ s ∧ fit? m s = some c := by
  have hzero : (a.isZero || b.isZero) = false := by
    rw [Bool.or_eq_false_iff, ← Bool.not_eq_true, ← Bool.not_eq_true, isZero_iff, isZero_iff]
    exact ⟨ha.ne', hb.ne'⟩
  obtain ⟨m, hmpos, hm⟩ := exists_coeff ha
  obtain ⟨n, hnpos, hn⟩ := exists_coeff hb
  have hvalue : a.toRat * b.toRat = (m * n : Nat) / 10 ^ (a.scale + b.scale) := by
    rw [toRat_eq, toRat_eq, hm, hn, div_mul_div_comm, ← pow_add]
    push_cast
    rfl
  rw [mul?, hzero, if_neg Bool.false_ne_true] at h
  split_ifs at h with hsmall
  · -- Two short coefficients with many fractional digits are not even looked at.
    simp only [Bool.and_eq_true, decide_eq_true_eq, hm, hn, Int.natAbs_natCast] at hsmall
    cases h
    refine .inl ⟨toRat_zero, ?_⟩
    rw [hvalue, ← not_not (a := Vanishes _), not_vanishes_iff, not_lt]
    calc 2 * (m * n) * pow10 28 ≤ 2 * (pow2 32 * pow2 32) * pow10 28 :=
          Nat.mul_le_mul_right _ (Nat.mul_le_mul_left 2
            (Nat.mul_le_mul hsmall.1.1.le hsmall.1.2.le))
      _ ≤ pow10 48 := by decide
      _ ≤ pow10 (a.scale + b.scale) := Nat.pow_le_pow_right (by decide) hsmall.2
  · refine .inr ⟨m * n, a.scale + b.scale, Nat.mul_pos hmpos hnpos, hvalue, ?_⟩
    rw [← h, hm, hn]
    rfl

/-- **When a product is rounded to zero:** if it vanishes, and only then. -/
theorem mul?_pos_iff {a b c : Decimal} (ha : 0 < a.toRat) (hb : 0 < b.toRat)
    (h : a.mul? b = some c) :
    0 ≤ c.toRat ∧ (0 < c.toRat ↔ ¬Vanishes (a.toRat * b.toRat)) := by
  rcases mul?_cases ha hb h with ⟨hzero, hvanishes⟩ | ⟨m, s, hm, hvalue, hfit⟩
  · exact ⟨hzero.ge, iff_of_false hzero.not_gt (not_not.2 hvanishes)⟩
  · rw [hvalue]
    exact ⟨fit?_nonneg hfit, fit?_pos_iff hm hfit⟩

/-- A product with zero is zero. -/
theorem mul?_of_eq_zero {a b c : Decimal} (ha : a.toRat = 0) (h : a.mul? b = some c) :
    c.toRat = 0 := by
  rw [mul?, (isZero_iff a).2 ha, Bool.true_or, if_pos rfl] at h
  cases h
  exact toRat_zero

end Decimal

/-! ## 2. Products along a chain -/

namespace Route

variable {es : List Rate} {rate : Decimal}

/-- **No product on the way vanishes:** none of the products of the rates so far with the next. -/
def StaysPositive (es : List Rate) : Prop :=
  ∀ before e, before ++ [e] <+: es → ∀ product, composite? before = some product →
    ¬Decimal.Vanishes (product.toRat * e.rate.toRat)

/-- The last rate is multiplied with the product of those before. -/
theorem composite?_append (es : List Rate) (e : Rate) :
    composite? (es ++ [e]) = (composite? es).bind (·.mul? e.rate) := by
  simp only [composite?, List.foldlM_append, List.foldlM_cons, List.foldlM_nil, bind_pure]
  rfl

theorem staysPositive_append {e : Rate} :
    StaysPositive (es ++ [e]) ↔ StaysPositive es ∧
      ∀ product, composite? es = some product →
        ¬Decimal.Vanishes (product.toRat * e.rate.toRat) := by
  constructor
  · intro h
    exact ⟨fun before e' hinit => h before e' (hinit.trans (List.prefix_append es [e])),
      h es e (List.prefix_refl _)⟩
  · rintro ⟨hes, hlast⟩ before e' hinit
    rcases List.prefix_concat_iff.1 hinit with heq | hinit
    · obtain ⟨rfl, he⟩ := List.append_inj' heq rfl
      obtain rfl := List.singleton_inj.1 he
      exact hlast
    · exact hes before e' hinit

/-- **The rate of a chain of positive rates** is not negative, and it is positive if no product on
the way vanishes. -/
theorem composite?_pos_iff (hpos : ∀ e ∈ es, 0 < e.rate.toRat) (h : composite? es = some rate) :
    0 ≤ rate.toRat ∧ (0 < rate.toRat ↔ StaysPositive es) := by
  induction es using List.reverseRecOn generalizing rate with
  | nil =>
    cases h
    have hone : (0 : ℚ) < Decimal.one.toRat := by decide +kernel
    exact ⟨hone.le, iff_of_true hone fun before e hinit => by simp at hinit⟩
  | append_singleton es e ih =>
    rw [List.forall_mem_append, List.forall_mem_singleton] at hpos
    rw [composite?_append, Option.bind_eq_some_iff] at h
    obtain ⟨product, hproduct, hmul⟩ := h
    obtain ⟨hnonneg, hiff⟩ := ih hpos.1 hproduct
    rw [staysPositive_append, ← hiff, hproduct]
    simp only [Option.some.injEq, forall_eq']
    rcases hnonneg.eq_or_lt with hzero | hlt
    · -- Once a product is zero, all that follow are.
      have hrate := Decimal.mul?_of_eq_zero hzero.symm hmul
      exact ⟨hrate.ge, iff_of_false hrate.not_gt fun h => hzero.not_lt h.1⟩
    · obtain ⟨hrate, hrate'⟩ := Decimal.mul?_pos_iff hlt hpos.2 hmul
      exact ⟨hrate, hrate'.trans (and_iff_right hlt).symm⟩

end Route

/-! ## 3. Routes -/

variable {currencies : List Currency} {rates : List Rate} {forbidden : List ForbiddenPair}
  {maxHops : Nat} {source dest : String} {policy : RoutePolicy} {route : Route}

/-- **The rounds of an offer come to an end,** with the routes that the graph lists. -/
theorem Offer.yields_routes (currencies : List Currency) (rates : List Rate)
    (forbidden : List ForbiddenPair) (maxHops : Nat) (source dest : String)
    (policy : RoutePolicy) :
    Yields (round (.build currencies rates forbidden maxHops))
      (start (.build currencies rates forbidden maxHops) source dest policy)
      ((Graph.build currencies rates forbidden maxHops).routes source dest policy) := by
  have hnodes := Graph.dest_mem_nodes_build currencies rates forbidden maxHops
  have hordered := Graph.ordered_build currencies rates forbidden maxHops
  cases policy with
  | depthFirst => exact yields_depthFirst hnodes hordered (le_max_right maxHops 1) source dest
  | shortestHops => exact yields_shortestHops hnodes hordered (le_max_right maxHops 1) source dest

namespace Graph

/-- A route has rates of the graph and their composite rate. -/
theorem of_mem_routes {g : Graph} (h : route ∈ g.routes source dest policy) :
    (∀ e ∈ route.edges, e ∈ g.edges) ∧ Route.composite? route.edges = some route.rate := by
  have hwalk : ∀ {exact hops}, route ∈ g.walk source dest exact hops →
      (∀ e ∈ route.edges, e ∈ g.edges) ∧ Route.composite? route.edges = some route.rate := by
    intro exact hops hmem
    obtain ⟨htrail, -, -, -, -, hrate⟩ := mem_walk.1 hmem
    exact ⟨htrail.edges, hrate⟩
  unfold routes at h
  split_ifs at h
  · cases h
  · rw [List.mem_singleton.1 h]
    exact ⟨nofun, rfl⟩
  · cases policy with
    | depthFirst => exact hwalk h
    | shortestHops =>
      obtain ⟨d, -, hmem⟩ := List.mem_flatMap.1 h
      exact hwalk hmem

/-- Both policies offer the same routes between two different currencies. -/
theorem mem_routes_build (hsource : IsActive currencies source) (hdest : IsActive currencies dest)
    (hne : source ≠ dest) :
    route ∈ (build currencies rates forbidden maxHops).routes source dest policy ↔
      Offered currencies rates forbidden maxHops source dest route := by
  have hordered := ordered_build currencies rates forbidden maxHops
  have hdeep : (build currencies rates forbidden maxHops).routes source dest .depthFirst =
      (build currencies rates forbidden maxHops).walk source dest false (max maxHops 1) := by
    rw [routes, contains_build.2 hsource, contains_build.2 hdest, if_neg (by decide), if_neg hne]
    exact walk_hopBound (dest_mem_nodes_build currencies rates forbidden maxHops) hordered _ _
  cases policy with
  | depthFirst => rw [hdeep, mem_walk_build]
  | shortestHops => rw [routes_eq_mergeSort hordered, List.mem_mergeSort, hdeep, mem_walk_build]

/-- **Which routes have a usable rate.** The rounds of an offer come to an end, and each route that
they yield has positive rates on its way. Its composite rate is not negative, and it is positive
just if no product on the way vanishes. -/
theorem rate_pos_iff (currencies : List Currency) (rates : List Rate)
    (forbidden : List ForbiddenPair) (maxHops : Nat) (source dest : String)
    (policy : RoutePolicy) :
    ∃ routes,
      Yields (Offer.round (build currencies rates forbidden maxHops))
        (Offer.start (build currencies rates forbidden maxHops) source dest policy) routes ∧
      ∀ route ∈ routes, (∀ e ∈ route.edges, e.rate.isPositive = true) ∧
        route.rate.isNegative = false ∧
        (route.rate.isPositive = true ↔ Route.StaysPositive route.edges) := by
  refine ⟨_, Offer.yields_routes currencies rates forbidden maxHops source dest policy,
    fun route hroute => ?_⟩
  obtain ⟨hedges, hrate⟩ := of_mem_routes hroute
  have hpos : ∀ e ∈ route.edges, 0 < e.rate.toRat :=
    fun e he => (mem_edges_build.1 (hedges e he)).1.positive
  rw [Decimal.isNegative_eq_false_iff, Decimal.isPositive_iff]
  exact ⟨fun e he => (Decimal.isPositive_iff _).2 (hpos e he), Route.composite?_pos_iff hpos hrate⟩

end Graph

namespace Small

/-- A rate so low that the product of two of them vanishes. -/
def thin (source dest : String) : Rate := ⟨source, dest, (Decimal.fit? 1 15).getD .zero⟩

def thinned : List Rate := [thin "ETH" "Z", thin "Z" "USDT"]

/-- The route along both rates, whose composite rate is zero. -/
def nothing : Route := ⟨"ETH", "USDT", thinned, (Decimal.fit? 0 28).getD .zero⟩

end Small

open WalletLedger.Small in
/-- The route through the third currency has a usable rate. -/
theorem Graph.rate_pos_iff_small :
    ∃ routes,
      Yields (Offer.round (build traded listed closed 4))
        (Offer.start (build traded listed closed 4) "ETH" "USDT" .shortestHops) routes ∧
      viaZ ∈ routes ∧ viaZ.rate.isPositive = true ∧ Route.StaysPositive viaZ.edges := by
  obtain ⟨routes, hyields, hroutes⟩ :=
    rate_pos_iff traded listed closed 4 "ETH" "USDT" .shortestHops
  obtain rfl := hyields.unique (Offer.yields_routes traded listed closed 4 _ _ _)
  have hmem : viaZ ∈ (build traded listed closed 4).routes "ETH" "USDT" .shortestHops :=
    (mem_routes_build (by decide) (by decide) (by decide)).2 viaZ_offered
  exact ⟨_, hyields, hmem, by decide, (hroutes viaZ hmem).2.2.1 (by decide)⟩

open WalletLedger.Small in
/-- **A route is offered at no rate:** both of its rates are positive, and the composite rate is
zero. -/
theorem Graph.route_at_zero :
    ∃ routes,
      Yields (Offer.round (build traded thinned [] 4))
        (Offer.start (build traded thinned [] 4) "ETH" "USDT" .shortestHops) routes ∧
      ∃ route ∈ routes, route.rate.isPositive = false ∧
        ∀ e ∈ route.edges, e.rate.isPositive = true := by
  have hoffered : Offered traded thinned [] 4 "ETH" "USDT" nothing :=
    ⟨rfl, rfl, ⟨rfl, rfl, rfl⟩, by decide +kernel, by decide, by decide, by decide, by decide,
      by decide +kernel⟩
  have hmem : nothing ∈ (build traded thinned [] 4).routes "ETH" "USDT" .shortestHops :=
    (mem_routes_build (by decide) (by decide) (by decide)).2 hoffered
  exact ⟨_, Offer.yields_routes traded thinned [] 4 _ _ _, nothing, hmem, by decide, by decide⟩

end WalletLedger
