/-
What is locked is what was quoted, and it is what is paid.

Reserving and quoting look up the same things in two ways: reserving asks for both currencies and
quoting for one, and each goes on to the first route of the graph on its own. That they come to the
same decimal (`quote_of_reserve`) has little to do with arithmetic. It has to be shown that they are
told the same, also where calls to the stores fail. Both consult the faults of the listings when
they build the graph, and the one call for a currency that reserving makes on top of quoting
consults other faults (`Heeds`).

After that the amount is a number in a row. No change of the rates or of the currencies gets at it,
and nothing else does that leaves the reservations alone. Under an attempt that is new, an advance
that has a receipt has posted both legs now, for the amounts of the row, whatever failed on the way
(`ends_settle_delivered`).
-/
import WalletLedger.Proofs.EarlyCalls
import WalletLedger.Proofs.Liquidity
import WalletLedger.Proofs.Recovery

set_option autoImplicit false

namespace WalletLedger

open WalletLedger.Action

/-! ## 1. Which faults a call consults -/

namespace Fault

variable {name : String} {names : List String}

/-- The faults in the calls of some names. -/
def among (names : List String) (armed : List Fault) : List Fault :=
  armed.filter fun f => names.contains f.method

theorem among_cons (f : Fault) (armed : List Fault) :
    among names (f :: armed) =
      if names.contains f.method then f :: among names armed else among names armed :=
  List.filter_cons

/-- **A fault decides or is passed over,** whatever faults stand behind it. -/
theorem consult_cons (name : String) (f : Fault) :
    (∃ mode f', f.method = name ∧ f'.method = name ∧
      ∀ rest, consult name (f :: rest) = (mode, f' :: rest)) ∨
    ∀ rest, consult name (f :: rest) = ((consult name rest).1, f :: (consult name rest).2) := by
  by_cases hf : (f.method = name && 0 < f.count) = true
  · have hname : f.method = name := of_decide_eq_true (Bool.and_eq_true_iff.1 hf).1
    refine .inl ?_
    by_cases hskip : 0 < f.skip
    · exact ⟨none, { f with skip := f.skip - 1 }, hname, hname, fun rest => by
        rw [consult, if_pos hf, if_pos hskip]⟩
    · exact ⟨some f.mode, { f with count := f.count - 1 }, hname, hname, fun rest => by
        rw [consult, if_pos hf, if_neg hskip]⟩
  · exact .inr fun rest => if_neg hf

/-- A call consults the faults of its own name. -/
theorem consult_among (h : names.contains name = true) (armed : List Fault) :
    consult name (among names armed) =
      ((consult name armed).1, among names (consult name armed).2) := by
  induction armed with
  | nil => rfl
  | cons f rest ih =>
    rcases consult_cons name f with ⟨mode, f', hf, hf', hdecides⟩ | hpasses
    · rw [hdecides, among_cons, among_cons, hf, hf', if_pos h, if_pos h, hdecides]
    · rw [hpasses, among_cons, among_cons]
      split_ifs
      · rw [hpasses, ih]
      · exact ih

/-- And it leaves those of other names as they are. -/
theorem among_consult (h : ¬names.contains name = true) (armed : List Fault) :
    among names (consult name armed).2 = among names armed := by
  induction armed with
  | nil => rfl
  | cons f rest ih =>
    rcases consult_cons name f with ⟨mode, f', hf, hf', hdecides⟩ | hpasses
    · rw [hdecides, among_cons, among_cons, hf, hf', if_neg h, if_neg h]
    · rw [hpasses, among_cons, among_cons, ih]

end Fault

/-! ## 2. Actions that heed some faults only -/

namespace Ledger

variable {α β : Type} {l l' : Ledger (Faulty Memory)} {t : Terms} {names : List String}

/-- The ledger with the faults in the calls of some names only. -/
def facing (l : Ledger (Faulty Memory)) (names : List String) : Ledger (Faulty Memory) :=
  l.rearmed (Fault.among names l.stores.armed)

/-- **An action that heeds only the faults in the calls of some names:** without the others it runs
in the same way. -/
def Heeds (names : List String) (a : Action (Ledger (Faulty Memory)) α) : Prop :=
  ∀ l, a.runIn (l.facing names) = ((a.runIn l).1, (a.runIn l).2.facing names)

/-- Where these faults are the same, so is the answer. -/
theorem Heeds.congr {a : Action (Ledger (Faulty Memory)) α} (ha : Heeds names a)
    (h : l.facing names = l'.facing names) : (a.runIn l).1 = (a.runIn l').1 := by
  have hrun := (ha l).symm.trans (h ▸ ha l')
  exact (Prod.mk.inj hrun).1

theorem heeds_pure (v : α) : Heeds names (pure v : Action (Ledger (Faulty Memory)) α) :=
  fun _ => rfl

theorem heeds_refuse (cause : Error) :
    Heeds names (refuse cause : Action (Ledger (Faulty Memory)) α) :=
  fun _ => rfl

theorem Heeds.bind {a : Action (Ledger (Faulty Memory)) α}
    {f : α → Action (Ledger (Faulty Memory)) β} (ha : Heeds names a)
    (hf : ∀ v, Heeds names (f v)) : Heeds names (a >>= f) := by
  intro l
  rw [runIn_bind, runIn_bind, ha l]
  generalize a.runIn l = run
  obtain ⟨result, l'⟩ := run
  cases result with
  | ok v => exact hf v l'
  | error stop => rfl

theorem heeds_ask {c : Call α} (h : names.contains c.name = true) : Heeds names (ask c) := by
  intro l
  have hconsult : Fault.consult c.name (l.facing names).stores.armed =
      ((Fault.consult c.name l.stores.armed).1,
        Fault.among names (Fault.consult c.name l.stores.armed).2) :=
    Fault.consult_among h l.stores.armed
  rw [runIn_ask_struck, runIn_ask_struck, hconsult]
  rfl

theorem heeds_orRefuse (cause : Error) (o : Option α) :
    Heeds names (orRefuse cause o : Action (Ledger (Faulty Memory)) α) := by
  cases o with
  | some v => exact heeds_pure v
  | none => exact heeds_refuse cause

/-- The calls by which the graph is built. -/
def listings : List String := ["list_currencies", "list_rates", "list_forbidden"]

theorem heeds_firstRoute (source dest : String) :
    Heeds listings (firstRoute t source dest) := by
  unfold firstRoute currentGraph
  refine Heeds.bind (Heeds.bind (fun _ => rfl) fun graph => ?_)
    fun _ => heeds_orRefuse _ _
  cases graph with
  | some graph => exact heeds_pure graph
  | none =>
    refine (heeds_ask rfl).bind fun _ => (heeds_ask rfl).bind fun _ => ?_
    exact (heeds_ask rfl).bind fun _ => Heeds.bind (fun _ => rfl) fun _ => heeds_pure _

/-! ## 3. The quote -/

/-- What is found is there, and no fault has struck. -/
theorem runIn_find_eq_some {c : Call (Option α)} {x : Option α} {v : α}
    (hc : l.memory.answer c = .ok (x, l.memory)) (hnothing : c.nothing? = some none) :
    (ask c).runIn l = (.ok (some v), l') ↔
      ∃ armed, Fault.consult c.name l.stores.armed = (none, armed) ∧ l' = l.rearmed armed ∧
        x = some v := by
  have hcall : (Memory.call c).runIn l.memory = (.ok x, l.memory) := by
    rw [Memory.call, runIn_ofFun, hc]
  rw [runIn_ask_struck]
  generalize Fault.consult c.name l.stores.armed = consulted
  obtain ⟨mode, armed⟩ := consulted
  cases mode with
  | none =>
    rw [Memory.struck, hcall]
    constructor
    · rintro ⟨⟩
      exact ⟨armed, rfl, rfl, rfl⟩
    · rintro ⟨_, ⟨⟩, rfl, rfl⟩
      rfl
  | some mode =>
    constructor
    · intro h
      cases mode with
      | before => cases h
      | after =>
        rw [Memory.struck, hcall] at h
        cases h
      | miss =>
        rw [Memory.struck, hnothing] at h
        cases h
    · rintro ⟨armed', hconsult, -⟩
      cases hconsult

/-- **An active currency is found** where no fault strikes, and this is consulted once. -/
theorem runIn_requireActive_eq_ok {symbol : String} {c : Currency} :
    (requireActive symbol).runIn l = (.ok c, l') ↔
      ∃ armed, Fault.consult "find_currency" l.stores.armed = (none, armed) ∧
        l' = l.rearmed armed ∧ l.memory.currencies.find? symbol = some c ∧ c.isActive = true := by
  have hfind : ∀ {c l'}, (ask (.findCurrency symbol)).runIn l = (.ok (some c), l') ↔
      ∃ armed, Fault.consult "find_currency" l.stores.armed = (none, armed) ∧
        l' = l.rearmed armed ∧ l.memory.currencies.find? symbol = some c :=
    runIn_find_eq_some rfl rfl
  unfold requireActive requireCurrency
  constructor
  · intro h
    obtain ⟨c', l₁, hrequire, h⟩ := runIn_bind_eq_ok.1 h
    obtain ⟨found, l₂, hask, hrefuse⟩ := runIn_bind_eq_ok.1 hrequire
    obtain ⟨_, l₃, hactive, hpure⟩ := runIn_bind_eq_ok.1 h
    obtain ⟨rfl, rfl⟩ := runIn_orRefuse_eq_ok.1 hrefuse
    obtain ⟨active, rfl⟩ := runIn_require_eq_ok.1 hactive
    cases hpure
    obtain ⟨armed, hconsult, hl, hc⟩ := hfind.1 hask
    exact ⟨armed, hconsult, hl, hc, active⟩
  · rintro ⟨armed, hconsult, rfl, hc, active⟩
    have hask := hfind.2 ⟨armed, hconsult, rfl, hc⟩
    refine runIn_bind_eq_ok.2 ⟨c, _, runIn_bind_eq_ok.2 ⟨_, _, hask, rfl⟩, ?_⟩
    exact runIn_bind_eq_ok.2 ⟨(), _, runIn_require_eq_ok.2 ⟨active, rfl⟩, rfl⟩

/-- **How a reservation is priced:** both currencies are looked up, and then the first route. -/
theorem reserve_eq_ok {q : ReserveRequest} {r : Reservation}
    (h : (reserve t q).runIn l = (.ok r, l')) :
    ∃ source dest l₁ l₂ route l₃ product,
      (requireActive q.sourceSymbol).runIn l = (.ok source, l₁) ∧
      (requireActive q.destSymbol).runIn l₁ = (.ok dest, l₂) ∧
      (firstRoute t source.symbol dest.symbol).runIn l₂ = (.ok route, l₃) ∧
      q.sourceAmount.mul? route.rate = some product ∧
      r.destAmount = product.truncate dest.precision := by
  unfold reserve at h
  obtain ⟨_, _, hkinds, hrest⟩ := runIn_bind_eq_ok.1 h
  obtain ⟨-, rfl⟩ := runIn_require_eq_ok.1 hkinds
  obtain ⟨source, l₁, hsource, hrest₁⟩ := runIn_bind_eq_ok.1 hrest
  obtain ⟨dest, l₂, hdest, hrest₂⟩ := runIn_bind_eq_ok.1 hrest₁
  obtain ⟨amount, _, hamount, hrest₃⟩ := runIn_bind_eq_ok.1 hrest₂
  obtain ⟨hchecked, rfl⟩ := runIn_ofExcept_eq_ok.1 hamount
  obtain rfl := checkedAmount_currency hchecked
  obtain ⟨route, l₃, hroute, hrest₄⟩ := runIn_bind_eq_ok.1 hrest₃
  obtain ⟨converted, _, hconverted, hrest₅⟩ := runIn_bind_eq_ok.1 hrest₄
  obtain ⟨hconvert, rfl⟩ := runIn_ofExcept_eq_ok.1 hconverted
  obtain ⟨product, hproduct, rfl⟩ := convert_eq hconvert
  refine ⟨source, dest, _, _, route, _, product, hsource, hdest, hroute, hproduct, ?_⟩
  -- What follows checks the amount and stores it, and it does not change it.
  obtain ⟨_, _, -, hliquid⟩ := runIn_bind_eq_ok.1 hrest₅
  obtain ⟨_, _, -, hnow⟩ := runIn_bind_eq_ok.1 hliquid
  obtain ⟨_, _, -, hexpiry⟩ := runIn_bind_eq_ok.1 hnow
  obtain ⟨_, _, -, hfresh⟩ := runIn_bind_eq_ok.1 hexpiry
  obtain ⟨_, _, -, hinsert⟩ := runIn_bind_eq_ok.1 hfresh
  obtain ⟨_, _, -, hpure⟩ := runIn_bind_eq_ok.1 hinsert
  cases hpure
  rfl

/-- **What is locked is what is quoted** in the same state, whatever the faults are. -/
theorem quote_of_reserve {q : ReserveRequest} {r : Reservation}
    (h : (reserve t q).runIn l = (.ok r, l')) :
    ((quote t q.sourceSymbol q.sourceAmount q.destSymbol).runIn l).1 =
      .ok ⟨q.destSymbol, r.destAmount⟩ := by
  obtain ⟨source, dest, l₁, l₂, route, l₃, product, hsource, hdest, hroute, hproduct, hr⟩ :=
    reserve_eq_ok h
  obtain ⟨armed, hconsult, rfl, hsource, -⟩ := runIn_requireActive_eq_ok.1 hsource
  obtain ⟨armed₂, hconsult₂, rfl, hdest, active⟩ := runIn_requireActive_eq_ok.1 hdest
  rw [CurrencyTable.find?_symbol hsource, CurrencyTable.find?_symbol hdest] at hroute
  -- A quote asks for one currency, as the first call of the reservation did.
  have hrequire : (requireActive q.destSymbol).runIn l = (.ok dest, l.rearmed armed) :=
    runIn_requireActive_eq_ok.2 ⟨armed, hconsult, rfl, hdest, active⟩
  -- The second call for a currency leaves the faults alone that the graph is built under.
  have hfacing : (l.rearmed armed).facing listings =
      ((l.rearmed armed).rearmed armed₂).facing listings := by
    have hamong : Fault.among listings (Fault.consult "find_currency" armed).2 =
        Fault.among listings armed := Fault.among_consult (by decide) armed
    rw [show Fault.consult "find_currency" armed = (none, armed₂) from hconsult₂] at hamong
    show l.rearmed (Fault.among listings armed) = l.rearmed (Fault.among listings armed₂)
    rw [hamong]
  have hroute₁ : ((firstRoute t q.sourceSymbol q.destSymbol).runIn (l.rearmed armed)).1 =
      .ok route := by
    rw [(heeds_firstRoute _ _).congr hfacing, hroute]
  obtain ⟨l₄, hroute₁⟩ : ∃ l₄, (firstRoute t q.sourceSymbol q.destSymbol).runIn (l.rearmed armed) =
      (.ok route, l₄) := ⟨_, Prod.ext hroute₁ rfl⟩
  have hconvert : (convert t ⟨q.sourceSymbol, q.sourceAmount⟩ q.destSymbol).runIn
      (l.rearmed armed) = (.ok ⟨q.destSymbol, product⟩, l₄) := by
    refine runIn_bind_eq_ok.2 ⟨route, l₄, hroute₁, runIn_ofExcept_eq_ok.2 ⟨?_, rfl⟩⟩
    rw [Amount.convert, hproduct]
  have hquote : (quote t q.sourceSymbol q.sourceAmount q.destSymbol).runIn l =
      (.ok ⟨q.destSymbol, product.truncate dest.precision⟩, l₄) :=
    runIn_bind_eq_ok.2 ⟨dest, _, hrequire, runIn_bind_eq_ok.2 ⟨_, l₄, hconvert, rfl⟩⟩
  rw [hquote, hr]

/-! ## 4. Legs that are posted now -/

/-- **A transfer with a new reference is delivered** if it has a receipt, whatever fails. -/
theorem ends_transfer_delivered {r : TransferRequest}
    (hnew : r.ref.bind l.memory.wallets.byRef? = none) :
    (transfer t r).Ends (fun _ l' => ∃ p, l.Delivered r p l') (fun _ _ => True) l := by
  refine ends_transfer_prepared r (fun _ _ _ => trivial) fun mv l₁ hprepared => ?_
  have hunused : mv.ref.bind l₁.memory.wallets.byRef? = none := by
    rw [hprepared.ref, hprepared.moved.byRef?_of_quiet, hnew]
  refine Ends.mono ends_post (fun receipt l₂ hreceives => ?_) fun _ _ _ => trivial
  cases hreceives with
  | replayed p _ earlier _ _ =>
    rw [hunused] at earlier
    cases earlier
  | made p l₃ _ waits posted => exact ⟨p, l₃, mv, hprepared.trans waits.quiet, posted⟩

variable {r : Reservation} {s : Settlement}

/-- **Both legs are posted,** the withdraw leg and then the deposit leg, and nothing else is. -/
def PostsLegs (l : Ledger (Faulty Memory)) (t : Terms) (r : Reservation) (s : Settlement)
    (l' : Ledger (Faulty Memory)) : Prop :=
  ∃ p q, l'.memory.wallets.log = l.memory.wallets.log ++ [p, q] ∧
    p.IsLeg l'.memory t.systemUuid r s .withdraw ∧ q.IsLeg l'.memory t.systemUuid r s .deposit

/-- A leg that is new is delivered. -/
theorem ends_postLeg_delivered (hl : l.memory.Sound) {leg : Leg}
    (hnew : ¬l.memory.Bears (r.legRef s leg)) :
    (postLeg t r s leg).Ends (fun _ l' => ∃ p, l.Delivered (r.legRequest t.systemUuid s leg) p l')
      (fun _ _ => True) l := by
  refine ends_transfer_delivered ?_
  rw [legRequest_ref, Option.bind_some, Option.eq_none_iff_forall_ne_some]
  exact fun p hp => hnew ((Memory.bears_iff hl).2 ⟨p, hp⟩)

/-- **A settlement of a new attempt that has a receipt has posted both legs,** whatever the faults
are. -/
theorem ends_settle_delivered (hl : l.memory.Sound)
    (hnew : ∀ leg, ¬l.memory.Bears (r.legRef s leg)) :
    (settle t r s).Ends (fun _ l' => l.PostsLegs t r s l') (fun _ _ => True) l := by
  -- Where a leg has failed there is no receipt, whatever is done about it.
  have failed : ∀ (undo : Action (Ledger (Faulty Memory)) Unit) (cause : Error) l₁,
      (undo >>= fun _ => refuse cause : Action _ Receipt).Ends (fun _ l' => l.PostsLegs t r s l')
        (fun _ _ => True) l₁ := fun undo cause l₁ =>
    (ends_bind _).2 (ends_iff.2 ⟨fun _ _ => trivial, fun _ _ => trivial⟩)
  unfold settle
  rw [ends_bind, ends_attempt]
  refine Ends.mono (ends_postLeg_delivered hl (hnew .withdraw)) (fun taken l₁ htaken => ?_)
    fun stop l₁ _ => ?_
  · obtain ⟨p, hp⟩ := htaken
    have hl₁ := hp.moved.sound hl
    rw [ends_bind, ends_attempt]
    refine Ends.mono (ends_postLeg_delivered hl₁ (hp.unborne (by decide) (hnew .deposit)))
      (fun given l₂ hgiven => ?_) fun stop l₂ _ => ?_
    · obtain ⟨q, hq⟩ := hgiven
      -- The status is changed or not, and the legs are posted in either case.
      refine (within_updateStatusIf (f := (· = .reservation)) rfl _ _ _).and_then
        (fun _ l₃ h₃ _ => ⟨p, q, ?_, ?_, ?_⟩) fun _ _ _ => trivial
      · rw [(h₃.log fun _ he => he ▸ id).1, hq.log, hp.log, List.append_assoc]
        rfl
      · exact h₃.isLeg (hq.moved.isLeg (hp.isLeg hl))
      · exact h₃.isLeg (hq.isLeg hl₁)
    · exact ⟨fun cause _ => failed _ _ _, fun _ => trivial⟩
  · exact ⟨fun cause _ => failed _ _ _, fun _ => trivial⟩

/-- **An advance that has a receipt has posted both legs now,** if its attempt is new. -/
theorem ends_advance_delivered (hl : l.memory.Sound) {number : String}
    (hr : l.memory.reservations.find? number = some r)
    (hfresh : ∀ (leg : Leg) settleRef number,
      ¬l.memory.Bears (leg.ref settleRef number l.memory.fresh.attempt))
    (description ref issuer : Option String) :
    (advanceReservation t number description ref issuer).Ends
      (fun _ l' => ∃ s, s.attempt = l.memory.fresh.attempt ∧ l.PostsLegs t r s l')
      (fun _ _ => True) l := by
  refine ends_advanceReservation number description ref issuer (fun _ _ _ => trivial)
    fun l₁ r' s h₁ hr' _ hs => ?_
  obtain rfl : r = r' := Option.some.inj (hr.symm.trans hr')
  refine (within_beginSettlement (f := (· = .reservation)) rfl number s).and_then
    (fun claimed l₂ h₂ _ => ?_) fun _ _ _ => trivial
  have hlog : l₂.memory.wallets.log = l.memory.wallets.log := by
    rw [(h₂.log fun _ he => he ▸ id).1, h₁.memory]
  refine (ends_bind _).2 ((ends_require _ _).2 ⟨fun _ => ?_, fun _ => trivial⟩)
  have hnew : ∀ leg, ¬l₂.memory.Bears (r.legRef s leg) := by
    intro leg
    rw [Memory.Bears, hlog, Leg.legRef_eq, hs]
    exact hfresh leg _ _
  refine Ends.mono (ends_settle_delivered (h₂.sound (h₁.memory ▸ hl)) hnew)
    (fun _ l₃ hposts => ⟨s, hs, ?_⟩) fun _ _ => id
  rw [PostsLegs, ← hlog]
  exact hposts

end Ledger

/-! ## 5. What outlasts other operations -/

/-- Only an operation on reservations may change them. -/
theorem Operation.not_may_reservation {op : Operation} {policies : WithdrawalPolicies}
    (hop : ¬op.Reserves) : ¬op.May policies .reservation := by
  intro he
  cases op with
  | reserve | advance | cancel | sweep | recover => exact hop trivial
  | transfer | deposit | depositManually => exact Effect.not_moves_reservation he
  | createWallet =>
    obtain ⟨w, hw, -⟩ := he
    cases hw
  | mutateBalance => exact he.elim nofun nofun
  | request => exact he.elim Effect.not_moves_reservation fun ⟨_, _, hrow, _⟩ => nomatch hrow
  | decide => exact he.elim nofun Effect.not_moves_reservation
  | withdrawManually => exact he.elim Effect.not_moves_reservation fun ⟨_, hrow, _⟩ => nomatch hrow
  | quote | setPolicy | arm | elapse => exact he.elim
  | _ => cases he

/-- An operation that changes no reservations. -/
theorem Operation.reservations_after {t : Terms} {l : Ledger (Faulty Memory)} {op : Operation}
    (hop : ¬op.Reserves) (hl : l.memory.Sound) :
    (op.after t l).memory.reservations = l.memory.reservations := by
  refine (op.writes_after hl).preserves (I := fun m => m.reservations = l.memory.reservations)
    (fun m e m' he hc hm => (hc.reservations ?_).1.trans hm) rfl
  rintro rfl
  exact not_may_reservation hop he

theorem Operation.reservations_runAll {t : Terms} {ops : List Operation} :
    ∀ {l : Ledger (Faulty Memory)}, (∀ op ∈ ops, ¬op.Reserves) → l.memory.Sound →
      (runAll t l ops).memory.reservations = l.memory.reservations := by
  induction ops with
  | nil => exact fun _ _ => rfl
  | cons op ops ih =>
    intro l h hl
    have hrest := ih (l := op.after t l) (fun op' hop' => h op' (List.mem_cons_of_mem op hop'))
      (Ledger.sound_after op hl)
    exact hrest.trans (reservations_after (h op List.mem_cons_self) hl)

namespace Ledger

variable {l l₁ : Ledger (Faulty Memory)} {t : Terms}

/-- **A reservation locks what was quoted.** In whatever state it is made, and whatever the faults
are, the amount that is reserved is what a quote for the same request answers in that state, to the
last digit of its scale.

If the state is one that a run leads to, it is also what is paid. Whatever is done to rates, to
forbidden pairs, to currencies or to anything else but reservations, if the reservation is advanced
then under an attempt that no reference in the log holds, and there is a receipt, then the log has
gained the withdraw leg of the amount that was asked for and the deposit leg of the amount that was
reserved. -/
theorem reserve_locks_quote {q : ReserveRequest} {r : Reservation}
    (hreserve : (reserve t q).runIn l = (.ok r, l₁)) :
    ((quote t q.sourceSymbol q.sourceAmount q.destSymbol).runIn l).1 =
      .ok ⟨q.destSymbol, r.destAmount⟩ ∧
    (l.Reachable t → ∀ ops, (∀ op ∈ ops, ¬op.Reserves) → ∀ l₂, l₂ = Operation.runAll t l₁ ops →
      (∀ p ∈ l₂.memory.wallets.log, ∀ ref, p.ref = some ref →
        ¬l₂.memory.fresh.attempt.toList <:+: ref.toList) →
      ∀ description ref issuer receipt l₃,
        (advanceReservation t r.number description ref issuer).runIn l₂ = (.ok receipt, l₃) →
        ∃ s p p', s.attempt = l₂.memory.fresh.attempt ∧
          l₃.memory.wallets.log = l₂.memory.wallets.log ++ [p, p'] ∧
          p.Moves l₃.memory (q.senderUuid, q.senderKind) (t.systemUuid, .main)
            ⟨q.sourceSymbol, q.sourceAmount⟩ (some (r.legRef s .withdraw)) ∧
          p'.Moves l₃.memory (t.systemUuid, .main) (q.receiverUuid, q.receiverKind)
            ⟨q.destSymbol, r.destAmount⟩ (some (r.legRef s .deposit))) := by
  refine ⟨quote_of_reserve hreserve, ?_⟩
  rintro hl ops hops l₂ rfl hfresh description ref issuer receipt l₃ hadvance
  have hreserves : l.Reserves t q r l₁ := (ends_reserve_stored q).of_runIn hreserve
  have hsound : l₁.memory.Sound := sound_of_reserve hl.sound hreserve
  have hrow : (Operation.runAll t l₁ ops).memory.reservations.find? r.number = some r := by
    rw [Operation.reservations_runAll hops hsound]
    exact hreserves.row
  have hnew : ∀ (leg : Leg) settleRef number, ¬(Operation.runAll t l₁ ops).memory.Bears
      (leg.ref settleRef number (Operation.runAll t l₁ ops).memory.fresh.attempt) := by
    rintro leg settleRef number ⟨p, hp, href⟩
    exact hfresh p hp _ href (leg.infix_ref _ _ _)
  obtain ⟨s, hs, p, p', hlog, hp, hp'⟩ := (ends_advance_delivered (sound_runAll ops hsound) hrow
    hnew description ref issuer).of_runIn hadvance
  rw [hreserves.locks.request]
  exact ⟨s, p, p', hs, hlog, hp, hp'⟩

end Ledger

namespace Small

/-- After the reservation the rate is another one, and then there is none. -/
def revaluation : List Operation := [
  .updateRate ⟨"GOLD", "SILVER", units 7⟩,
  .addTransitive ["SILVER"],
  .forbid ⟨"GOLD", "SILVER"⟩]

def revalued : Ledger (Faulty Memory) :=
  Operation.runAll terms (promising ledger .main) revaluation

/-- The reservation is advanced then. -/
def redeemed : Except Stop Receipt × Ledger (Faulty Memory) :=
  (Ledger.advanceReservation terms (promised ledger .main).number none none none).runIn revalued

end Small

namespace Ledger

open WalletLedger.Small

/-- Ten gold were thirty silver when they were reserved. They are not exchanged any more when thirty
silver are paid. -/
theorem reserve_locks_quote_small :
    ((quote terms "GOLD" (units 10) "SILVER").runIn ledger).1 = .ok ⟨"SILVER", units 30⟩ ∧
    ((quote terms "GOLD" (units 10) "SILVER").runIn revalued).1 =
      .error (.refused (.noConversionPath "GOLD" "SILVER")) ∧
    ∃ s p p', redeemed.2.memory.wallets.log = revalued.memory.wallets.log ++ [p, p'] ∧
      p.Moves redeemed.2.memory ("ann", .main) ("system", .main) ⟨"GOLD", units 10⟩
        (some ((promised ledger .main).legRef s .withdraw)) ∧
      p'.Moves redeemed.2.memory ("system", .main) ("ann", .main) ⟨"SILVER", units 30⟩
        (some ((promised ledger .main).legRef s .deposit)) := by
  have hreserve : (reserve terms (exchange .main)).runIn ledger =
      (.ok (promised ledger .main), promising ledger .main) :=
    Prod.ext (show IsPromised ledger .main by decide +kernel).1 rfl
  have hadvanced : redeemed.1.isOk = true := by decide +kernel
  have hunnamed : ∀ p ∈ revalued.memory.wallets.log, p.ref = none := by decide +kernel
  obtain ⟨receipt, hreceipt⟩ : ∃ receipt, redeemed.1 = .ok receipt := by
    cases hresult : redeemed.1 with
    | ok receipt => exact ⟨receipt, rfl⟩
    | error stop =>
      rw [hresult] at hadvanced
      cases hadvanced
  have hadvance : redeemed = (.ok receipt, redeemed.2) := by rw [← hreceipt]
  have hlocks := reserve_locks_quote hreserve
  obtain ⟨s, p, p', -, hlog, hp, hp'⟩ := hlocks.2 reachable revaluation
    (by simp [revaluation, Operation.Reserves]) revalued rfl
    (fun p hp ref href => nomatch (hunnamed p hp).symm.trans href) none none none receipt redeemed.2
    hadvance
  exact ⟨hlocks.1, by decide +kernel, s, p, p', hlog, hp, hp'⟩

end Ledger

end WalletLedger
