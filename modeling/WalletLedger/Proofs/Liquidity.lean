/-
Whether what is reserved can be paid.

A reservation is stored when the system holds enough of what the receiver is to get. The wallet that
is looked at is the system's wallet of the receiver's kind, but the deposit leg is always paid from
the system's main wallet. So the check says something about the payment only where the receiver's
wallet is a main wallet, or where both sides are in one currency and the withdraw leg brings what
the deposit leg takes.

This module shows that nothing else can go wrong. Right after a reservation is made, where no call
fails and the parties do their part (`Memory.PartiesReady`), advancing it has a receipt just if the
wallet that pays covers the amount (`Memory.Covers`): `advance_reserved_iff`. Both directions come
from one walk along the settlement, at whose end it is known which of the two was the case
(`UnderWay.ends_settle_covered`).
-/
import WalletLedger.Proofs.Funding

set_option autoImplicit false

namespace WalletLedger

open WalletLedger.Action

/-! ## 1. What is locked -/

namespace Decimal

theorem mul?_one {a : Decimal} (h : a.isZero = false) : a.mul? one = some a := by
  have hscale : ¬47 < a.scale + one.scale := by
    have := a.scale_le
    rw [show one.scale = 0 from rfl]
    omega
  have hzero : (a.isZero || one.isZero) = false := by rw [h]; rfl
  rw [mul?, hzero, if_neg Bool.false_ne_true, if_neg fun hsmall => ?_]
  · rw [show a.coeff * one.coeff = a.coeff from Int.mul_one _]
    exact fit?_eq_some_of_fits a
  · simp only [Bool.and_eq_true, decide_eq_true_eq] at hsmall
    exact hscale hsmall.2

theorem onGrid_truncate (a : Decimal) (places : Nat) : (a.truncate places).OnGrid places := by
  unfold truncate
  split_ifs with h
  · exact onGrid_of_scale_le h
  · exact onGrid_of_scale_le le_rfl

/-- Truncation makes no number larger that is not negative. -/
theorem toRat_truncate_le {a : Decimal} (h : 0 ≤ a.toRat) (places : Nat) :
    (a.truncate places).toRat ≤ a.toRat := by
  unfold truncate
  split_ifs with hscale
  · exact le_rfl
  · have hcoeff : 0 ≤ a.coeff := by
      have hq := mul_nonneg h (ten_pow_pos a.scale).le
      rw [← coeff_eq] at hq
      exact_mod_cast hq
    have hcut : a.coeff.tdiv (pow10 (a.scale - places)) * pow10 (a.scale - places) ≤ a.coeff := by
      rw [Int.tdiv_eq_ediv_of_nonneg hcoeff]
      exact Int.ediv_mul_le _ (by exact_mod_cast (pow10_pos _).ne')
    have hsplit : (10 : ℚ) ^ a.scale = 10 ^ (a.scale - places) * 10 ^ places := by
      rw [← pow_add, Nat.sub_add_cancel (by omega)]
    rw [toRat_eq, toRat_eq, hsplit, ← div_div, div_le_div_iff_of_pos_right (ten_pow_pos places),
      le_div_iff₀ (ten_pow_pos _), ← pow10_cast]
    exact_mod_cast hcut

end Decimal

/-- The receiver is paid into the wallet that the sender pays from. -/
def Reservation.IsOwn (r : Reservation) : Prop :=
  (r.receiverUuid, r.receiverKind) = (r.senderUuid, r.senderKind) ∧ r.destSymbol = r.sourceSymbol

instance (r : Reservation) : Decidable r.IsOwn := inferInstanceAs (Decidable (_ ∧ _))

namespace Memory

variable {m m' : Memory} {t : Terms} {systemUuid : String} {r : Reservation}

/-- **The wallet that pays covers a reservation:** in one currency the receiver is paid from what
the sender gave, and otherwise from what the system's main wallet has. -/
def Covers (m : Memory) (systemUuid : String) (r : Reservation) : Prop :=
  r.sourceSymbol = r.destSymbol ∨ r.destAmount.toRat ≤ m.held (systemUuid, .main) r.destSymbol

/-- **The parties do their part:** the sender has the amount, neither of them is the wallet that the
legs go through, and there is room for what the legs bring. -/
structure PartiesReady (m : Memory) (systemUuid : String) (r : Reservation) : Prop where
  funded : r.sourceAmount.toRat ≤ m.held (r.senderUuid, r.senderKind) r.sourceSymbol
  sender : (r.senderUuid, r.senderKind) ≠ (systemUuid, .main)
  receiver : (r.receiverUuid, r.receiverKind) ≠ (systemUuid, .main)
  systemRoom : m.held (systemUuid, .main) r.sourceSymbol + r.sourceAmount.toRat < 2 ^ 96 - 1 / 2
  receiverRoom : ¬r.IsOwn →
    m.held (r.receiverUuid, r.receiverKind) r.destSymbol + r.destAmount.toRat < 2 ^ 96 - 1 / 2
  /-- Where the receiver is paid into the wallet of the sender, that wallet has less by then. -/
  ownRoom : r.IsOwn → ∀ x y : Decimal,
    m.held (r.senderUuid, r.senderKind) r.sourceSymbol = x.toRat →
    x.add? r.sourceAmount.neg = some y → y.toRat + r.destAmount.toRat < 2 ^ 96 - 1 / 2

/-- **What both legs move is accepted:** the kinds of the wallets, and each amount by its
currency. -/
structure Accepts (m : Memory) (r : Reservation) : Prop where
  kinds : (r.senderKind ≠ .cashout && r.receiverKind ≠ .cashout) = true
  source : ∃ c, m.currencies.find? r.sourceSymbol = some c ∧ c.isActive = true ∧
    c.checkedAmount r.sourceAmount = .ok ⟨r.sourceSymbol, r.sourceAmount⟩
  dest : ∃ c, m.currencies.find? r.destSymbol = some c ∧ c.isActive = true ∧
    c.checkedAmount r.destAmount = .ok ⟨r.destSymbol, r.destAmount⟩
  /-- Where nothing is converted, no more is paid than is taken. -/
  unconverted : r.sourceSymbol = r.destSymbol → r.destAmount.toRat ≤ r.sourceAmount.toRat

theorem held_congr (h : m'.wallets = m.wallets) : m'.held = m.held := by
  funext account symbol
  rw [held, held, h]

theorem Accepts.congr (h : m.Accepts r) (hm : m'.currencies = m.currencies) : m'.Accepts r :=
  ⟨h.kinds, hm ▸ h.source, hm ▸ h.dest, h.unconverted⟩

theorem PartiesReady.congr (h : m.PartiesReady systemUuid r) (hm : m'.wallets = m.wallets) :
    m'.PartiesReady systemUuid r := by
  have hheld := held_congr hm
  exact ⟨hheld ▸ h.funded, h.sender, h.receiver, hheld ▸ h.systemRoom, hheld ▸ h.receiverRoom,
    hheld ▸ h.ownRoom⟩

/-- Each leg is between a party's wallet and a main wallet. -/
theorem Accepts.legKinds (h : m.Accepts r) (s : Settlement) (leg : Leg) :
    ((r.legRequest systemUuid s leg).senderKind ≠ .cashout &&
      (r.legRequest systemUuid s leg).receiverKind ≠ .cashout) = true := by
  obtain ⟨hsender, hreceiver⟩ := Bool.and_eq_true_iff.1 h.kinds
  cases leg with
  | withdraw => exact Bool.and_eq_true_iff.2 ⟨hsender, rfl⟩
  | deposit => exact Bool.and_eq_true_iff.2 ⟨rfl, hreceiver⟩
  | refund => exact Bool.and_eq_true_iff.2 ⟨rfl, hsender⟩

/-- The withdraw leg is funded by the sender. -/
theorem PartiesReady.funds_withdraw (h : m.PartiesReady t.systemUuid r) (haccepts : m.Accepts r)
    (s : Settlement) : m.Funds (r.legRequest t.systemUuid s .withdraw) where
  kinds := haccepts.legKinds s .withdraw
  currency := haccepts.source
  apart := h.sender
  funded := h.funded
  room := h.systemRoom

end Memory

namespace Ledger

variable {l l₁ l' : Ledger (Faulty Memory)} {t : Terms} {q : ReserveRequest} {r : Reservation}
  {s : Settlement}

/-- The route from a currency to itself is that of no hops. -/
theorem rate_of_routes {g : Graph} {symbol : String} {policy : RoutePolicy} {route : Route}
    (h : (g.routes symbol symbol policy).head? = some route) : route.rate = .one := by
  unfold Graph.routes at h
  split_ifs at h with _ hne
  · cases h
  · obtain rfl := Option.some.inj h
    rfl
  · exact absurd rfl hne

/-- What stands behind a reservation is what its legs need. -/
theorem Locks.accepts (h : l.Locks t q r) : l.memory.Accepts r := by
  obtain ⟨c, hc, active, ha⟩ := h.source
  obtain ⟨-, hpos, -⟩ := Currency.checkedAmount_eq_ok_iff.1 ha
  obtain ⟨c', hc', active', g, route, converted, hroute, hproduct, hdest⟩ := h.dest
  refine ⟨h.kinds, ⟨c, hc, active, ha⟩, ⟨c', hc', active', ?_⟩, fun hsame => ?_⟩
  · refine Currency.checkedAmount_eq_ok_iff.2 ⟨?_, (Decimal.isPositive_iff _).1 h.positive, ?_⟩
    · rw [CurrencyTable.find?_symbol hc']
    · rw [hdest]
      exact Decimal.onGrid_truncate _ _
  · have hzero : r.sourceAmount.isZero = false := by
      rw [Bool.eq_false_iff, ne_eq, Decimal.isZero_iff]
      exact hpos.ne'
    rw [← hsame] at hroute
    rw [rate_of_routes hroute, Decimal.mul?_one hzero] at hproduct
    rw [hdest, ← Option.some.inj hproduct]
    exact Decimal.toRat_truncate_le hpos.le _

/-- **What is reserved:** an idle reservation is stored whose legs are accepted, and the system's
wallet of the receiver's kind holds what is to be paid. No funds are moved. -/
structure Reserves (l : Ledger (Faulty Memory)) (t : Terms) (q : ReserveRequest) (r : Reservation)
    (l' : Ledger (Faulty Memory)) : Prop where
  locks : l.Locks t q r
  row : l'.memory.reservations.find? r.number = some r
  wallets : l'.memory.wallets = l.memory.wallets
  accepts : l'.memory.Accepts r
  liquid : r.destAmount.toRat ≤ l'.memory.held (t.systemUuid, r.receiverKind) r.destSymbol

/-- **Reserving,** whatever the faults are. -/
theorem ends_reserve_stored (q : ReserveRequest) :
    (reserve t q).Ends (fun r l' => l.Reserves t q r l') (fun _ _ => True) l := by
  refine ends_reserve_locked q (fun _ _ _ => trivial) fun l₁ r h hlocks => ?_
  rw [ends_bind]
  refine ends_ask (fun _ l₂ _ ha => ?_) (fun _ _ _ _ hnothing => nomatch hnothing)
    (fun _ _ _ => trivial) fun _ _ _ _ _ _ => trivial
  obtain ⟨table, hinsert, hm⟩ := Memory.answer_insertReservation ha
  obtain ⟨hnone, rfl⟩ := ReservationTable.insert_eq hinsert
  rw [h.memory] at hm hnone
  have hwallets : l₂.memory.wallets = l.memory.wallets := by rw [hm]; rfl
  refine ⟨hlocks, ?_, hwallets, hlocks.accepts.congr (by rw [hm]; rfl), ?_⟩
  · rw [hm]
    rw [ReservationTable.find?] at hnone
    simp only [Memory.withReservations, ReservationTable.find?, List.find?_append, hnone,
      Option.none_or]
    exact List.find?_cons_of_pos (beq_self_eq_true _)
  · obtain ⟨w, hw, henough⟩ := hlocks.liquid
    rw [Memory.held_congr hwallets, hw.held]
    exact (Decimal.le_iff _ _).1 henough

theorem sound_of_reserve (hl : l.memory.Sound) (h : (reserve t q).runIn l = (.ok r, l₁)) :
    l₁.memory.Sound := by
  have hwithin : Within (Evolves fun _ => True) (reserve t q) (fun _ _ => True) l :=
    within_reserve trivial q
  exact (Ends.of_runIn hwithin h).1.sound hl

/-! ## 2. Settling -/

variable {p : Posting}

/-- **After the withdraw leg** the deposit leg is funded, if the wallet that pays covers it. -/
theorem Delivered.funds_deposit (h : l.Delivered (r.legRequest t.systemUuid s .withdraw) p l₁)
    (hl : l.memory.Sound) (haccepts : l.memory.Accepts r)
    (hparties : l.memory.PartiesReady t.systemUuid r)
    (hcovers : l.memory.Covers t.systemUuid r) :
    l₁.memory.Funds (r.legRequest t.systemUuid s .deposit) where
  kinds := haccepts.legKinds s .deposit
  currency := (haccepts.congr (h.moved.currencies (by rintro ⟨_, ⟨⟩⟩))).dest
  apart := hparties.receiver.symm
  funded := by
    show r.destAmount.toRat ≤ l₁.memory.held (t.systemUuid, .main) r.destSymbol
    by_cases hsame : r.sourceSymbol = r.destSymbol
    · -- The receiver is paid from what the sender gave.
      rw [← hsame]
      exact (haccepts.unconverted hsame).trans (h.received hl)
    · rw [h.held_of_symbol_ne hl fun hsymbol => hsame hsymbol.symm]
      exact hcovers.resolve_left hsame
  room := by
    show l₁.memory.held (r.receiverUuid, r.receiverKind) r.destSymbol + r.destAmount.toRat < _
    by_cases hown : r.IsOwn
    · obtain ⟨x, y, hx, hy, hdebit⟩ := h.taken hl
      rw [hown.1, hown.2]
      exact hy ▸ hparties.ownRoom hown x y hx hdebit
    · have hle := h.held_le hl hparties.receiver r.destSymbol
      exact (add_le_add_left hle _).trans_lt (hparties.receiverRoom hown)

namespace UnderWay

variable {posted : List Leg}

/-- A leg that is funded is delivered. -/
theorem ends_postLeg_funded (h : l.UnderWay r s posted) {leg : Leg} (hleg : leg ∉ posted)
    (hfunds : l.memory.Funds (r.legRequest t.systemUuid s leg)) (ht : 0 < t.maxAttempts) :
    (postLeg t r s leg).Ends (fun _ l' => ∃ p, l.Delivered (r.legRequest t.systemUuid s leg) p l')
      (fun _ _ => False) l := by
  have hnew : (r.legRequest t.systemUuid s leg).ref.bind l.memory.wallets.byRef? = none := by
    rw [legRequest_ref, Option.bind_some]
    exact h.unused hleg
  have hgoes : (postLeg t r s leg).Ends (fun _ _ => True) (fun _ _ => False) l :=
    h.sure.ends_transfer_funded h.sound h.unhurried hnew hfunds ht
  exact Ends.mono ((h.ends_postLeg leg hleg).and hgoes) (fun _ _ hdone => hdone.1.2)
    fun _ _ hstop => hstop.2

/-- The deposit leg is posted just if the wallet that pays covered it before the withdraw leg. -/
theorem ends_deposit (h : l.UnderWay r s []) (haccepts : l.memory.Accepts r)
    (hparties : l.memory.PartiesReady t.systemUuid r) (ht : 0 < t.maxAttempts)
    (hp : l.Delivered (r.legRequest t.systemUuid s .withdraw) p l₁) :
    (postLeg t r s .deposit).Ends
      (fun _ l' => l.memory.Covers t.systemUuid r ∧
        ∃ q, l₁.Delivered (r.legRequest t.systemUuid s .deposit) q l')
      (fun stop _ => ¬l.memory.Covers t.systemUuid r ∧ ∃ cause, stop = .refused cause) l₁ := by
  have htaken := h.delivered hp
  have hunposted : Leg.deposit ∉ [Leg.withdraw] := by decide
  by_cases hcovers : l.memory.Covers t.systemUuid r
  · have hfunds := hp.funds_deposit h.sound haccepts hparties hcovers
    exact Ends.mono (htaken.ends_postLeg_funded hunposted hfunds ht)
      (fun _ _ hq => ⟨hcovers, hq⟩) fun _ _ => False.elim
  · have hne : r.destSymbol ≠ r.sourceSymbol := fun hsame => hcovers (.inl hsame.symm)
    refine Ends.mono (htaken.ends_postLeg .deposit hunposted) (fun _ l₂ hdone => ?_)
      fun _ _ hstop => ⟨hcovers, hstop.1⟩
    obtain ⟨-, q, hq⟩ := hdone
    refine absurd (.inr ?_) hcovers
    rw [← hp.held_of_symbol_ne h.sound hne]
    exact hq.funded htaken.sound

/-- **Settling has a receipt just if the wallet that pays covers the reservation.** -/
theorem ends_settle_covered (h : l.UnderWay r s []) (haccepts : l.memory.Accepts r)
    (hparties : l.memory.PartiesReady t.systemUuid r) (ht : 0 < t.maxAttempts) :
    (settle t r s).Ends (fun _ _ => l.memory.Covers t.systemUuid r)
      (fun _ _ => ¬l.memory.Covers t.systemUuid r) l := by
  unfold settle
  rw [ends_bind, ends_attempt]
  refine Ends.mono (h.ends_postLeg_funded List.not_mem_nil (hparties.funds_withdraw haccepts s) ht)
    (fun taken l₁ hdone => ?_) fun _ _ => False.elim
  obtain ⟨p, hp⟩ := hdone
  rw [ends_bind, ends_attempt]
  refine Ends.mono (h.ends_deposit haccepts hparties ht hp) (fun given l₂ hdone => ?_)
    fun stop l₂ hstop => ?_
  · obtain ⟨hcovers, q, hq⟩ := hdone
    have hgiven := (h.delivered hp).delivered hq
    rw [ends_bind]
    exact Ends.mono (hgiven.succeeds_commit.ends hgiven.sure) (fun _ _ _ => hcovers)
      fun _ _ => False.elim
  · obtain ⟨huncovered, cause, rfl⟩ := hstop
    refine ⟨fun cause' _ => ?_, nofun⟩
    rw [ends_bind]
    exact ends_iff.2 ⟨fun _ _ => huncovered, fun _ _ => huncovered⟩

end UnderWay

/-! ## 3. Advancing -/

theorem answers_fresh (l : Ledger (Faulty Memory)) : fresh.Answers l.memory.fresh l := rfl

/-- **An idle reservation that has not lapsed is claimed** by whoever may act on it. -/
theorem Sure.ends_claimReservation_idle (h : l.Sure) {number : String}
    (hr : l.memory.reservations.find? number = some r) (hidle : r.isIdle = true)
    (hlive : r.isExpiredAt (l.clock + 1) = false) {issuer : Option String}
    (hissuer : issuer.all (· == r.senderUuid) = true) (description ref : Option String) :
    (claimReservation number description ref issuer).Ends (fun _ _ => True) (fun _ _ => False)
      l := by
  have hstatus : (r.status == .reserved) = true := by
    rw [Reservation.isIdle, Bool.and_eq_true] at hidle
    exact hidle.1
  have hfind : (ask (.findReservation number)).Answers (some r) l := hr ▸ h.answers_ask rfl
  unfold claimReservation checkIssuer
  refine hfind.ends_bind.2 ((answers_orRefuse rfl).ends_bind.2 ?_)
  refine (answers_require hstatus).ends_bind.2 ?_
  -- From here on only the clock is another.
  have hlate : ∀ n : Instant, Sure { l with clock := n } := fun _ => h
  rw [ends_bind]
  show Ends _ _ _ { l with clock := l.clock + 1 }
  refine (answers_require (by rw [hlive]; rfl)).ends_bind.2 ?_
  refine (answers_require hissuer).ends_bind.2 ?_
  refine (answers_fresh _).ends_bind.2 ?_
  rw [ends_bind]
  show Ends _ _ _ { l with clock := l.clock + 1 + 1 }
  rw [ends_bind]
  refine (hlate _).ends_ask (fun claimed l₁ _ ha => ?_) fun cause l₁ _ ha => ?_
  · obtain ⟨x, hx, hclaimed, -⟩ := Memory.answer_beginSettlement ha
    obtain rfl := Option.some.inj (hr.symm.trans hx)
    rw [ends_bind, ends_require, hclaimed, hidle]
    exact ⟨fun _ => trivial, by rintro ⟨⟩⟩
  · change l.memory.answer (.beginSettlement number _) = _ at ha
    rw [Memory.answer, ReservationTable.begin, ReservationTable.changeIf, hr] at ha
    simp only [hidle, if_true] at ha
    cases ha

/-- **Advancing has a receipt just if the wallet that pays covers the reservation.** -/
theorem Sure.ends_advance_covered (h : l.Sure) (hl : l.memory.Sound)
    (hconflicts : l.memory.wallets.conflicts = 0) (ht : 0 < t.maxAttempts)
    (hfresh : ∀ p ∈ l.memory.wallets.log, ∀ ref, p.ref = some ref →
      ¬l.memory.fresh.attempt.toList <:+: ref.toList)
    (hrow : l.memory.reservations.find? r.number = some r) (hidle : r.isIdle = true)
    (hlive : r.isExpiredAt (l.clock + 1) = false) (haccepts : l.memory.Accepts r)
    (hparties : l.memory.PartiesReady t.systemUuid r) (description ref : Option String)
    {issuer : Option String} (hissuer : issuer.all (· == r.senderUuid) = true) :
    (advanceReservation t r.number description ref issuer).Ends
      (fun _ _ => l.memory.Covers t.systemUuid r) (fun _ _ => ¬l.memory.Covers t.systemUuid r)
      l := by
  rw [advanceReservation_eq, ends_bind]
  refine Ends.mono ((h.ends_claimReservation r.number description ref issuer).and
    (h.ends_claimReservation_idle hrow hidle hlive hissuer description ref))
    (fun claimed l₁ hdone => ?_) fun _ _ hstop => hstop.2.elim
  obtain ⟨⟨hnumber, hclaims, hs⟩, -⟩ := hdone
  obtain ⟨r', s⟩ := claimed
  obtain rfl : r = r' := Option.some.inj (hrow.symm.trans (hnumber ▸ hclaims.row))
  have hnew : ∀ leg, ¬l.memory.Bears (r.legRef s leg) := by
    rintro leg ⟨p, hp, href⟩
    rw [Leg.legRef_eq, hs] at href
    exact hfresh p hp _ href (leg.infix_ref _ _ _)
  have hcurrencies : l₁.memory.currencies = l.memory.currencies := by
    rw [hclaims.memory]
    rfl
  have hends := (hclaims.underWay h hl hconflicts hnew).ends_settle_covered
    (haccepts.congr hcurrencies) (hparties.congr hclaims.wallets) ht
  rwa [Memory.Covers, Memory.held_congr hclaims.wallets] at hends

/-- **The guard of `reserve` is worth as much as the wallet that it looks at.** Let a reservation be
made in a state that a run leads to, whatever failed before, and let it be advanced at once: no
fault is armed, nobody is told to wait, the attempt that comes next is one that no reference in the
log holds, the reservation has not lapsed, and the parties do their part. Then there is a receipt
just if both sides are in one currency or the system's *main* wallet holds what is to be paid.

What `reserve` has checked is the system's wallet of the receiver's kind. So there is always a
receipt if the receiver's wallet is a main wallet. -/
theorem advance_reserved_iff (hl : l.Reachable t) (hreserve : (reserve t q).runIn l = (.ok r, l₁))
    (hsure : l₁.Sure) (hconflicts : l₁.memory.wallets.conflicts = 0) (ht : 0 < t.maxAttempts)
    (hfresh : ∀ p ∈ l₁.memory.wallets.log, ∀ ref, p.ref = some ref →
      ¬l₁.memory.fresh.attempt.toList <:+: ref.toList)
    (hlive : r.isExpiredAt (l₁.clock + 1) = false)
    (hparties : l₁.memory.PartiesReady t.systemUuid r) (description ref : Option String)
    {issuer : Option String} (hissuer : issuer.all (· == r.senderUuid) = true) :
    let run := (advanceReservation t r.number description ref issuer).runIn l₁
    ((∃ receipt, run.1 = .ok receipt) ↔ r.sourceSymbol = r.destSymbol ∨
      r.destAmount.toRat ≤ l₁.memory.held (t.systemUuid, .main) r.destSymbol) ∧
    (r.receiverKind = .main → ∃ receipt, run.1 = .ok receipt) := by
  have hreserves : l.Reserves t q r l₁ := (ends_reserve_stored q).of_runIn hreserve
  have hsound : l₁.memory.Sound := sound_of_reserve hl.sound hreserve
  have hidle : r.isIdle = true := by
    rw [Reservation.isIdle, hreserves.locks.status, hreserves.locks.settlement]
    rfl
  have hiff := (hsure.ends_advance_covered hsound hconflicts ht hfresh hreserves.row hidle hlive
    hreserves.accepts hparties description ref hissuer).ok_iff
  exact ⟨hiff, fun hmain => hiff.2 (.inr (hmain ▸ hreserves.liquid))⟩

end Ledger

namespace Small

/-- Ten gold are to be exchanged for silver, which goes to a wallet of some kind. -/
def exchange (kind : WalletKind) : ReserveRequest :=
  ⟨units 10, "GOLD", "SILVER", "ann", .main, "ann", kind⟩

/-- All of the system's silver is in its exchange wallet. -/
def shifted : Ledger (Faulty Memory) :=
  Operation.runAll terms ledger [.transfer { transfer "system" "system" 900 none with
    symbol := "SILVER", receiverKind := .exchange }]

theorem shifted_reachable : shifted.Reachable terms := reachable.runAll _

/-- What is reserved then. -/
def promised (l : Ledger (Faulty Memory)) (kind : WalletKind) : Reservation where
  number := ids.reservation 1
  sourceSymbol := "GOLD"
  destSymbol := "SILVER"
  sourceAmount := units 10
  destAmount := units 30
  senderUuid := "ann"
  senderKind := .main
  receiverUuid := "ann"
  receiverKind := kind
  reservedAt := l.clock + 1
  expiresAt := l.clock + 1 + 3600000
  status := .reserved
  settlement := none

def promising (l : Ledger (Faulty Memory)) (kind : WalletKind) : Ledger (Faulty Memory) :=
  ((Ledger.reserve terms (exchange kind)).runIn l).2

/-- The reservation is advanced at once. -/
def redeem (l : Ledger (Faulty Memory)) (kind : WalletKind) : Except Stop Receipt :=
  ((Ledger.advanceReservation terms (promised l kind).number none none none).runIn
    (promising l kind)).1

/-- It is reserved, and nothing is in the way of advancing it. -/
def IsPromised (l : Ledger (Faulty Memory)) (kind : WalletKind) : Prop :=
  ((Ledger.reserve terms (exchange kind)).runIn l).1 = .ok (promised l kind) ∧
  (promising l kind).stores.armed = [] ∧ (promising l kind).memory.wallets.conflicts = 0 ∧
  (∀ p ∈ (promising l kind).memory.wallets.log, p.ref = none) ∧
  (promised l kind).isExpiredAt ((promising l kind).clock + 1) = false

instance (l : Ledger (Faulty Memory)) (kind : WalletKind) : Decidable (IsPromised l kind) :=
  inferInstanceAs (Decidable (_ ∧ _))

end Small

namespace Ledger

open WalletLedger.Small

/-- There is a receipt where the silver goes to a main wallet, and there is none where it goes to an
exchange wallet and the system has no silver elsewhere. -/
theorem advance_reserved_iff_small :
    (∃ receipt, redeem ledger .main = .ok receipt) ∧
      ¬∃ receipt, redeem shifted .exchange = .ok receipt := by
  have hunused : ∀ l kind, IsPromised l kind → ∀ p ∈ (promising l kind).memory.wallets.log,
      ∀ ref, p.ref = some ref →
        ¬(promising l kind).memory.fresh.attempt.toList <:+: ref.toList := by
    intro l kind h p hp ref href
    rw [h.2.2.2.1 p hp] at href
    cases href
  have hmain : IsPromised ledger .main := by decide +kernel
  have hexchange : IsPromised shifted .exchange := by decide +kernel
  constructor
  · exact (advance_reserved_iff reachable (Prod.ext hmain.1 rfl) (sure_of_unarmed hmain.2.1)
      hmain.2.2.1 (by decide) (hunused _ _ hmain) hmain.2.2.2.2
      ⟨by decide +kernel, by decide, by decide, by decide +kernel, fun _ => by decide +kernel,
        fun hown => absurd hown (by decide)⟩ none none rfl).2 rfl
  · refine mt (advance_reserved_iff shifted_reachable (Prod.ext hexchange.1 rfl)
      (sure_of_unarmed hexchange.2.1) hexchange.2.2.1 (by decide) (hunused _ _ hexchange)
      hexchange.2.2.2.2 ⟨by decide +kernel, by decide, by decide, by decide +kernel,
        fun _ => by decide +kernel, fun hown => absurd hown (by decide)⟩ none none rfl).1.1 ?_
    decide +kernel

/-- **What was reserved cannot be paid:** the system's exchange wallet has nine hundred silver, so
thirty are reserved for the owner's exchange wallet. The sender has the gold and nothing fails, but
the deposit leg is paid from the system's main wallet, which is empty. -/
theorem reserved_unpaid :
    shifted.Reachable terms ∧ IsPromised shifted .exchange ∧
      (promising shifted .exchange).memory.PartiesReady "system" (promised shifted .exchange) ∧
      (promising shifted .exchange).memory.held ("system", .exchange) "SILVER" = 900 ∧
      redeem shifted .exchange = .error (.refused .insufficientFunds) :=
  ⟨shifted_reachable, by decide +kernel,
    ⟨by decide +kernel, by decide, by decide, by decide +kernel, fun _ => by decide +kernel,
      fun hown => absurd hown (by decide)⟩, by decide +kernel, by decide +kernel⟩

end Ledger

end WalletLedger
