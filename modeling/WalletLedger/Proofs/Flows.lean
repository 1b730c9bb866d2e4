/-
What the flows of reservations and withdrawals do to a ledger.

A flow is a sequence of transfers, postings and changes of its own row. None of it moves funds in
any other way: every movement of a flow goes through `transfer` or `post`, with an amount that was
checked against its currency or that is what a row stages. That is all this module says; what a flow
leaves behind when it is interrupted is the matter of `Backing.lean` and `Settlement.lean`.
-/
import WalletLedger.Proofs.Services

set_option autoImplicit false

namespace WalletLedger

open WalletLedger.Action

namespace Ledger

variable {l l' : Ledger (Faulty Memory)} {t : Terms} {f : Effect → Prop}

/-! ## 1. Reservations -/

/-- The effects of settling: the reservation changes, and legs are posted. -/
structure PermitsSettling (f : Effect → Prop) : Prop where
  reservation : f .reservation
  legs : ∀ (r : Reservation) s leg, Permits f .generic (some (r.legRef s leg))

/-- A call that writes the reservations writes nothing else, and removes none. -/
theorem within_askReservations {α : Type} {c : Call α} (hf : f .reservation)
    (h : ∀ a m, l.memory.answer c = .ok (a, m) → ∃ table reserved claimed,
      m = { l.memory with reservations := table, reserved, claimed } ∧
      ∀ number, l.memory.HasNumber number →
        (l.memory.withReservations table).HasNumber number) :
    Within (Evolves f) (ask c) (fun _ _ => True) l := by
  refine within_ask (Q := fun _ _ => True) (fun a m ha => ⟨?_, trivial⟩) fun _ _ => trivial
  obtain ⟨table, reserved, claimed, rfl, kept⟩ := h a m ha
  exact .single (.reservation table reserved claimed kept) hf

theorem within_insertReservation (hf : f .reservation) (r : Reservation) :
    Within (Evolves f) (ask (.insertReservation r)) (fun _ _ => True) l := by
  refine within_askReservations hf fun a m h => ?_
  obtain ⟨table, hinsert, rfl⟩ := Memory.answer_insertReservation h
  exact ⟨table, _, _, rfl, Memory.hasNumber_insert hinsert⟩

theorem within_beginSettlement (hf : f .reservation) (number : String) (s : Settlement) :
    Within (Evolves f) (ask (.beginSettlement number s)) (fun _ _ => True) l := by
  refine within_askReservations hf fun a m h => ?_
  obtain ⟨r, -, -, ⟨-, rfl⟩ | ⟨-, rfl⟩⟩ := Memory.answer_beginSettlement h
  · exact ⟨_, _, _, rfl, fun _ => id⟩
  · exact ⟨_, _, _, rfl, Memory.hasNumber_amended number fun _ => rfl⟩

/-- A conditional change of one reservation. -/
theorem within_changeIf (hf : f .reservation) {c : Call Bool} {number : String}
    {condition : Reservation → Bool} {g : Reservation → Reservation}
    (hc : l.memory.answer c = Memory.answering l.memory.withReservations
      (l.memory.reservations.changeIf number condition g))
    (hg : ∀ r, (g r).number = r.number) : Within (Evolves f) (ask c) (fun _ _ => True) l := by
  refine within_askReservations hf fun a m h => ?_
  rw [hc] at h
  obtain ⟨table, hchange, rfl⟩ := Memory.answering_eq h
  exact ⟨table, _, _, rfl, Memory.hasNumber_changeIf hchange hg⟩

theorem within_clearSettlement (hf : f .reservation) (number : String) :
    Within (Evolves f) (ask (.clearSettlement number)) (fun _ _ => True) l :=
  within_changeIf hf rfl fun _ => rfl

theorem within_closeIfIdle (hf : f .reservation) (number : String) (status : ReservationStatus) :
    Within (Evolves f) (ask (.closeIfIdle number status)) (fun _ _ => True) l :=
  within_changeIf hf rfl fun _ => rfl

theorem within_updateStatusIf (hf : f .reservation) (number : String)
    (expected status : ReservationStatus) :
    Within (Evolves f) (ask (.updateStatusIf number expected status)) (fun _ _ => True) l :=
  within_changeIf hf rfl fun _ => rfl

/-- A system that is liquid has a wallet of that kind, and in it what is needed. -/
theorem within_checkLiquidity (needed : Amount) (kind : WalletKind)
    (hpos : needed.isPositive = true) :
    Within Still (checkLiquidity t needed kind)
      (fun _ _ => ∃ w, l.memory.Knows t.systemUuid needed.currency kind w ∧
        needed.value ≤ w.balance) l := by
  unfold checkLiquidity systemOwner
  refine (requireOwner_finds t.systemUuid).bind fun system l₁ h₁ hsystem => ?_
  refine (within_findWallet system needed.currency kind).bind fun wallet l₂ _ hwallet => ?_
  refine within_require fun henough => ?_
  have henough := of_decide_eq_true henough
  cases wallet with
  | none =>
    -- Nothing does not cover a positive amount.
    rw [Decimal.le_iff] at henough
    have hpos := (Decimal.isPositive_iff needed.value).1 hpos
    exact absurd (henough.trans_eq Decimal.toRat_zero) (not_le.2 hpos)
  | some w => exact ⟨w, ⟨system, hsystem, h₁.memory ▸ hwallet w rfl⟩, henough⟩

/-- **What stands behind a reservation** when it is stored: what was looked up, computed and checked
for it. -/
structure Locks (l : Ledger (Faulty Memory)) (t : Terms) (q : ReserveRequest) (r : Reservation) :
    Prop where
  request : q = ⟨r.sourceAmount, r.sourceSymbol, r.destSymbol, r.senderUuid, r.senderKind,
    r.receiverUuid, r.receiverKind⟩
  number : r.number = l.memory.fresh.reservation
  status : r.status = .reserved
  settlement : r.settlement = none
  kinds : (r.senderKind ≠ .cashout && r.receiverKind ≠ .cashout) = true
  source : ∃ c, l.memory.currencies.find? r.sourceSymbol = some c ∧ c.isActive = true ∧
    c.checkedAmount r.sourceAmount = .ok ⟨r.sourceSymbol, r.sourceAmount⟩
  dest : ∃ c, l.memory.currencies.find? r.destSymbol = some c ∧ c.isActive = true ∧
    ∃ (g : Graph) (route : Route) (converted : Decimal),
      (g.routes r.sourceSymbol r.destSymbol t.policy).head? = some route ∧
      r.sourceAmount.mul? route.rate = some converted ∧
      r.destAmount = converted.truncate c.precision
  positive : r.destAmount.isPositive = true
  liquid : ∃ w, l.memory.Knows t.systemUuid r.destSymbol r.receiverKind w ∧
    r.destAmount ≤ w.balance

/-- **Reserving comes down to storing the reservation,** once everything was looked up. -/
theorem ends_reserve_locked (q : ReserveRequest) {Q : Reservation → Ledger (Faulty Memory) → Prop}
    {E : Stop → Ledger (Faulty Memory) → Prop} (stopped : ∀ stop l', l.Still l' → E stop l')
    (stored : ∀ l' r, l.Still l' → l.Locks t q r →
      (do ask (.insertReservation r)
          return r : Action _ Reservation).Ends Q E l') :
    (reserve t q).Ends Q E l := by
  unfold reserve
  refine (Still.refl l).next still_require stopped fun _ l₁ h₁ hkinds => ?_
  refine h₁.next (within_requireActive q.sourceSymbol) stopped fun source l₂ h₂ hsource => ?_
  refine h₂.next (within_requireActive q.destSymbol) stopped fun dest l₃ h₃ hdest => ?_
  rw [h₁.memory] at hsource
  rw [h₂.memory] at hdest
  have hsymbol := CurrencyTable.find?_symbol hsource.1
  have hsymbol' := CurrencyTable.find?_symbol hdest.1
  refine h₃.next still_ofExcept stopped fun amount l₄ h₄ hamount => ?_
  obtain rfl := checkedAmount_currency hamount
  refine h₄.next (within_firstRoute source.symbol dest.symbol) stopped fun route l₅ h₅ hroute => ?_
  obtain ⟨g, hroute⟩ := hroute
  refine h₅.next still_ofExcept stopped fun converted l₆ h₆ hconverted => ?_
  obtain ⟨product, hproduct, rfl⟩ := convert_eq hconverted
  refine h₆.next still_require stopped fun _ l₇ h₇ hpos => ?_
  refine h₇.next (within_checkLiquidity _ q.receiverKind hpos) stopped fun _ l₈ h₈ hliquid => ?_
  rw [h₇.memory] at hliquid
  refine h₈.next within_now stopped fun reservedAt l₉ h₉ _ => ?_
  refine h₉.next still_orAbort stopped fun expiresAt l₁₀ h₁₀ _ => ?_
  refine h₁₀.next within_fresh stopped fun ids l₁₁ h₁₁ hids => ?_
  rw [h₁₀.memory] at hids
  have hnumber := congrArg FreshIds.reservation hids
  refine stored l₁₁ _ h₁₁ ⟨?_, hnumber, rfl, rfl, hkinds, ⟨source, ?_, hsource.2, hamount⟩,
    ⟨dest, ?_, hdest.2, g, route, product, hroute, hproduct, rfl⟩, hpos, hliquid⟩
  · rw [hsymbol, hsymbol']
  · rw [hsymbol]
    exact hsource.1
  · rw [hsymbol']
    exact hdest.1

/-- The same for what is kept however it ends. -/
theorem ends_reserve (r : ReserveRequest) {I : Ledger (Faulty Memory) → Prop}
    (still : ∀ l', l.Still l' → I l')
    (stored : ∀ l' x, l.Still l' → x.number = l.memory.fresh.reservation → x.status = .reserved →
      x.settlement = none →
        (ask (.insertReservation x)).Ends (fun _ => I) (fun _ => I) l') :
    (reserve t r).Ends (fun _ => I) (fun _ => I) l :=
  ends_reserve_locked r (fun _ => still) fun l' x h hx =>
    (ends_bind _).2 (Ends.imp (stored l' x h hx.number hx.status hx.settlement) fun _ => id)

theorem within_reserve (hf : f .reservation) (r : ReserveRequest) :
    Within (Evolves f) (reserve t r) (fun _ _ => True) l := by
  refine Ends.mono (ends_reserve (I := l.Evolves f) r (fun _ h => .of_still h)
    fun l' x h _ _ _ => ?_) (fun _ _ h => ⟨h, trivial⟩) fun _ _ h => h
  exact Ends.mono (within_insertReservation hf x) (fun _ _ hx => (Evolves.of_still h).trans hx.1)
    fun _ _ hx => (Evolves.of_still h).trans hx

theorem legRequest_ref (systemUuid : String) (r : Reservation) (s : Settlement) (leg : Leg) :
    (r.legRequest systemUuid s leg).ref = some (r.legRef s leg) := by
  cases leg <;> rfl

theorem within_postLeg (hf : PermitsSettling f) (r : Reservation) (s : Settlement) (leg : Leg) :
    Within (Evolves f) (postLeg t r s leg) (fun _ _ => True) l := by
  unfold postLeg
  refine within_transfer _ ?_
  rw [legRequest_ref]
  exact hf.legs r s leg

theorem within_findPosting (ref : String) :
    Within Still (findPosting ref)
      (fun found _ => ∀ p, found = some p → l.memory.wallets.byRef? ref = some p) l :=
  within_find (c := .findPosting ref) rfl rfl

theorem within_settle (hf : PermitsSettling f) (r : Reservation) (s : Settlement) :
    Within (Evolves f) (settle t r s) (fun _ _ => True) l := by
  unfold settle
  refine (within_postLeg hf r s .withdraw).attempt.bind fun taken l₁ _ _ => ?_
  cases taken with
  | error cause =>
    -- The withdraw leg failed: the claim is given up unless the leg was posted after all.
    unfold giveUpUnlessPosted
    refine Within.bind (Q := fun _ _ => True) ?_ fun _ l₂ _ _ => within_refuse cause
    refine within_bind_still (within_findPosting _) fun found l₂ _ _ => ?_
    cases found with
    | some p => exact within_pure trivial
    | none =>
      exact (within_clearSettlement hf.reservation r.number).bind fun _ l₃ _ _ =>
        within_pure trivial
  | ok taken =>
    refine (within_postLeg hf r s .deposit).attempt.bind fun given l₂ _ _ => ?_
    cases given with
    | error cause =>
      -- The deposit leg failed: what was taken is given back.
      unfold refundAndGiveUp
      refine Within.bind (Q := fun _ _ => True) ?_ fun _ l₃ _ _ => within_refuse cause
      refine (within_postLeg hf r s .refund).attempt.bind fun returned l₃ _ _ => ?_
      cases returned with
      | error _ => exact within_pure trivial
      | ok _ =>
        exact (within_clearSettlement hf.reservation r.number).bind fun _ l₄ _ _ =>
          within_pure trivial
    | ok given =>
      exact (within_updateStatusIf hf.reservation r.number _ _).bind fun _ l₃ _ _ =>
        within_pure trivial

/-- **Claiming a reservation,** which is what advancing it begins with. -/
def claimReservation (number : String) (description ref issuer : Option String) :
    Action (Ledger (Faulty Memory)) (Reservation × Settlement) := do
  let r ← orRefuse (.invalidReservation "reservation not found") (← ask (.findReservation number))
  require (.invalidReservation ("reservation is " ++ r.status.name)) (r.status == .reserved)
  require (.invalidReservation "reservation expired") (!r.isExpiredAt (← now))
  checkIssuer r issuer
  let ids ← fresh
  let s : Settlement :=
    { settleRef := ref.getD r.number, attempt := ids.attempt, description, startedAt := ← now }
  require (.invalidReservation "reservation is already being settled")
    (← ask (.beginSettlement number s))
  return (r, s)

theorem advanceReservation_eq (number : String) (description ref issuer : Option String) :
    advanceReservation t number description ref issuer = (do
      let claimed ← claimReservation number description ref issuer
      settle t claimed.1 claimed.2 : Action (Ledger (Faulty Memory)) Receipt) := by
  unfold advanceReservation claimReservation
  simp only [bind_assoc, pure_bind]

/-- **Claiming comes down to one call.** The settlement has the attempt that is offered next. -/
theorem ends_claimReservation (number : String) (description ref issuer : Option String)
    {Q : Reservation × Settlement → Ledger (Faulty Memory) → Prop}
    {E : Stop → Ledger (Faulty Memory) → Prop} (stopped : ∀ stop l', l.Still l' → E stop l')
    (claimed : ∀ l' r s, l.Still l' → l.memory.reservations.find? number = some r →
      r.status = .reserved → s.attempt = l.memory.fresh.attempt →
        (do require (.invalidReservation "reservation is already being settled")
              (← ask (.beginSettlement number s))
            return (r, s) : Action _ (Reservation × Settlement)).Ends Q E l') :
    (claimReservation number description ref issuer).Ends Q E l := by
  unfold claimReservation checkIssuer
  refine (Still.refl l).next (within_find (c := .findReservation number) rfl rfl) stopped
    fun found l₁ h₁ hfound => ?_
  refine h₁.next still_orRefuse stopped fun r l₂ h₂ hr => ?_
  refine h₂.next still_require stopped fun _ l₃ h₃ hstatus => ?_
  refine h₃.next within_now stopped fun _ l₄ h₄ _ => ?_
  refine h₄.next still_require stopped fun _ l₅ h₅ _ => ?_
  refine h₅.next still_require stopped fun _ l₆ h₆ _ => ?_
  refine h₆.next within_fresh stopped fun ids l₇ h₇ hids => ?_
  rw [h₆.memory] at hids
  refine h₇.next within_now stopped fun _ l₈ h₈ _ => ?_
  exact claimed l₈ r _ h₈ (hfound r hr) (by simpa using hstatus) (congrArg FreshIds.attempt hids)

/-- **Advancing comes down to claiming and settling.** -/
theorem ends_advanceReservation (number : String) (description ref issuer : Option String)
    {Q : Receipt → Ledger (Faulty Memory) → Prop} {E : Stop → Ledger (Faulty Memory) → Prop}
    (stopped : ∀ stop l', l.Still l' → E stop l')
    (claimed : ∀ l' r s, l.Still l' → l.memory.reservations.find? number = some r →
      r.status = .reserved → s.attempt = l.memory.fresh.attempt →
        (do require (.invalidReservation "reservation is already being settled")
              (← ask (.beginSettlement number s))
            settle t r s : Action _ Receipt).Ends Q E l') :
    (advanceReservation t number description ref issuer).Ends Q E l := by
  rw [advanceReservation_eq, ends_bind]
  refine ends_claimReservation number description ref issuer stopped ?_
  intro l' r s h hr hstatus hs
  rw [← ends_bind]
  simpa only [bind_assoc, pure_bind] using claimed l' r s h hr hstatus hs

theorem within_advanceReservation (hf : PermitsSettling f) (number : String)
    (description ref issuer : Option String) :
    Within (Evolves f) (advanceReservation t number description ref issuer)
      (fun _ _ => True) l := by
  refine ends_advanceReservation number description ref issuer (fun _ _ h => .of_still h)
    fun l' r s h _ _ _ => ?_
  have hclaims : Within (Evolves f)
      (do require (.invalidReservation "reservation is already being settled")
            (← ask (.beginSettlement number s))
          settle t r s : Action _ Receipt) (fun _ _ => True) l' := by
    refine (within_beginSettlement hf.reservation number _).bind fun _ l₉ _ _ => ?_
    refine within_bind_still still_require fun _ l₁ _ _ => ?_
    exact within_settle hf r _
  exact Ends.mono hclaims (fun _ _ hx => ⟨(Evolves.of_still h).trans hx.1, trivial⟩)
    fun _ _ hx => (Evolves.of_still h).trans hx

theorem within_resume (hf : PermitsSettling f) (r : Reservation) :
    Within (Evolves f) (resume t r) (fun _ _ => True) l := by
  unfold resume
  cases r.settlement with
  | none => exact within_pure trivial
  | some s =>
    refine within_bind_still (within_findPosting _) fun found l₁ _ _ => ?_
    cases found with
    | some _ =>
      exact (within_clearSettlement hf.reservation r.number).bind fun _ l₂ _ _ =>
        within_pure trivial
    | none => exact (within_settle hf r s).bind fun _ l₂ _ _ => within_pure trivial

/-- **Canceling comes down to closing.** -/
theorem ends_cancelReservation (number : String) (issuer : Option String)
    {I : Ledger (Faulty Memory) → Prop} (still : ∀ l', l.Still l' → I l')
    (closed : ∀ l', l.Still l' →
      (ask (.closeIfIdle number .canceled)).Ends (fun _ => I) (fun _ => I) l') :
    (cancelReservation number issuer).Ends (fun _ => I) (fun _ => I) l := by
  have stopped : ∀ (_ : Stop) l', l.Still l' → I l' := fun _ => still
  unfold cancelReservation checkIssuer
  refine (Still.refl l).next (within_find (c := .findReservation number) rfl rfl) stopped
    fun found l₁ h₁ _ => ?_
  refine h₁.next still_orRefuse stopped fun r l₂ h₂ _ => ?_
  refine h₂.next still_require stopped fun _ l₃ h₃ _ => ?_
  rw [ends_bind]
  refine Ends.mono (closed l₃ h₃) (fun b l₄ h₄ => ?_) fun _ _ h => h
  rw [ends_bind, ends_require]
  exact ⟨fun _ => h₄, fun _ => h₄⟩

theorem within_cancelReservation (hf : f .reservation) (number : String)
    (issuer : Option String) :
    Within (Evolves f) (cancelReservation number issuer) (fun _ _ => True) l := by
  refine Ends.mono (ends_cancelReservation (I := l.Evolves f) number issuer
    (fun _ h => .of_still h) fun l' h => ?_) (fun _ _ h => ⟨h, trivial⟩) fun _ _ h => h
  exact Ends.mono (within_closeIfIdle hf number .canceled)
    (fun _ _ hx => (Evolves.of_still h).trans hx.1) fun _ _ hx => (Evolves.of_still h).trans hx

/-! ## 2. Upkeep -/

section Sweep

variable {I : Ledger (Faulty Memory) → Prop}

/-- The loop of the sweeper keeps what closing one reservation keeps. -/
theorem ends_closeLapsed
    (closed : ∀ l number, I l →
      (ask (.closeIfIdle number .expired)).Ends (fun _ => I) (fun _ => I) l)
    (rs : List Reservation) : ∀ l, I l → (closeLapsed rs).Ends (fun _ => I) (fun _ => I) l := by
  -- Induction on the reservations that are left, from whatever ledger the ones before leave.
  induction rs with
  | nil => exact fun l hl => hl
  | cons r rest ih =>
    intro l hl
    unfold closeLapsed
    rw [ends_bind]
    refine Ends.mono (closed l r.number hl) (fun b l₁ h₁ => ?_) fun _ _ h => h
    rw [ends_bind]
    exact Ends.imp (ih l₁ h₁) fun _ => id

theorem ends_sweep (still : ∀ l l', l.Still l' → I l → I l')
    (closed : ∀ l number, I l →
      (ask (.closeIfIdle number .expired)).Ends (fun _ => I) (fun _ => I) l)
    (w : WorkerSettings) (hl : I l) : (sweep w).Ends (fun _ => I) (fun _ => I) l := by
  unfold sweep expireLapsed
  refine within_now.and_then (fun now l₁ h₁ _ => ?_) fun _ _ h => still _ _ h hl
  have hl₁ := still _ _ h₁ hl
  rw [ends_bind]
  refine Ends.mono (?_ : Ends _ (fun _ => I) (fun _ => I) l₁) (fun n l₂ h₂ => ?_) fun _ _ h => h
  · exact (within_read (c := .findLapsed now w.batchSize) rfl).and_then
      (fun rs l₂ h₂ _ => ends_closeLapsed closed rs l₂ (still _ _ h₂ hl₁))
      fun _ _ h => still _ _ h hl₁
  · exact (within_report _).and_then (fun _ l₃ h₃ _ => still _ _ h₃ h₂)
      fun _ _ h => still _ _ h h₂

end Sweep

theorem within_sweep (hf : f .reservation) (w : WorkerSettings) :
    Within (Evolves f) (sweep w) (fun _ _ => True) l := by
  refine Ends.mono (ends_sweep (I := l.Evolves f) (fun _ _ h hl => hl.trans (.of_still h))
    (fun l' number h => ?_) w (.refl l)) (fun _ _ h => ⟨h, trivial⟩) fun _ _ h => h
  exact Ends.mono (within_closeIfIdle hf number .expired) (fun _ _ hx => h.trans hx.1)
    fun _ _ hx => h.trans hx

theorem within_recoverOne (hf : PermitsSettling f) (r : Reservation) :
    Within (Evolves f) (recoverOne t r) (fun _ _ => True) l := by
  unfold recoverOne
  refine (within_resume hf r).attempt.bind fun status l₁ _ _ => ?_
  cases status with
  | ok status => exact within_bind_still (within_report _) fun _ l₂ _ _ => within_pure trivial
  | error cause => exact within_bind_still (within_report _) fun _ l₂ _ _ => within_pure trivial

theorem within_recoverAll (hf : PermitsSettling f) (rs : List Reservation) :
    ∀ {l}, Within (Evolves f) (recoverAll t rs) (fun _ _ => True) l := by
  -- Induction on the reservations that are left; one that fails does not stop the others.
  induction rs with
  | nil => exact fun {l} => within_pure trivial
  | cons r rest ih =>
    intro l
    unfold recoverAll
    refine (within_recoverOne hf r).bind fun recovered l₁ _ _ => ?_
    exact ih.bind fun others l₂ _ _ => within_pure trivial

theorem within_recover (hf : PermitsSettling f) (w : WorkerSettings) :
    Within (Evolves f) (recover t w) (fun _ _ => True) l := by
  unfold recover
  refine within_bind_still within_now fun now l₁ _ _ => ?_
  refine within_bind_still still_orAbort fun threshold l₂ _ _ => ?_
  refine within_bind_still (within_read (c := .findStalled threshold w.batchSize) rfl)
    fun stalled l₃ _ _ => ?_
  split_ifs
  · exact within_bind_still (within_report _) fun _ l₄ _ _ => within_pure trivial
  · exact within_bind_still (within_report _) fun _ l₄ _ _ => within_recoverAll hf stalled

end Ledger

end WalletLedger
