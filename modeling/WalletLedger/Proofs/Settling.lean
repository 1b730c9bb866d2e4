/-
What settling a reservation leaves behind.

A settlement asks the stores about eight times, and it may stop at every call. Under faults that
strike before the call (`Loud`) its control flow knows the truth: a leg that is refused is not
posted by that call, and a reference that is not found is not in the log. So each of its steps
follows what the invariant admits, with one exception. The refund is posted when the deposit was
refused, and a deposit is refused also when it is in the log already and cannot be posted again:
its currency is switched off by now, or a store fails. Then the receiver stays paid and the sender
is refunded (`Overpays`).
-/
import WalletLedger.Proofs.Flows
import WalletLedger.Proofs.Settlement

set_option autoImplicit false

namespace WalletLedger

open WalletLedger.Action

theorem Leg.legRef_inj {r : Reservation} {s : Settlement} {leg leg' : Leg}
    (h : r.legRef s leg = r.legRef s leg') : leg = leg' := by
  have hlist := congrArg String.toList h
  rw [legRef_eq, legRef_eq, toList_ref, toList_ref] at hlist
  exact name_inj (List.cons.inj (List.append_cancel_left hlist)).2

/-- What one run says of itself. -/
theorem Action.Ends.traced {σ α : Type} {a : Action σ α} {Q : α → σ → Prop} {E : Stop → σ → Prop}
    {s : σ} (h : a.Ends Q E s) :
    a.Ends (fun v s' => Q v s' ∧ a.runIn s = (.ok v, s'))
      (fun stop s' => E stop s' ∧ a.runIn s = (.error stop, s')) s := by
  rw [ends_iff] at h ⊢
  exact ⟨fun v hv => ⟨h.1 v hv, Prod.ext hv rfl⟩, fun stop hs => ⟨h.2 stop hs, Prod.ext hs rfl⟩⟩

namespace Ledger

variable {l l₁ l' : Ledger (Faulty Memory)} {t : Terms}

/-! ## 1. Faults that strike before the call -/

/-- **Failures are reported, and what was reported as failed was not done.** -/
def Loud (l : Ledger (Faulty Memory)) : Prop := ∀ mode, l.CanFail mode → mode = .before

theorem Follows.loud (h : l.Follows l') (hl : l.Loud) : l'.Loud :=
  fun mode hmode => hl mode (h.modes mode hmode)

theorem Loud.harmless (h : l.Loud) : l.Harmless := fun hafter => nomatch h _ hafter

/-- A call is answered, or nothing happens. -/
theorem Loud.ends_ask {α : Type} {c : Call α} (h : l.Loud)
    {Q : α → Ledger (Faulty Memory) → Prop} {E : Stop → Ledger (Faulty Memory) → Prop}
    (answered : ∀ a l', l.Follows l' → l.memory.answer c = .ok (a, l'.memory) → Q a l')
    (stopped : ∀ stop l', l.Still l' → E stop l') : (ask c).Ends Q E l := by
  refine Ledger.ends_ask answered (fun _ _ _ hmiss _ => ?_) stopped fun _ _ _ _ hafter _ => ?_
  · cases h _ hmiss
  · cases h _ hafter

/-- What is not found is not there. -/
theorem Loud.within_findPosting (h : l.Loud) (ref : String) :
    Within Still (findPosting ref) (fun found _ => found = l.memory.wallets.byRef? ref) l := by
  refine (within_read (c := .findPosting ref) rfl).mono fun found l' _ hfound => ?_
  rcases hfound with hfound | ⟨hmiss, -⟩
  · exact hfound
  · cases h _ hmiss

/-- A change of one reservation is made if the row meets its condition. -/
theorem Loud.ends_changeIf {c : Call Bool} (h : l.Loud) {number : String}
    {condition : Reservation → Bool} {g : Reservation → Reservation}
    (hc : l.memory.answer c = Memory.answering l.memory.withReservations
      (l.memory.reservations.changeIf number condition g)) :
    (ask c).Ends
      (fun b l' => l.Follows l' ∧ ∃ x ∈ l.memory.reservations.rows, x.number = number ∧
        b = condition x ∧
          ((b = false ∧ l'.memory = l.memory) ∨ (b = true ∧ l'.memory =
            l.memory.withReservations (l.memory.reservations.amended number g))))
      (fun _ l' => l.Still l') l := by
  refine h.ends_ask (fun b l' hfollows ha => ?_) fun _ _ h => h
  rw [hc] at ha
  obtain ⟨table, hchange, hm⟩ := Memory.answering_eq ha
  obtain ⟨x, hx, hb, hcases⟩ := ReservationTable.changeIf_eq hchange
  refine ⟨hfollows, x, ReservationTable.mem_of_find? hx, ReservationTable.find?_number hx, hb, ?_⟩
  rcases hcases with ⟨hfalse, rfl⟩ | ⟨htrue, rfl⟩
  · exact .inl ⟨hfalse, hm⟩
  · exact .inr ⟨htrue, hm⟩

/-! ## 2. Posting a leg -/

theorem Evolves.gains_of_quiet (h : l.Evolves Effect.Quiet l') :
    l.memory.Gains (fun _ => False) l'.memory := by
  obtain ⟨hreservations, -, hclaimed⟩ := h.reservations nofun
  refine ⟨h.sound, h.ids, hreservations, hclaimed, fun ref => ?_⟩
  rw [Memory.Bears, h.log_of_quiet.1]
  exact (or_iff_left id).symm

theorem Posted.gains {access : Access} {mv : Movement} {p : Posting} {ref : String}
    (h : l.Posted access mv p l') (href : mv.ref = some ref) :
    l.memory.Gains (· = ref) l'.memory := by
  have hp : p.ref = some ref := h.ref.trans href
  obtain ⟨table, hposts, hm⟩ := h.made
  have hgains := (Change.movement hposts).gains nofun
  rw [← hm] at hgains
  refine hgains.congr fun other => or_congr_right ?_
  show p.ref = some other ↔ other = ref
  rw [hp, Option.some.injEq, eq_comm]

/-- **Posting a leg** puts its reference into the log, unless it was there; a leg that is refused is
not posted. -/
theorem Loud.ends_postLeg (h : l.Loud) (hl : l.memory.Sound) (r : Reservation) (s : Settlement)
    (leg : Leg) :
    (postLeg t r s leg).Ends
      (fun _ l' => l.Follows l' ∧ l.memory.Gains (· = r.legRef s leg) l'.memory)
      (fun _ l' => l.Follows l' ∧ l.memory.Gains (fun _ => False) l'.memory) l := by
  unfold postLeg
  have href := legRequest_ref t.systemUuid r s leg
  refine Ends.mono (ends_transfer _) (fun receipt l' hdone => ?_) fun _ l' hstuck => ?_
  · obtain ⟨l₁, mv, hquiet, -, hmv, hreceived⟩ := hdone
    rw [href] at hmv
    cases hreceived with
    | replayed p _ earlier _ waits =>
      have hmoved := hquiet.trans waits.quiet
      refine ⟨hmoved.toFollows, hmoved.gains_of_quiet.congr fun ref => ?_⟩
      -- The posting that is answered bears the reference, so there is nothing to gain.
      rw [hmv, Option.bind_some] at earlier
      have hbears : l.memory.Bears (r.legRef s leg) := by
        have hbears₁ := (Memory.bears_iff (hquiet.sound hl)).2 ⟨p, earlier⟩
        exact ((hquiet.gains_of_quiet.bears _).1 hbears₁).resolve_right id
      constructor
      · rintro (hold | hno)
        · exact .inl hold
        · exact hno.elim
      · rintro (hold | rfl)
        · exact .inl hold
        · exact .inl hbears
    | made p l₂ _ waits posted =>
      have hmoved := hquiet.trans waits.quiet
      refine ⟨hmoved.toFollows.trans posted.toFollows, ?_⟩
      refine (hmoved.gains_of_quiet.trans (posted.gains hmv)).congr fun ref => ?_
      rw [false_or]
  · have hmoved : l.Evolves Effect.Quiet l' := by
      rcases hstuck with hquiet | ⟨l₁, mv, hquiet, -, -, hfails⟩
      · exact hquiet
      · exact hquiet.trans (hfails.waits (hquiet.harmless h.harmless)).quiet
    exact ⟨hmoved.toFollows, hmoved.gains_of_quiet⟩

/-! ## 3. Settling -/

/-- **A settlement is under way,** and the reservations agree with the log. -/
structure Settling (l : Ledger (Faulty Memory)) (r : Reservation) (s : Settlement) : Prop where
  loud : l.Loud
  plain : l.memory.ids.Plain
  tidy : l.memory.Tidy
  row : ∃ x ∈ l.memory.reservations.rows, x.number = r.number ∧ x.settlement = some s ∧
    x.status = .reserved

/-- **One reservation may change,** and everything that the others depend on stays. -/
structure Leaves (l : Ledger (Faulty Memory)) (number : String) (l' : Ledger (Faulty Memory)) :
    Prop extends Follows l l' where
  ids : l'.memory.ids = l.memory.ids
  others : ∀ x ∈ l.memory.reservations.rows, x.number ≠ number → x ∈ l'.memory.reservations.rows

theorem Leaves.trans {number : String} (h : l.Leaves number l₁) (h' : l₁.Leaves number l') :
    l.Leaves number l' :=
  ⟨h.toFollows.trans h'.toFollows, h'.ids.trans h.ids, fun x hx hne =>
    h'.others x (h.others x hx hne) hne⟩

theorem leaves_of_gains {number : String} {refs : String → Prop} (h : l.Follows l')
    (hg : l.memory.Gains refs l'.memory) : l.Leaves number l' :=
  ⟨h, hg.ids, fun _ hx _ => hg.reservations ▸ hx⟩

theorem Still.leaves {number : String} (h : l.Still l') : l.Leaves number l' :=
  ⟨h.toFollows, by rw [h.memory], fun _ hx _ => by rwa [h.memory]⟩

theorem leaves_of_amended {number : String} {g : Reservation → Reservation} (h : l.Follows l')
    (hm : l'.memory = l.memory.withReservations (l.memory.reservations.amended number g)) :
    l.Leaves number l' := by
  refine ⟨h, by rw [hm]; rfl, fun x hx hne => ?_⟩
  rw [hm]
  refine List.mem_map.2 ⟨x, hx, ?_⟩
  rw [if_neg hne]

theorem Evolves.doubled {f : Effect → Prop} (h : l.Evolves f l') (hl : l.memory.Doubled) :
    l'.memory.Doubled :=
  h.preserves (fun _ _ _ _ hc => hc.doubled) hl

/-- **A change of one reservation** keeps what it keeps when it is made. -/
theorem Loud.ends_amend {c : Call Bool} (h : l.Loud) {P : Memory → Prop} (hl : P l.memory)
    {number : String} {condition : Reservation → Bool} {g : Reservation → Reservation}
    (hc : l.memory.answer c = Memory.answering l.memory.withReservations
      (l.memory.reservations.changeIf number condition g))
    (hP : ∀ x ∈ l.memory.reservations.rows, x.number = number → condition x = true →
      P (l.memory.withReservations (l.memory.reservations.amended number g))) :
    (ask c).Ends (fun _ l' => l.Leaves number l' ∧ P l'.memory)
      (fun _ l' => l.Leaves number l' ∧ P l'.memory) l := by
  have hkept : ∀ l', l.Still l' → l.Leaves number l' ∧ P l'.memory := by
    intro l' hstill
    exact ⟨hstill.leaves, hstill.memory ▸ hl⟩
  refine Ends.mono (h.ends_changeIf hc) (fun b l' hchange => ?_) fun _ l' => hkept l'
  obtain ⟨hfollows, x, hx, hnumber, hb, ⟨-, hm⟩ | ⟨htrue, hm⟩⟩ := hchange
  · exact hkept l' ⟨hfollows, hm⟩
  · refine ⟨leaves_of_amended hfollows hm, ?_⟩
    rw [hm]
    exact hP x hx hnumber (hb.symm.trans htrue)

namespace Settling

variable {r : Reservation} {s : Settlement}

theorem still (h : l.Settling r s) (hl : l.Still l') : l'.Settling r s :=
  ⟨hl.loud h.loud, hl.memory ▸ h.plain, hl.memory ▸ h.tidy, hl.memory ▸ h.row⟩

/-- Nothing that matters happens. -/
theorem idle (h : l.Settling r s) (hl : l.Follows l')
    (hg : l.memory.Gains (fun _ => False) l'.memory) : l'.Settling r s :=
  ⟨hl.loud h.loud, hg.ids ▸ h.plain, h.tidy.gains_foreign hg fun _ => False.elim,
    hg.reservations ▸ h.row⟩

/-- The next leg is posted. -/
theorem leg (h : l.Settling r s) (hl : l.Follows l') {leg : Leg}
    (hg : l.memory.Gains (· = r.legRef s leg) l'.memory) (hadmits : l.memory.Admits r s leg) :
    l'.Settling r s := by
  obtain ⟨x, hx, hnumber, hs, hstatus⟩ := h.row
  have href : ∀ leg, x.legRef s leg = r.legRef s leg := by
    intro leg
    rw [Leg.legRef_eq, Leg.legRef_eq, hnumber]
  refine ⟨hl.loud h.loud, hg.ids ▸ h.plain, ?_, hg.reservations ▸ h.row⟩
  have hadmits' : l.memory.Admits x s leg := by
    cases leg with
    | withdraw => trivial
    | deposit => rwa [Memory.Admits, href, href]
    | refund => rwa [Memory.Admits, href]
  rw [← href] at hg
  exact h.tidy.gains_leg h.plain hx hs hadmits' hg

/-- A deposit has its withdraw leg, and no refund. -/
theorem paid (h : l.Settling r s) (hdeposit : l.memory.Bears (r.legRef s .deposit)) :
    l.memory.Bears (r.legRef s .withdraw) ∧ ¬l.memory.Bears (r.legRef s .refund) := by
  obtain ⟨x, hx, hnumber, hs, -⟩ := h.row
  rw [Leg.legRef_eq, ← hnumber] at hdeposit ⊢
  rw [Leg.legRef_eq, ← hnumber]
  exact (h.tidy.rows x hx).paid s hs hdeposit

/-- **Giving the settlement up** once its attempt nets out. -/
theorem ends_clear (h : l.Settling r s) (hdeposit : ¬l.memory.Bears (r.legRef s .deposit))
    (hreturned : l.memory.Bears (r.legRef s .withdraw) → l.memory.Bears (r.legRef s .refund)) :
    (ask (.clearSettlement r.number)).Ends
      (fun _ l' => l.Leaves r.number l' ∧ l'.memory.Tidy)
      (fun _ l' => l.Leaves r.number l' ∧ l'.memory.Tidy) l := by
  refine h.loud.ends_amend h.tidy rfl fun _ _ _ _ => ?_
  obtain ⟨x, hx, hnumber, hs, hstatus⟩ := h.row
  rw [Leg.legRef_eq, ← hnumber] at hdeposit hreturned
  rw [Leg.legRef_eq, ← hnumber] at hreturned
  rw [← hnumber]
  exact h.tidy.clear hx hs hstatus hdeposit hreturned

/-- **Committing** what was paid. -/
theorem ends_commit (h : l.Settling r s) (hdeposit : l.memory.Bears (r.legRef s .deposit)) :
    (ask (.updateStatusIf r.number .reserved .committed)).Ends
      (fun _ l' => l.Leaves r.number l' ∧ l'.memory.Tidy)
      (fun _ l' => l.Leaves r.number l' ∧ l'.memory.Tidy) l := by
  refine h.loud.ends_amend h.tidy rfl fun _ _ _ _ => ?_
  obtain ⟨x, hx, hnumber, hs, -⟩ := h.row
  rw [Leg.legRef_eq, ← hnumber] at hdeposit
  rw [← hnumber]
  exact h.tidy.status hx .committed fun _ => ⟨s, hs, hdeposit⟩

end Settling

/-! ## 4. The one exception -/

/-- **The refund of what was paid:** the deposit leg is in the log, and the refund goes through. -/
def RefundsPaid (l : Ledger (Faulty Memory)) (t : Terms) (r : Reservation) (s : Settlement) :
    Prop :=
  l.memory.Bears (r.legRef s .deposit) ∧
    ∃ returned l', (postLeg t r s .refund).runIn l = (.ok returned, l')

/-- **Settling overpays:** when the legs are posted, the deposit leg is refused although it is in
the log, and it is refunded. -/
def Overpays (l : Ledger (Faulty Memory)) (t : Terms) (r : Reservation) (s : Settlement) : Prop :=
  ∃ taken l₁, (postLeg t r s .withdraw).runIn l = (.ok taken, l₁) ∧
    ∃ cause l₂, (postLeg t r s .deposit).runIn l₁ = (.error (.refused cause), l₂) ∧
      l₂.RefundsPaid t r s

section

variable {r : Reservation} {s : Settlement} {taken : Receipt} {l₂ : Ledger (Faulty Memory)}

theorem not_overpays_of_refused {stop : Stop}
    (hrun : (postLeg t r s .withdraw).runIn l = (.error stop, l₁)) : ¬l.Overpays t r s := by
  rintro ⟨taken, l', htaken, -⟩
  rw [hrun] at htaken
  cases htaken

/-- Once the funds are taken, it depends on the deposit leg. -/
theorem overpays_iff (hrun : (postLeg t r s .withdraw).runIn l = (.ok taken, l₁)) :
    l.Overpays t r s ↔ ∃ cause l₂,
      (postLeg t r s .deposit).runIn l₁ = (.error (.refused cause), l₂) ∧ l₂.RefundsPaid t r s := by
  constructor
  · rintro ⟨taken', l', htaken, hover⟩
    rw [hrun] at htaken
    cases htaken
    exact hover
  · intro hover
    exact ⟨taken, l₁, hrun, hover⟩

/-- Once the deposit is refused, it depends on the refund. -/
theorem overpays_iff_refundsPaid {cause : Error}
    (hrun : (postLeg t r s .withdraw).runIn l = (.ok taken, l₁))
    (hrun₂ : (postLeg t r s .deposit).runIn l₁ = (.error (.refused cause), l₂)) :
    l.Overpays t r s ↔ l₂.RefundsPaid t r s := by
  rw [overpays_iff hrun]
  constructor
  · rintro ⟨cause', l', hrefused, hpaid⟩
    rw [hrun₂] at hrefused
    cases hrefused
    exact hpaid
  · intro hpaid
    exact ⟨cause, l₂, hrun₂, hpaid⟩

/-- A deposit that is not refused is not refunded. -/
theorem not_overpays_of_not_refused {result : Except Stop Receipt}
    (hrun : (postLeg t r s .withdraw).runIn l = (.ok taken, l₁))
    (hrun₂ : (postLeg t r s .deposit).runIn l₁ = (result, l₂))
    (hresult : ∀ cause, result ≠ .error (.refused cause)) : ¬l.Overpays t r s := by
  rw [overpays_iff hrun]
  rintro ⟨cause, l', hrefused, -⟩
  rw [hrun₂] at hrefused
  exact hresult cause (congrArg Prod.fst hrefused)

end

/-- **What comes of the reservations:** they agree with the log, unless something happened after
which an attempt is paid and refunded. -/
def Results (overpaid : Prop) (l : Ledger (Faulty Memory)) : Prop :=
  (¬overpaid ∧ l.memory.Tidy) ∨ (overpaid ∧ l.memory.Doubled)

/-- The same after work on one reservation. -/
def Concludes (l : Ledger (Faulty Memory)) (number : String) (overpaid : Prop)
    (l' : Ledger (Faulty Memory)) : Prop :=
  l.Leaves number l' ∧ l'.Results overpaid

namespace Settling

variable {r : Reservation} {s : Settlement}

/-- A deposit and a refund of one attempt. -/
theorem doubled (h : l.Settling r s) (hids : l'.memory.ids = l.memory.ids)
    (hreservations : l'.memory.reservations = l.memory.reservations)
    (hdeposit : l'.memory.Bears (r.legRef s .deposit))
    (hrefund : l'.memory.Bears (r.legRef s .refund)) : l'.memory.Doubled := by
  obtain ⟨x, hx, hnumber, hs, -⟩ := h.row
  obtain ⟨i, -, hi⟩ := (h.tidy.rows x hx).attempt s hs
  rw [Leg.legRef_eq, hi, ← hids] at hdeposit hrefund
  refine ⟨r.number, i + 1, ⟨x, hreservations ▸ hx, hnumber⟩, ?_, ?_⟩
  · exact Memory.hasLeg_iff.2 ⟨s.settleRef, hdeposit⟩
  · exact Memory.hasLeg_iff.2 ⟨s.settleRef, hrefund⟩

/-- If the withdraw leg is refused, the settlement is given up or waits. -/
theorem ends_giveUp (h : l.Settling r s) :
    (giveUpUnlessPosted r s).Ends (fun _ l' => l.Leaves r.number l' ∧ l'.memory.Tidy)
      (fun _ l' => l.Leaves r.number l' ∧ l'.memory.Tidy) l := by
  unfold giveUpUnlessPosted
  refine (h.loud.within_findPosting _).and_then (fun found l₁ h₁ hfound => ?_) fun _ l' hl =>
    ⟨hl.leaves, (h.still hl).tidy⟩
  have hsettling := h.still h₁
  cases found with
  | some p => exact ⟨h₁.leaves, hsettling.tidy⟩
  | none =>
    -- Nothing was taken, so nothing was paid either.
    have htaken : ¬l₁.memory.Bears (r.legRef s .withdraw) := by
      rw [Memory.bears_iff hsettling.tidy.sound, h₁.memory, ← hfound]
      rintro ⟨p, ⟨⟩⟩
    have hpaid : ¬l₁.memory.Bears (r.legRef s .deposit) :=
      fun hdeposit => htaken (hsettling.paid hdeposit).1
    rw [ends_bind]
    refine Ends.imp (hsettling.ends_clear hpaid fun hwithdraw => absurd hwithdraw htaken)
      fun l₂ h₂ => ?_
    exact ⟨h₁.leaves.trans h₂.1, h₂.2⟩

/-- **Returning what was taken** because the deposit was refused. -/
theorem ends_refund (h : l.Settling r s) :
    (refundAndGiveUp t r s).Ends (fun _ l' => l.Concludes r.number (l.RefundsPaid t r s) l')
      (fun _ l' => l.Concludes r.number (l.RefundsPaid t r s) l') l := by
  unfold refundAndGiveUp
  rw [ends_bind, ends_attempt]
  refine Ends.mono (h.loud.ends_postLeg h.tidy.sound r s .refund).traced (fun returned l₁ hok => ?_)
    fun stop l₁ hstop => ?_
  · obtain ⟨⟨hfollows, hg⟩, hrun⟩ := hok
    have hrefund : l₁.memory.Bears (r.legRef s .refund) := (hg.bears _).2 (.inr rfl)
    have hleaves : l.Leaves r.number l₁ := leaves_of_gains hfollows hg
    rw [ends_bind]
    by_cases hpaid : l.memory.Bears (r.legRef s .deposit)
    · -- The receiver was paid before, and giving the settlement up does not mend that.
      have hover : l.RefundsPaid t r s := ⟨hpaid, returned, l₁, hrun⟩
      have hdoubled := h.doubled hg.ids hg.reservations ((hg.bears _).2 (.inl hpaid)) hrefund
      have hclear := (hfollows.loud h.loud).ends_amend (c := .clearSettlement r.number) hdoubled rfl
        fun _ _ _ _ => hdoubled.amended r.number fun _ => rfl
      refine Ends.imp hclear fun l₂ h₂ => ?_
      exact ⟨hleaves.trans h₂.1, .inr ⟨hover, h₂.2⟩⟩
    · have hnot : ¬l.RefundsPaid t r s := fun hover => hpaid hover.1
      have hunpaid : ¬l₁.memory.Bears (r.legRef s .deposit) := by
        rw [hg.bears]
        rintro (hdeposit | heq)
        · exact hpaid hdeposit
        · exact nomatch Leg.legRef_inj heq
      refine Ends.imp ((h.leg hfollows hg hpaid).ends_clear hunpaid fun _ => hrefund)
        fun l₂ h₂ => ?_
      exact ⟨hleaves.trans h₂.1, .inl ⟨hnot, h₂.2⟩⟩
  · obtain ⟨⟨hfollows, hg⟩, hrun⟩ := hstop
    have hconcludes : l.Concludes r.number (l.RefundsPaid t r s) l₁ := by
      refine ⟨leaves_of_gains hfollows hg, .inl ⟨?_, (h.idle hfollows hg).tidy⟩⟩
      rintro ⟨-, returned, l₂, hok⟩
      rw [hrun] at hok
      cases hok
    exact ⟨fun _ _ => hconcludes, fun _ => hconcludes⟩

/-- **Settling,** in all its endings. -/
theorem ends_settle (h : l.Settling r s) (hrefund : ¬l.memory.Bears (r.legRef s .refund)) :
    (settle t r s).Ends (fun _ l' => l.Concludes r.number (l.Overpays t r s) l')
      (fun _ l' => l.Concludes r.number (l.Overpays t r s) l') l := by
  unfold settle
  rw [ends_bind, ends_attempt]
  refine Ends.mono (h.loud.ends_postLeg h.tidy.sound r s .withdraw).traced
    (fun taken l₁ hok => ?_) fun stop l₁ hstop => ?_
  · obtain ⟨⟨hfollows, hg⟩, hrun⟩ := hok
    have hsettling := h.leg hfollows hg trivial
    have hleaves : l.Leaves r.number l₁ := leaves_of_gains hfollows hg
    have hwithdraw : l₁.memory.Bears (r.legRef s .withdraw) := (hg.bears _).2 (.inr rfl)
    have hunrefunded : ¬l₁.memory.Bears (r.legRef s .refund) := by
      rw [hg.bears]
      rintro (hold | heq)
      · exact hrefund hold
      · exact nomatch Leg.legRef_inj heq
    -- The funds are taken. From here on all depends on the deposit leg.
    rw [ends_bind, ends_attempt]
    refine Ends.mono (hsettling.loud.ends_postLeg hsettling.tidy.sound r s .deposit).traced
      (fun given l₂ hok₂ => ?_) fun stop l₂ hstop₂ => ?_
    · obtain ⟨⟨hfollows₂, hg₂⟩, hrun₂⟩ := hok₂
      have hsettling₂ := hsettling.leg hfollows₂ hg₂ ⟨hwithdraw, hunrefunded⟩
      have hleaves₂ : l.Leaves r.number l₂ := hleaves.trans (leaves_of_gains hfollows₂ hg₂)
      have hnot : ¬l.Overpays t r s := not_overpays_of_not_refused hrun hrun₂ fun _ => nofun
      rw [ends_bind]
      refine Ends.imp (hsettling₂.ends_commit ((hg₂.bears _).2 (.inr rfl))) fun l₃ h₃ => ?_
      exact ⟨hleaves₂.trans h₃.1, .inl ⟨hnot, h₃.2⟩⟩
    · obtain ⟨⟨hfollows₂, hg₂⟩, hrun₂⟩ := hstop₂
      have hsettling₂ := hsettling.idle hfollows₂ hg₂
      have hleaves₂ : l.Leaves r.number l₂ := hleaves.trans (leaves_of_gains hfollows₂ hg₂)
      refine ⟨?_, ?_⟩
      · rintro cause rfl
        rw [ends_bind, overpays_iff_refundsPaid hrun hrun₂]
        refine Ends.imp hsettling₂.ends_refund fun l₃ h₃ => ?_
        exact ⟨hleaves₂.trans h₃.1, h₃.2⟩
      -- What aborts the operation leaves the settlement to the recovery.
      · rintro rfl
        refine ⟨hleaves₂, .inl ⟨?_, hsettling₂.tidy⟩⟩
        exact not_overpays_of_not_refused hrun hrun₂ fun _ => nofun
  · obtain ⟨⟨hfollows, hg⟩, hrun⟩ := hstop
    have hsettling := h.idle hfollows hg
    have hleaves : l.Leaves r.number l₁ := leaves_of_gains hfollows hg
    have hnot : ¬l.Overpays t r s := not_overpays_of_refused hrun
    -- Nothing was taken now, but a withdraw leg of an earlier pass may be in the log.
    refine ⟨fun cause _ => ?_, fun _ => ⟨hleaves, .inl ⟨hnot, hsettling.tidy⟩⟩⟩
    rw [ends_bind]
    refine Ends.imp hsettling.ends_giveUp fun l₂ h₂ => ?_
    exact ⟨hleaves.trans h₂.1, .inl ⟨hnot, h₂.2⟩⟩

/-- Where the receiver was not paid before, nothing is overpaid. -/
theorem not_overpays (h : l.Settling r s) (hunpaid : ¬l.memory.Bears (r.legRef s .deposit)) :
    ¬l.Overpays t r s := by
  rintro ⟨taken, l₁, htaken, cause, l₂, hrefused, hpaid, -⟩
  have htook := (h.loud.ends_postLeg (t := t) h.tidy.sound r s .withdraw).of_ok
    (congrArg Prod.fst htaken)
  rw [htaken] at htook
  have hsettling := h.leg htook.1 htook.2 trivial
  have hgave := (hsettling.loud.ends_postLeg (t := t) hsettling.tidy.sound r s .deposit).of_error
    (congrArg Prod.fst hrefused)
  rw [hrefused] at hgave
  rw [hgave.2.bears, or_false, htook.2.bears] at hpaid
  rcases hpaid with hold | heq
  · exact hunpaid hold
  · exact nomatch Leg.legRef_inj heq

end Settling

/-! ## 5. Reserving, claiming and closing -/

theorem Loud.ends_reserve (h : l.Loud) (hl : l.memory.Tidy) (r : ReserveRequest) :
    (reserve t r).Ends (fun _ l' => l'.memory.Tidy) (fun _ l' => l'.memory.Tidy) l := by
  refine Ledger.ends_reserve (I := fun l' => l'.memory.Tidy) r (fun l' hstill => hstill.memory ▸ hl)
    fun l₁ x hstill hnumber hstatus hnone => ?_
  have hl₁ : l₁.memory.Tidy := hstill.memory ▸ hl
  have hnumber₁ : x.number = l₁.memory.ids.reservation (l₁.memory.reserved + 1) := by
    rw [hstill.memory]
    exact hnumber
  refine (hstill.loud h).ends_ask (fun _ l₂ _ ha => ?_) fun _ l₂ hstill₂ => hstill₂.memory ▸ hl₁
  obtain ⟨table, hinsert, hm⟩ := Memory.answer_insertReservation ha
  rw [hm]
  exact hl₁.insert hinsert hnumber₁ hstatus hnone _

/-- A claim that is made takes the attempt that was offered. -/
theorem Loud.ends_begin (h : l.Loud) (number : String) (s : Settlement) :
    (ask (.beginSettlement number s)).Ends
      (fun b l' => l.Follows l' ∧ ∃ x ∈ l.memory.reservations.rows, x.number = number ∧
        b = x.isIdle ∧
          ((b = false ∧ l'.memory = l.memory) ∨ (b = true ∧ l'.memory =
            { l.memory.withReservations (l.memory.reservations.amended number fun x =>
              { x with settlement := some s }) with claimed := l.memory.claimed + 1 })))
      (fun _ l' => l.Still l') l := by
  refine h.ends_ask (fun b l' hfollows ha => ?_) fun _ _ h => h
  obtain ⟨x, hx, hb, hcases⟩ := Memory.answer_beginSettlement ha
  exact ⟨hfollows, x, ReservationTable.mem_of_find? hx, ReservationTable.find?_number hx, hb,
    hcases⟩

/-- **Claiming and settling** under an attempt that is new. -/
theorem Loud.ends_advanceReservation (h : l.Loud) (hplain : l.memory.ids.Plain)
    (hl : l.memory.Tidy) (hfresh : ∀ i < l.memory.claimed,
      l.memory.ids.attempt (i + 1) ≠ l.memory.ids.attempt (l.memory.claimed + 1))
    (number : String) (description ref issuer : Option String) :
    (advanceReservation t number description ref issuer).Ends (fun _ l' => l'.memory.Tidy)
      (fun _ l' => l'.memory.Tidy) l := by
  refine Ledger.ends_advanceReservation number description ref issuer
    (fun _ l' hstill => hstill.memory ▸ hl) fun l₁ r s hstill hr hstatus hs => ?_
  have h₁ := hstill.loud h
  have hl₁ : l₁.memory.Tidy := hstill.memory ▸ hl
  have hrmem : r ∈ l₁.memory.reservations.rows := by
    rw [hstill.memory]
    exact ReservationTable.mem_of_find? hr
  have hrnumber := ReservationTable.find?_number hr
  rw [← hstill.memory] at hfresh hs hplain
  rw [ends_bind]
  refine Ends.mono (h₁.ends_begin number s) (fun b l₂ hb => ?_) fun _ l₂ hstill₂ =>
    hstill₂.memory ▸ hl₁
  obtain ⟨hfollows, x, hx, hxnumber, hidle, hcases⟩ := hb
  obtain rfl := hl₁.eq_of_number hrmem hx (hxnumber.trans hrnumber.symm)
  rw [ends_bind, ends_require]
  rcases hcases with ⟨rfl, hm⟩ | ⟨rfl, hm⟩
  · refine ⟨fun htrue => ?_, fun _ => hm ▸ hl₁⟩
    cases htrue
  · refine ⟨fun _ => ?_, fun hfalse => ?_⟩
    · have hnone : x.settlement = none := by
        have hidle' := hidle.symm
        rw [Reservation.isIdle, Bool.and_eq_true] at hidle'
        exact Option.isNone_iff_eq_none.1 hidle'.2
      rw [← hrnumber] at hm
      have hsettling : l₂.Settling x s := by
        refine ⟨hfollows.loud h₁, by rw [hm]; exact hplain, ?_, ?_⟩
        · rw [hm]
          exact hl₁.begin hrmem hnone hstatus hs hfresh
        · rw [hm]
          refine ⟨{ x with settlement := some s }, List.mem_map.2 ⟨x, hrmem, ?_⟩, rfl, rfl, hstatus⟩
          rw [if_pos rfl]
      -- The attempt is new, so none of its legs is in the log, and nothing can be overpaid.
      have hno : ∀ leg, ¬l₂.memory.Bears (x.legRef s leg) := by
        intro leg
        rw [hm]
        exact hl₁.not_bears_fresh hrmem hs hfresh leg s.settleRef
      have hconclude : ∀ l₃, l₂.Concludes x.number (l₂.Overpays t x s) l₃ → l₃.memory.Tidy := by
        rintro l₃ ⟨-, ⟨-, htidy⟩ | ⟨hover, -⟩⟩
        · exact htidy
        · exact absurd hover (hsettling.not_overpays (hno .deposit))
      exact Ends.imp (hsettling.ends_settle (hno .refund)) hconclude
    · cases hfalse

theorem Loud.ends_closeIfIdle (h : l.Loud) (hl : l.memory.Tidy) (number : String)
    {status : ReservationStatus} (hstatus : status ≠ .committed) :
    (ask (.closeIfIdle number status)).Ends (fun _ l' => l.Leaves number l' ∧ l'.memory.Tidy)
      (fun _ l' => l.Leaves number l' ∧ l'.memory.Tidy) l := by
  refine h.ends_amend hl rfl fun x hx hnumber _ => ?_
  rw [← hnumber]
  exact hl.status hx status fun hcommitted => absurd hcommitted hstatus

theorem Loud.ends_cancelReservation (h : l.Loud) (hl : l.memory.Tidy) (number : String)
    (issuer : Option String) :
    (cancelReservation number issuer).Ends (fun _ l' => l'.memory.Tidy)
      (fun _ l' => l'.memory.Tidy) l := by
  refine Ledger.ends_cancelReservation (I := fun l' => l'.memory.Tidy) number issuer
    (fun l' hstill => hstill.memory ▸ hl) fun l₁ hstill => ?_
  exact Ends.imp ((hstill.loud h).ends_closeIfIdle (hstill.memory ▸ hl) number (by decide))
    fun _ hx => hx.2

theorem Loud.ends_sweep (h : l.Loud) (hl : l.memory.Tidy) (w : WorkerSettings) :
    (sweep w).Ends (fun _ l' => l'.Loud ∧ l'.memory.Tidy) (fun _ l' => l'.Loud ∧ l'.memory.Tidy)
      l := by
  refine Ledger.ends_sweep (I := fun l' => l'.Loud ∧ l'.memory.Tidy)
    (fun l₁ l₂ hstill hl₁ => ⟨hstill.loud hl₁.1, hstill.memory ▸ hl₁.2⟩) (fun l₁ number hl₁ => ?_) w
    ⟨h, hl⟩
  exact Ends.imp (hl₁.1.ends_closeIfIdle hl₁.2 number (by decide)) fun _ hx =>
    ⟨hx.1.loud hl₁.1, hx.2⟩

end Ledger

end WalletLedger
