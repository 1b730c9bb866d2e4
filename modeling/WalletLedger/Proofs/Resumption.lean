/-
An interrupted settlement ends where it was going.

A settlement that succeeds passes through three ledgers on its way: after the claim, after the
withdraw leg and after the deposit leg (`Course`). It can be interrupted in each of them, and what
is beside the stores is lost then. Settling again from there comes to the same end. The legs that
are in the log are recorded, so they are answered and nothing is written (`Memory.Underpins`), and
what is left of the course is run as it would have been run (`Course.from_withdraw`,
`Course.from_deposit`). That is a statement about one ledger; that the clock and the identifiers
have moved on by then is the matter of `Agreement.lean`.

From its end a settlement takes the same course once more without a single write
(`Course.from_end`), so nothing comes of resuming it again.
-/
import WalletLedger.Proofs.Advance
import WalletLedger.Proofs.Agreement
import WalletLedger.Proofs.Repetition

set_option autoImplicit false

namespace WalletLedger

open WalletLedger.Action

/-! ## 1. Legs that are posted -/

/-- **A request is answered:** it is recorded, and its currency is active. -/
structure Memory.Answered (m : Memory) (r : TransferRequest) : Prop where
  recorded : ∃ p, m.Records r p
  active : ∃ c, m.currencies.find? r.symbol = some c ∧ c.isActive = true

/-- **What a settlement can be resumed on:** the legs that are posted are answered, and none of it
was refunded. -/
structure Memory.Underpins (m : Memory) (systemUuid : String) (r : Reservation) (s : Settlement)
    (posted : List Leg) : Prop where
  sound : m.Sound
  unrefunded : ¬m.Bears (r.legRef s .refund)
  answered : ∀ leg ∈ posted, m.Answered (r.legRequest systemUuid s leg)

/-- Only the currencies, the wallets and the log tell what is answered. -/
theorem Memory.Answered.congr {m m' : Memory} {r : TransferRequest} (h : m.Answered r)
    (hwallets : m'.wallets = m.wallets) (hcurrencies : m'.currencies = m.currencies) :
    m'.Answered r := by
  obtain ⟨⟨p, hp⟩, c, hc, active⟩ := h
  have hfiles : m'.Files = m.Files := by
    funext account symbol id
    unfold Memory.Files Memory.Knows
    rw [hwallets]
  refine ⟨⟨p, ?_⟩, c, by rw [hcurrencies]; exact hc, active⟩
  exact
    { hp with
      found := by rw [hwallets]; exact hp.found
      precision := by
        unfold HasPrecision
        rw [hcurrencies]
        exact hp.precision
      source := hfiles ▸ hp.source
      dest := hfiles ▸ hp.dest }

/-- The status of the reservation does not matter, nor does its settlement. -/
theorem Memory.Underpins.amended {m : Memory} {systemUuid : String} {r : Reservation}
    {s : Settlement} {posted : List Leg} (h : m.Underpins systemUuid r s posted)
    (settlement : Option Settlement) (status : ReservationStatus) :
    m.Underpins systemUuid { r with settlement, status } s posted :=
  ⟨h.sound, h.unrefunded, h.answered⟩

namespace Ledger

variable {l l₁ l₂ l' done : Ledger (Faulty Memory)} {t : Terms} {r : Reservation} {s : Settlement}
  {posted : List Leg}

/-- A transfer does not touch the currencies, and the currency of one that has a receipt is
active. -/
theorem ends_transfer_currency (q : TransferRequest) :
    (transfer t q).Ends
      (fun _ l' => l'.memory.currencies = l.memory.currencies ∧
        ∃ c, l'.memory.currencies.find? q.symbol = some c ∧ c.isActive = true)
      (fun _ _ => True) l := by
  have hkept : Within (Evolves (· ≠ .currency)) (transfer t q) (fun _ _ => True) l := by
    refine within_transfer q ⟨?_, fun _ _ => nofun⟩
    rintro _ ⟨⟩ <;> nofun
  have hactive : (transfer t q).Ends
      (fun _ _ => ∃ c, l.memory.currencies.find? q.symbol = some c ∧ c.isActive = true)
      (fun _ _ => True) l := by
    refine ends_transfer_prepared q (fun _ _ _ => trivial) fun mv l₁ hprepared => ?_
    obtain ⟨c, hc, active, -⟩ := hprepared.currency
    exact ends_iff.2 ⟨fun _ _ => ⟨c, hc, active⟩, fun _ _ => trivial⟩
  refine Ends.mono (hkept.and hactive) (fun _ l' hdone => ?_) fun _ _ _ => trivial
  obtain ⟨⟨hmoves, -⟩, c, hc, active⟩ := hdone
  have hcurrencies := hmoves.currencies fun h => h rfl
  exact ⟨hcurrencies, c, hcurrencies ▸ hc, active⟩

/-- **Posting a leg makes it one that is answered,** and the others stay so. -/
theorem Sure.underpins_postLeg (hsure : l.Sure) (h : l.memory.Underpins t.systemUuid r s posted)
    {leg : Leg} (hleg : leg ≠ .refund) {receipt : Receipt}
    (hrun : (postLeg t r s leg).runIn l = (.ok receipt, l')) :
    l'.Sure ∧ l'.memory.reservations = l.memory.reservations ∧
      l'.memory.Underpins t.systemUuid r s (leg :: posted) := by
  have hloud : l.Loud := fun mode hmode => absurd hmode (hsure mode)
  have hgains := (hloud.ends_postLeg (t := t) h.sound r s leg).of_ok (congrArg Prod.fst hrun)
  have hrecords := (ends_transfer_records (t := t) h.sound
    (legRequest_ref t.systemUuid r s leg)).of_ok (congrArg Prod.fst hrun)
  have hcurrency := (ends_transfer_currency (t := t) (l := l) (r.legRequest t.systemUuid s leg)).of_ok
    (congrArg Prod.fst hrun)
  have hwrites := (within_transfer (t := t) (l := l) (f := fun _ => True)
    (r.legRequest t.systemUuid s leg) ⟨fun _ _ => trivial, fun _ _ => trivial⟩).moves.writes
  change (transfer t (r.legRequest t.systemUuid s leg)).runIn l = _ at hrun
  rw [postLeg, hrun] at hgains
  rw [hrun] at hrecords hcurrency hwrites
  obtain ⟨hfollows, hgains⟩ := hgains
  obtain ⟨p, -, hp⟩ := hrecords
  obtain ⟨hcurrencies, hactive⟩ := hcurrency
  refine ⟨hfollows.sure hsure, hgains.reservations, hgains.sound h.sound, ?_, ?_⟩
  · rw [hgains.bears]
    rintro (hrefund | heq)
    · exact h.unrefunded hrefund
    · exact hleg (Leg.legRef_inj heq).symm
  · intro other hother
    rcases List.mem_cons.1 hother with rfl | hother
    · exact ⟨⟨p, hp⟩, hactive⟩
    · obtain ⟨⟨q, hq⟩, c, hc, active⟩ := h.answered other hother
      exact ⟨⟨q, hwrites.records hq⟩, c, hcurrencies ▸ hc, active⟩

/-- A leg that is posted is answered, and nothing is written. -/
theorem Sure.answers_postLeg (hsure : l.Sure) (h : l.memory.Underpins t.systemUuid r s posted)
    {leg : Leg} (hleg : leg ∈ posted) : ∃ receipt, (postLeg t r s leg).Answers receipt l := by
  obtain ⟨⟨p, hp⟩, c, hc, active⟩ := h.answered leg hleg
  exact ⟨p.receipt, hsure.answers_transfer h.sound hp hc active⟩

/-! ## 2. The course of a settlement -/

/-- **The course of a settlement that succeeds,** by the ledgers that it passes through. -/
structure Course (t : Terms) (r : Reservation) (s : Settlement)
    (l l₁ l₂ done : Ledger (Faulty Memory)) : Prop where
  withdraw : ∃ taken, (postLeg t r s .withdraw).runIn l = (.ok taken, l₁)
  deposit : ∃ given, (postLeg t r s .deposit).runIn l₁ = (.ok given, l₂)
  commit : ∃ b, (ask (.updateStatusIf r.number .reserved .committed)).runIn l₂ = (.ok b, done)

/-- A settlement succeeds just if it has such a course. -/
theorem runIn_settle_eq_ok :
    (∃ receipt, (settle t r s).runIn l = (.ok receipt, done)) ↔
      ∃ l₁ l₂, Course t r s l l₁ l₂ done := by
  unfold settle
  simp only [runIn_bind_eq_ok]
  constructor
  · rintro ⟨receipt, x, l₁, hx, hrest⟩
    cases x with
    | error cause =>
      -- What is refused has no receipt, whatever is done before.
      obtain ⟨_, _, -, hrefuse⟩ := runIn_bind_eq_ok.1 hrest
      cases hrefuse
    | ok taken =>
      obtain ⟨y, l₂, hy, hrest⟩ := runIn_bind_eq_ok.1 hrest
      cases y with
      | error cause =>
        obtain ⟨_, _, -, hrefuse⟩ := runIn_bind_eq_ok.1 hrest
        cases hrefuse
      | ok given =>
        obtain ⟨b, l₃, hb, hpure⟩ := runIn_bind_eq_ok.1 hrest
        cases hpure
        exact ⟨l₁, l₂, ⟨taken, runIn_attempt_eq_ok.1 hx⟩, ⟨given, runIn_attempt_eq_ok.1 hy⟩, b, hb⟩
  · rintro ⟨l₁, l₂, ⟨taken, htaken⟩, ⟨given, hgiven⟩, b, hb⟩
    refine ⟨{ taken with
      destUuid := given.destUuid, destKind := given.destKind,
      receivedAmount := given.receivedAmount }, .ok taken, l₁, runIn_attempt_eq_ok.2 htaken, ?_⟩
    refine runIn_bind_eq_ok.2 ⟨_, l₂, runIn_attempt_eq_ok.2 hgiven, ?_⟩
    exact runIn_bind_eq_ok.2 ⟨b, done, hb, rfl⟩

namespace Course

/-- **From after the withdraw leg** the course is the same. -/
theorem from_withdraw (h : Course t r s l l₁ l₂ done) (hsure : l₁.Sure)
    (hl : l₁.memory.Underpins t.systemUuid r s posted) (hposted : Leg.withdraw ∈ posted) :
    Course t r s l₁ l₁ l₂ done :=
  ⟨hsure.answers_postLeg hl hposted, h.deposit, h.commit⟩

/-- **From after the deposit leg** only the status is left. -/
theorem from_deposit (h : Course t r s l l₁ l₂ done) (hsure : l₂.Sure)
    (hl : l₂.memory.Underpins t.systemUuid r s [.deposit, .withdraw]) :
    Course t r s l₂ l₂ l₂ done :=
  ⟨hsure.answers_postLeg hl (by decide), hsure.answers_postLeg hl (by decide), h.commit⟩

/-- **From its end** nothing is left. -/
theorem from_end (hsure : done.Sure)
    (hl : done.memory.Underpins t.systemUuid r s [.deposit, .withdraw])
    {row : Reservation} (hrow : done.memory.reservations.find? r.number = some row)
    (hstatus : row.status = .committed) : Course t r s done done done done := by
  refine ⟨hsure.answers_postLeg hl (by decide), hsure.answers_postLeg hl (by decide), false, ?_⟩
  refine hsure.answers_ask ?_
  simp only [Memory.answer, Memory.answering, ReservationTable.updateStatusIf,
    ReservationTable.changeIf, hrow, hstatus]
  rfl

/-- **After the withdraw leg** a settlement can be resumed on it. -/
theorem after_withdraw (h : Course t r s l l₁ l₂ done) (hsure : l.Sure)
    (hl : l.memory.Underpins t.systemUuid r s []) :
    l₁.Sure ∧ l₁.memory.reservations = l.memory.reservations ∧
      l₁.memory.Underpins t.systemUuid r s [.withdraw] := by
  obtain ⟨taken, htaken⟩ := h.withdraw
  have hleg : Leg.withdraw ≠ .refund := by decide
  exact hsure.underpins_postLeg hl hleg htaken

/-- **After the deposit leg** it can be resumed on both. -/
theorem after_deposit (h : Course t r s l l₁ l₂ done) (hsure : l.Sure)
    (hl : l.memory.Underpins t.systemUuid r s []) :
    l₂.Sure ∧ l₂.memory.reservations = l.memory.reservations ∧
      l₂.memory.Underpins t.systemUuid r s [.deposit, .withdraw] := by
  obtain ⟨hsure₁, hreservations, hl₁⟩ := h.after_withdraw hsure hl
  obtain ⟨given, hgiven⟩ := h.deposit
  have hleg : Leg.deposit ≠ .refund := by decide
  obtain ⟨hsure₂, hreservations₂, hl₂⟩ := hsure₁.underpins_postLeg hl₁ hleg hgiven
  exact ⟨hsure₂, hreservations₂.trans hreservations, hl₂⟩

/-- **At its end** the reservation is committed. -/
theorem at_end (h : Course t r s l l₁ l₂ done) (hsure : l.Sure)
    (hl : l.memory.Underpins t.systemUuid r s []) {row : Reservation}
    (hrow : l.memory.reservations.find? r.number = some row) (hstatus : row.status = .reserved) :
    done.Sure ∧ done.memory.Underpins t.systemUuid r s [.deposit, .withdraw] ∧
      done.memory.reservations.find? r.number = some { row with status := .committed } := by
  obtain ⟨hsure₂, hreservations, hl₂⟩ := h.after_deposit hsure hl
  obtain ⟨b, hb⟩ := h.commit
  rw [← hreservations] at hrow
  have hcommit := (succeeds_changeIf (c := .updateStatusIf r.number .reserved .committed) rfl hrow
    (by simp [hstatus]) l₂ hsure₂ rfl).of_ok (congrArg Prod.fst hb)
  rw [hb] at hcommit
  obtain ⟨hsure₃, -, hm⟩ := hcommit
  refine ⟨hsure₃, ⟨?_, ?_, fun leg hleg => ?_⟩, ?_⟩
  · rw [hm]
    exact ⟨hl₂.sound.wallets, hl₂.sound.rowIds, hl₂.sound.lastRow, hl₂.sound.held⟩
  · rw [hm]
    exact hl₂.unrefunded
  · exact (hl₂.answered leg hleg).congr (by rw [hm]; rfl) (by rw [hm]; rfl)
  · rw [hm]
    have hfind := ReservationTable.find?_amended
      (g := fun x => { x with status := .committed }) (fun _ => rfl) hrow r.number
    exact hfind.trans (if_pos rfl)

end Course

/-! ## 3. Interrupted and resumed -/

/-- Posts legs one after the other. -/
def postLegs (t : Terms) (r : Reservation) (s : Settlement) :
    List Leg → Action (Ledger (Faulty Memory)) Unit
  | [] => return
  | leg :: rest => do
    let _ ← postLeg t r s leg
    postLegs t r s rest

/-- **Advancing that is interrupted** when the reservation is claimed and these legs are posted. -/
def advanceUntil (t : Terms) (number : String) (description ref issuer : Option String)
    (posted : List Leg) : Action (Ledger (Faulty Memory)) Unit := do
  let claimed ← claimReservation number description ref issuer
  postLegs t claimed.1 claimed.2 posted

/-- **Wherever the course is cut,** it leads from there to its end. -/
theorem Course.cut (h : Course t r s l l₁ l₂ done) (hsure : l.Sure)
    (hl : l.memory.Underpins t.systemUuid r s []) (hposted : posted <+: [.withdraw, .deposit]) :
    ∃ cut, (postLegs t r s posted).runIn l = (.ok (), cut) ∧ cut.Sure ∧
      cut.memory.reservations = l.memory.reservations ∧
      cut.memory.Underpins t.systemUuid r s [] ∧ ∃ l₁ l₂, Course t r s cut l₁ l₂ done := by
  have hnone : ∀ {m : Memory} {posted : List Leg}, m.Underpins t.systemUuid r s posted →
      m.Underpins t.systemUuid r s [] := fun hm => ⟨hm.sound, hm.unrefunded, nofun⟩
  obtain ⟨hsure₁, hreservations₁, hl₁⟩ := h.after_withdraw hsure hl
  obtain ⟨hsure₂, hreservations₂, hl₂⟩ := h.after_deposit hsure hl
  obtain ⟨taken, htaken⟩ := h.withdraw
  obtain ⟨given, hgiven⟩ := h.deposit
  have hcases : posted = [] ∨ ∃ rest, posted = .withdraw :: rest ∧
      (rest = [] ∨ rest = [.deposit]) := by
    simpa [List.prefix_cons_iff] using hposted
  rcases hcases with rfl | ⟨_, rfl, rfl | rfl⟩
  · exact ⟨l, rfl, hsure, rfl, hl, l₁, l₂, h⟩
  · refine ⟨l₁, ?_, hsure₁, hreservations₁, hnone hl₁, l₁, l₂,
      h.from_withdraw hsure₁ hl₁ List.mem_cons_self⟩
    exact runIn_bind_eq_ok.2 ⟨taken, l₁, htaken, rfl⟩
  · refine ⟨l₂, ?_, hsure₂, hreservations₂, hnone hl₂, l₂, l₂, h.from_deposit hsure₂ hl₂⟩
    refine runIn_bind_eq_ok.2 ⟨taken, l₁, htaken, ?_⟩
    exact runIn_bind_eq_ok.2 ⟨given, l₂, hgiven, rfl⟩

/-- **Resuming is settling again,** if nothing was refunded. -/
theorem Sure.runIn_resume (hsure : l.Sure) (hl : l.memory.Underpins t.systemUuid r s posted)
    (hs : r.settlement = some s) {receipt : Receipt}
    (hrun : (settle t r s).runIn l = (.ok receipt, l')) :
    (resume t r).runIn l = (.ok .committed, l') := by
  have hnone : l.memory.wallets.byRef? (r.legRef s .refund) = none := by
    rw [Option.eq_none_iff_forall_ne_some]
    intro p hp
    exact hl.unrefunded ((Memory.bears_iff hl.sound).2 ⟨p, hp⟩)
  have hread : (findPosting (r.legRef s .refund)).Answers none l :=
    hnone ▸ hsure.answers_findPosting _
  unfold resume
  rw [hs]
  refine runIn_bind_eq_ok.2 ⟨none, l, hread, ?_⟩
  exact runIn_bind_eq_ok.2 ⟨receipt, l', hrun, rfl⟩

/-- The recovery reports what it has resumed. -/
theorem runIn_recoverOne {status : ReservationStatus}
    (hrun : (resume t r).runIn l = (.ok status, l')) :
    ∃ l'', (recoverOne t r).runIn l = (.ok true, l'') ∧ l''.memory = l'.memory := by
  have hreport : (do
      report (.settlementRecovered r.number status)
      return true : Action (Ledger (Faulty Memory)) Bool).runIn l' =
        (.ok true, { l' with events := .settlementRecovered r.number status :: l'.events }) := rfl
  exact ⟨_, runIn_bind_eq_ok.2 ⟨.ok status, l', runIn_attempt_eq_ok.2 hrun, hreport⟩, rfl⟩

/-- **Recovery does not depend on where a settlement was interrupted.** Where advancing succeeds, let
it be interrupted when the reservation is claimed, after the withdraw leg, or after the deposit leg;
all that was beside the stores may be lost. Then the reservation is found with its settlement, and
resuming commits it. The rows are those that advancing leaves when it is not interrupted, up to the
identifiers and times of the postings: the same balances and versions, and the same log. Resuming
the reservation again changes nothing at all, as it was found before or as it is found now.

The attempt that comes next is one that no reference in the log holds. -/
theorem resume_completes (hl : l.Reachable t) (hsure : l.Sure)
    (hfresh : ∀ p ∈ l.memory.wallets.log, ∀ ref, p.ref = some ref →
      ¬l.memory.fresh.attempt.toList <:+: ref.toList)
    (number : String) (description ref issuer : Option String) {receipt : Receipt}
    (hadvance : (advanceReservation t number description ref issuer).runIn l = (.ok receipt, done))
    (hposted : posted <+: [.withdraw, .deposit]) :
    ∃ cut row, (advanceUntil t number description ref issuer posted).runIn l = (.ok (), cut) ∧
      cut.memory.reservations.find? number = some row ∧ row.status = .reserved ∧
      row.settlement.isSome = true ∧
      ∀ k : Ledger (Faulty Memory), k.Sure → k.memory = cut.memory →
        ∃ k' row', (resume t row).runIn k = (.ok .committed, k') ∧
          (∃ k'', (recoverOne t row).runIn k = (.ok true, k'') ∧ k''.memory = k'.memory) ∧
          k'.memory.undated = done.memory.undated ∧
          k'.memory.reservations.find? number = some row' ∧ row'.status = .committed ∧
          ∀ k'' : Ledger (Faulty Memory), k''.Sure → k''.memory = k'.memory →
            (resume t row).runIn k'' = (.ok .committed, k'') ∧
            (resume t row').runIn k'' = (.ok .committed, k'') := by
  rw [advanceReservation_eq] at hadvance
  obtain ⟨⟨r, s⟩, l₀, hclaim, hsettle⟩ := runIn_bind_eq_ok.1 hadvance
  have hclaimed := (hsure.ends_claimReservation number description ref issuer).of_ok
    (congrArg Prod.fst hclaim)
  rw [hclaim] at hclaimed
  obtain ⟨hnumber, hclaims, hattempt⟩ := hclaimed
  change r.number = number at hnumber
  subst hnumber
  have hl₀ : l₀.memory.Underpins t.systemUuid r s [] := by
    refine ⟨hclaims.sound hl.sound, ?_, nofun⟩
    rw [Memory.Bears, hclaims.wallets]
    rintro ⟨p, hp, href⟩
    exact hfresh p hp _ href (hattempt ▸ Leg.refund.infix_ref _ _ _)
  -- Where the settlement is cut, it can be settled again, to the same end.
  obtain ⟨l₁, l₂, hcourse⟩ := runIn_settle_eq_ok.1 ⟨receipt, hsettle⟩
  obtain ⟨cut, hlegs, hsure_cut, hreservations, hcut, c₁, c₂, hcourse_cut⟩ :=
    hcourse.cut (hclaims.sure hsure) hl₀ hposted
  obtain ⟨again, hagain⟩ := runIn_settle_eq_ok.2 ⟨c₁, c₂, hcourse_cut⟩
  refine ⟨cut, { r with settlement := some s }, runIn_bind_eq_ok.2 ⟨(r, s), l₀, hclaim, hlegs⟩,
    by rw [hreservations]; exact hclaims.found, hclaims.status, rfl, fun k hk hm => ?_⟩
  -- A ledger with the same rows does likewise, whatever its clock shows.
  obtain ⟨receipt', k', hrun, -, halike⟩ :=
    agrees_settle.of_ok ⟨hsure_cut, hk, congrArg Memory.undated hm.symm⟩ hagain
  rw [← hm] at hcut
  obtain ⟨k₁, k₂, hcourse_k⟩ := runIn_settle_eq_ok.1 ⟨receipt', hrun⟩
  have hrow : k.memory.reservations.find? r.number = some { r with settlement := some s } := by
    rw [hm, hreservations]
    exact hclaims.found
  obtain ⟨-, hend, hrow'⟩ := hcourse_k.at_end hk hcut hrow hclaims.status
  have hresume : (resume t { r with settlement := some s }).runIn k = (.ok .committed, k') :=
    hk.runIn_resume (hcut.amended (some s) r.status) rfl hrun
  refine ⟨k', { r with settlement := some s, status := .committed }, hresume,
    runIn_recoverOne hresume, halike.rows.symm, hrow', rfl, fun k₃ hk₃ hm₃ => ?_⟩
  -- From the end nothing is left to do.
  rw [← hm₃] at hend hrow'
  obtain ⟨receipt'', hrun'⟩ := runIn_settle_eq_ok.2 ⟨k₃, k₃, Course.from_end hk₃ hend hrow' rfl⟩
  exact ⟨hk₃.runIn_resume (hend.amended (some s) r.status) rfl hrun',
    hk₃.runIn_resume (hend.amended (some s) .committed) rfl hrun'⟩

end Ledger

namespace Small

/-- What is in the stores survives, and nothing else. -/
def restarted (l : Ledger (Faulty Memory)) : Ledger (Faulty Memory) := .start ⟨l.memory, []⟩ 0

def halfway : Except Stop Unit × Ledger (Faulty Memory) :=
  (Ledger.advanceUntil terms (ids.reservation 1) none none none [.withdraw]).runIn (reserved [])

end Small

open WalletLedger.Small in
/-- The gold is taken, and after a restart the silver is paid. -/
theorem Ledger.resume_completes_small :
    (reserved []).Reachable terms ∧ halfway.2.memory.wallets.log.length = 1 ∧
      ∃ row k', halfway.2.memory.reservations.find? (ids.reservation 1) = some row ∧
        (Ledger.resume terms row).runIn (restarted halfway.2) = (.ok .committed, k') ∧
        k'.memory.undated = (Small.advance (reserved [])).2.memory.undated ∧
        k'.memory.wallets.log.length = 2 := by
  have hok : (Small.advance (reserved [])).1.isOk = true := by decide +kernel
  obtain ⟨receipt, hreceipt⟩ : ∃ receipt, (Small.advance (reserved [])).1 = .ok receipt := by
    cases h : (Small.advance (reserved [])).1 with
    | ok receipt => exact ⟨receipt, rfl⟩
    | error stop => rw [h] at hok; cases hok
  obtain ⟨harmed, -, hlog⟩ : Small.Waits (reserved []) := by decide +kernel
  have hposted : [Leg.withdraw] <+: [.withdraw, .deposit] := by decide
  obtain ⟨cut, row, hcut, hrow, -, -, hresumes⟩ :=
    resume_completes (reachable.runAll _) (sure_of_unarmed harmed)
      (fun p hp => absurd (hlog ▸ hp) List.not_mem_nil) (ids.reservation 1) none none none
      (Prod.ext hreceipt rfl) hposted
  obtain rfl : halfway.2 = cut := congrArg Prod.snd hcut
  obtain ⟨k', -, hresume, -, hrows, -⟩ :=
    hresumes (restarted halfway.2) (sure_of_unarmed rfl) rfl
  refine ⟨reachable.runAll _, by decide +kernel, row, k', hrow, hresume, hrows, ?_⟩
  have hlength := congrArg (fun m : Memory => m.wallets.log.length) hrows
  simp only [Memory.undated, Memory.withWallets, WalletTable.undated, List.length_map] at hlength
  rw [hlength]
  decide +kernel

end WalletLedger
