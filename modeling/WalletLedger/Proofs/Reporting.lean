/-
What a pass of the recovery reports.

A pass takes up the settlements that have been under way for too long and resumes them one after the
other. Each of them meets one of five fates (`Fate`). It is finished; or it had been refunded before
and only the claim was left, which is released now; or a leg is refused, and then the claim is given
up if nothing was taken, or if what was taken is returned; or the claim stays for a later pass.

In all but the last the reservation is rid of its settlement afterwards, finished or undone. But a
settlement that is given up ends in the refusal of its leg, and a pass counts what was not refused.
So the number that it reports is too low by the settlements that it gave up, and it is the number of
those that were finished or undone if and only if it gave up none (`recover_reports`).

Nothing is asked of how the ledger came about, whoever did what to it and whatever failed on the
way. That the numbers of the reservations differ is all that matters, and they always do
(`Arises.keyed`).
-/
import WalletLedger.Proofs.Expiry
import WalletLedger.Proofs.Recovery
import WalletLedger.Proofs.Traversal

set_option autoImplicit false

namespace WalletLedger

open WalletLedger.Action

/-- An action that cannot stop has a value. -/
theorem Action.Ends.exists_ok {σ α : Type} {a : Action σ α} {Q : α → σ → Prop} {s : σ}
    (h : a.Ends Q (fun _ _ => False) s) : ∃ v s', a.runIn s = (.ok v, s') ∧ Q v s' := by
  cases hr : (a.runIn s).1 with
  | ok v => exact ⟨v, (a.runIn s).2, Prod.ext hr rfl, h.of_ok hr⟩
  | error stop => exact (h.of_error hr).elim

/-! ## 1. States that can come about -/

namespace Ledger

variable {t : Terms} {l l' : Ledger (Faulty Memory)}

/-- **The states that can come about,** by acts and by single calls of the stores, in any order and
with any outcome. -/
inductive Arises (t : Terms) : Ledger (Faulty Memory) → Prop where
  | initial (ids : IdSource) (clock : Instant) : Arises t (.initial ids clock)
  | act {l : Ledger (Faulty Memory)} (before : Arises t l) (a : Act) : Arises t (a.after t l)
  | call {l : Ledger (Faulty Memory)} {α : Type} (before : Arises t l) (c : Call α) :
      Arises t ((ask c).runIn l).2

theorem Arises.runAll (acts : List Act) : ∀ {l : Ledger (Faulty Memory)}, l.Arises t →
    (Act.runAll t l acts).Arises t := by
  induction acts with
  | nil => exact id
  | cons a acts ih => exact fun h => ih (h.act a)

theorem Reachable.arises (h : l.Reachable t) : l.Arises t := by
  obtain ⟨ids, clock, acts, rfl⟩ := h.act
  exact (Arises.initial ids clock).runAll acts

/-- Rows are kept under their numbers if they were. -/
def KeepsKeyed (l l' : Ledger (Faulty Memory)) : Prop :=
  l.memory.reservations.Keyed → l'.memory.reservations.Keyed

instance : IsTrans (Ledger (Faulty Memory)) KeepsKeyed := ⟨fun _ _ _ h h' => h' ∘ h⟩

theorem keepsKeyed_of_eq (h : l'.memory.reservations = l.memory.reservations) : KeepsKeyed l l' :=
  fun hl => h ▸ hl

theorem goes_ask_keyed {α : Type} (c : Call α) : Goes KeepsKeyed (ask c) :=
  goes_of_ends fun l => by
    have still : ∀ l', l.Still l' → KeepsKeyed l l' := fun l' h =>
      keepsKeyed_of_eq (by rw [h.memory])
    exact ends_ask (fun _ _ _ ha => Memory.keyed_answer ha) (fun _ l' h _ _ => still l' h)
      (fun _ => still) fun _ _ _ _ _ ha => Memory.keyed_answer ha

/-- Posting writes to the wallets, and not to the reservations. -/
theorem keepsKeyed_post (access : Access) (mv : Movement) :
    Within KeepsKeyed (post t access mv) (fun _ _ => True) l := by
  refine within_post_of (fun _ _ h => keepsKeyed_of_eq ?_) fun _ _ _ h => keepsKeyed_of_eq ?_
  · exact (Evolves.reservations h fun he => Effect.noConfusion he).1
  · obtain ⟨_, -, hm⟩ := h.made
    rw [hm]
    rfl

theorem carriesPosts_keyed : CarriesPosts t KeepsKeyed where
  trans h h' := h' ∘ h
  beside hstores _ := keepsKeyed_of_eq (by rw [memory, hstores, memory])
  call c _ := goes_ask_keyed c
  post access mv _ := (keepsKeyed_post access mv).moves

/-- **No number is given twice** in any state that can come about. -/
theorem Arises.keyed (h : l.Arises t) : l.memory.reservations.Keyed := by
  induction h with
  | initial => exact List.nodup_nil
  | @act l _ a ih =>
    by_cases hservice : a.IsService
    · exact carriesPosts_keyed.goes_act hservice l ih
    · cases a with
      | serve op =>
        cases op with
        | inject | arm => exact ih
        | _ => exact absurd trivial hservice
      | _ => exact absurd trivial hservice
  | call _ c ih => exact goes_ask_keyed c _ ih

end Ledger

/-! ## 2. Fates -/

/-- The reservation is rid of its settlement: it is committed, or nobody is settling it. -/
def Reservation.isResolved (r : Reservation) : Bool :=
  r.status == .committed || r.settlement.isNone

/-- **What becomes of a settlement that is resumed.** -/
inductive Fate where
  /-- Both legs are in the log, and the reservation is committed. -/
  | committed
  /-- It was refunded before, and the claim that was left is released. -/
  | released
  /-- The withdraw leg is refused, nothing was ever taken, and the claim is given up. -/
  | untaken
  /-- The deposit leg is refused, what was taken is returned, and the claim is given up. -/
  | returned
  /-- A leg is refused, and the claim stays: funds were taken that are not returned now. -/
  | waiting
deriving DecidableEq

namespace Fate

/-- Whether resuming has a value; otherwise it ends in a refusal. -/
def isAnswered : Fate → Bool
  | .committed | .released => true
  | _ => false

/-- Whether the claim is given up because a leg is refused. -/
def isGivenUp : Fate → Bool
  | .untaken | .returned => true
  | _ => false

/-- The row that a fate leaves. -/
def applied : Fate → Reservation → Reservation
  | .committed, r => { r with status := .committed }
  | .waiting, r => r
  | _, r => { r with settlement := none }

variable {f : Fate} {r : Reservation}

@[simp] theorem number_applied (f : Fate) (r : Reservation) : (f.applied r).number = r.number := by
  cases f <;> rfl

/-- **A reservation is rid of its settlement** if resuming it has a value, or if it is given up. -/
theorem isResolved_applied (hstatus : r.status = .reserved) (hs : r.settlement.isSome = true) :
    (f.applied r).isResolved = (f.isAnswered || f.isGivenUp) := by
  cases f <;> simp [applied, Reservation.isResolved, isAnswered, isGivenUp, hstatus,
    Option.isNone_eq_false_iff.2 hs]

/-- No fate is both. -/
theorem countP_or (fs : List Fate) :
    fs.countP (fun f => f.isAnswered || f.isGivenUp) =
      fs.countP isAnswered + fs.countP isGivenUp := by
  induction fs with
  | nil => rfl
  | cons f fs ih =>
    rw [List.countP_cons, List.countP_cons, List.countP_cons, ih]
    cases f <;> simp [isAnswered, isGivenUp] <;> omega

theorem isGivenUp_iff : f.isGivenUp = true ↔ f = .untaken ∨ f = .returned := by
  cases f <;> simp [isGivenUp]

end Fate

namespace Ledger

variable {t : Terms} {l l₁ l' : Ledger (Faulty Memory)} {r : Reservation} {s : Settlement}

/-- **The fate of a settlement whose legs are posted,** or posted again. -/
def settledFate (t : Terms) (r : Reservation) (s : Settlement) (l : Ledger (Faulty Memory)) :
    Fate :=
  match (postLeg t r s .withdraw).runIn l with
  | (.error _, l₁) =>
    if (l₁.memory.wallets.byRef? (r.legRef s .withdraw)).isSome then .waiting else .untaken
  | (.ok _, l₁) =>
    match (postLeg t r s .deposit).runIn l₁ with
    | (.ok _, _) => .committed
    | (.error _, l₂) => if ((postLeg t r s .refund).runIn l₂).1.isOk then .returned else .waiting

/-- **The fate of the settlement of a reservation,** if it is resumed. -/
def fate (t : Terms) (r : Reservation) (l : Ledger (Faulty Memory)) : Fate :=
  match r.settlement with
  | none => .released
  | some s =>
    if (l.memory.wallets.byRef? (r.legRef s .refund)).isSome then .released else settledFate t r s l

/-- **The fates of settlements** that are resumed one after the other. -/
def fates (t : Terms) : List Reservation → Ledger (Faulty Memory) → List Fate
  | [], _ => []
  | r :: rest, l => fate t r l :: fates t rest ((recoverOne t r).runIn l).2

/-! ## 3. Resuming one settlement -/

/-- Nothing fails, and the reservations are as they were. -/
structure Keeps (l l' : Ledger (Faulty Memory)) : Prop where
  sure : l'.Sure
  same : l'.memory.reservations = l.memory.reservations

/-- **A settlement meets its fate:** the row is as the fate leaves it, and the other rows are as
they were. -/
structure Meets (l : Ledger (Faulty Memory)) (r : Reservation) (f : Fate)
    (l' : Ledger (Faulty Memory)) : Prop where
  sure : l'.Sure
  table : l'.memory.reservations = l.memory.reservations.amended r.number f.applied

/-- **A reservation can be resumed:** it is found as it is described, in the middle of a settlement,
and nothing fails. -/
structure Resumable (l : Ledger (Faulty Memory)) (r : Reservation) : Prop where
  sure : l.Sure
  row : l.memory.reservations.find? r.number = some r
  status : r.status = .reserved
  settlement : r.settlement.isSome = true

theorem Still.keeps (h : l.Still l') (hl : l.Sure) : l.Keeps l' :=
  ⟨h.sure hl, by rw [h.memory]⟩

theorem Keeps.meets {f : Fate} (h : l.Keeps l₁) (h' : l₁.Meets r f l') : l.Meets r f l' :=
  ⟨h'.sure, by rw [h'.table, h.same]⟩

/-- A claim that stays leaves the table alone. -/
theorem Keeps.meets_waiting (h : l.Keeps l') : l.Meets r .waiting l' := by
  refine ⟨h.sure, ?_⟩
  rw [h.same, ReservationTable.amended]
  simp [Fate.applied]

theorem Meets.still {f : Fate} (h : l.Meets r f l₁) (hl : l₁.Still l') : l.Meets r f l' :=
  ⟨hl.sure h.sure, by rw [hl.memory, h.table]⟩

/-- **Posting a leg** does not fail by itself, and it leaves the reservations alone. -/
theorem Sure.ends_postLeg (h : l.Sure) (leg : Leg) :
    (postLeg t r s leg).Ends (fun _ l' => l.Keeps l')
      (fun stop l' => l.Keeps l' ∧ ∃ cause, stop = .refused cause) l := by
  have hmoves : Within (Evolves (· ≠ .reservation)) (postLeg t r s leg) (fun _ _ => True) l := by
    refine within_transfer _ ⟨?_, fun _ _ => nofun⟩
    rintro _ ⟨⟩ <;> nofun
  have hkeeps : ∀ {l'}, l.Evolves (· ≠ .reservation) l' → l.Keeps l' := fun hl =>
    ⟨hl.sure h, (hl.reservations fun hne => hne rfl).1⟩
  have hrefuses := (Early.transfer (t := t) (r.legRequest t.systemUuid s leg)).refuses l
  exact (hmoves.and hrefuses).mono (fun _ _ hl => hkeeps hl.1.1) fun _ _ hl =>
    ⟨hkeeps hl.1, hl.2⟩

namespace Resumable

theorem keeps (h : l.Resumable r) (hl : l.Keeps l') : l'.Resumable r :=
  ⟨hl.sure, by rw [hl.same, h.row], h.status, h.settlement⟩

/-- **Giving a claim up.** -/
theorem ends_clear (h : l.Resumable r) {f : Fate}
    (hf : f.applied = fun x => { x with settlement := none }) :
    (ask (.clearSettlement r.number)).Ends (fun _ l' => l.Meets r f l') (fun _ _ => False) l := by
  have hrun := h.sure.runIn_changeIf (c := .clearSettlement r.number) rfl h.row
    (by simp [h.status, h.settlement])
  rw [Ends, hrun]
  exact ⟨h.sure, by rw [hf]; rfl⟩

theorem ends_commit (h : l.Resumable r) :
    (ask (.updateStatusIf r.number .reserved .committed)).Ends
      (fun _ l' => l.Meets r .committed l') (fun _ _ => False) l := by
  have hrun := h.sure.runIn_changeIf (c := .updateStatusIf r.number .reserved .committed) rfl h.row
    (by simp [h.status])
  rw [Ends, hrun]
  exact ⟨h.sure, rfl⟩

/-- **Where the withdraw leg is refused,** the claim is given up if the leg is not in the log. -/
theorem ends_giveUp (h : l.Resumable r) (s : Settlement) :
    (giveUpUnlessPosted r s).Ends
      (fun _ l' => l.Meets r
        (if (l.memory.wallets.byRef? (r.legRef s .withdraw)).isSome then .waiting else .untaken) l')
      (fun _ _ => False) l := by
  unfold giveUpUnlessPosted
  rw [(h.sure.answers_findPosting _).ends_bind]
  cases l.memory.wallets.byRef? (r.legRef s .withdraw) with
  | some p => exact Keeps.meets_waiting ⟨h.sure, rfl⟩
  | none =>
    rw [ends_bind]
    exact h.ends_clear rfl

/-- **Where the deposit leg is refused,** the claim is given up if the refund can be posted. -/
theorem ends_refund (h : l.Resumable r) (s : Settlement) :
    (refundAndGiveUp t r s).Ends
      (fun _ l' => l.Meets r
        (if ((postLeg t r s .refund).runIn l).1.isOk then .returned else .waiting) l')
      (fun _ _ => False) l := by
  unfold refundAndGiveUp
  rw [ends_bind, ends_attempt]
  refine Ends.mono (h.sure.ends_postLeg .refund).traced (fun receipt l₁ hok => ?_)
    fun stop l₁ hstop => ?_
  · obtain ⟨hkeeps, hrun⟩ := hok
    rw [hrun, ends_bind]
    exact ((h.keeps hkeeps).ends_clear rfl).mono (fun _ _ hl => hkeeps.meets hl) fun _ _ => id
  · obtain ⟨⟨hkeeps, cause, rfl⟩, hrun⟩ := hstop
    rw [hrun]
    exact ⟨fun _ _ => hkeeps.meets_waiting, nofun⟩

/-- **Settling** has a receipt if and only if the reservation is committed. -/
theorem ends_settle (h : l.Resumable r) (s : Settlement) :
    (settle t r s).Ends
      (fun _ l' => (settledFate t r s l).isAnswered = true ∧ l.Meets r (settledFate t r s l) l')
      (fun stop l' => (∃ cause, stop = .refused cause) ∧
        (settledFate t r s l).isAnswered = false ∧ l.Meets r (settledFate t r s l) l') l := by
  unfold settle
  rw [ends_bind, ends_attempt]
  refine Ends.mono (h.sure.ends_postLeg .withdraw).traced (fun taken l₁ hok => ?_)
    fun stop l₁ hstop => ?_
  · obtain ⟨hkeeps, hrun⟩ := hok
    have h₁ := h.keeps hkeeps
    rw [ends_bind, ends_attempt]
    refine Ends.mono (h₁.sure.ends_postLeg .deposit).traced (fun given l₂ hok₂ => ?_)
      fun stop l₂ hstop₂ => ?_
    · obtain ⟨hkeeps₂, hrun₂⟩ := hok₂
      have hfate : settledFate t r s l = .committed := by simp only [settledFate, hrun, hrun₂]
      rw [hfate, ends_bind]
      refine (h₁.keeps hkeeps₂).ends_commit.mono (fun _ _ hl => ?_) fun _ _ => False.elim
      exact ⟨rfl, hkeeps.meets (hkeeps₂.meets hl)⟩
    · obtain ⟨⟨hkeeps₂, cause, rfl⟩, hrun₂⟩ := hstop₂
      have hfate : settledFate t r s l =
          if ((postLeg t r s .refund).runIn l₂).1.isOk then .returned else .waiting := by
        simp only [settledFate, hrun, hrun₂]
      have hrefused : (settledFate t r s l).isAnswered = false := by
        rw [hfate]
        split_ifs <;> rfl
      refine ⟨fun cause' _ => (ends_bind _).2 ?_, nofun⟩
      refine ((h₁.keeps hkeeps₂).ends_refund s).mono (fun _ l₃ hl => ?_) fun _ _ => False.elim
      rw [← hfate] at hl
      exact ⟨⟨cause', rfl⟩, hrefused, hkeeps.meets (hkeeps₂.meets hl)⟩
  · obtain ⟨⟨hkeeps, cause, rfl⟩, hrun⟩ := hstop
    have hfate : settledFate t r s l =
        if (l₁.memory.wallets.byRef? (r.legRef s .withdraw)).isSome then .waiting
        else .untaken := by
      simp only [settledFate, hrun]
    have hrefused : (settledFate t r s l).isAnswered = false := by
      rw [hfate]
      split_ifs <;> rfl
    refine ⟨fun cause' _ => (ends_bind _).2 ?_, nofun⟩
    refine ((h.keeps hkeeps).ends_giveUp s).mono (fun _ l₂ hl => ?_) fun _ _ => False.elim
    rw [← hfate] at hl
    exact ⟨⟨cause', rfl⟩, hrefused, hkeeps.meets hl⟩

/-- **Resuming** has a value if and only if the fate is one that is answered. -/
theorem ends_resume (h : l.Resumable r) :
    (resume t r).Ends (fun _ l' => (fate t r l).isAnswered = true ∧ l.Meets r (fate t r l) l')
      (fun stop l' => (∃ cause, stop = .refused cause) ∧
        (fate t r l).isAnswered = false ∧ l.Meets r (fate t r l) l') l := by
  obtain ⟨s, hs⟩ := Option.isSome_iff_exists.1 h.settlement
  unfold resume fate
  simp only [hs]
  rw [(h.sure.answers_findPosting _).ends_bind]
  cases l.memory.wallets.byRef? (r.legRef s .refund) with
  | some p =>
    rw [ends_bind]
    exact (h.ends_clear rfl).mono (fun _ _ hl => ⟨rfl, hl⟩) fun _ _ => False.elim
  | none =>
    rw [ends_bind]
    exact (h.ends_settle s).mono (fun _ _ hl => hl) fun _ _ hl => hl

/-- **One settlement of a pass:** it is counted if and only if its fate is one that is answered. -/
theorem ends_recoverOne (h : l.Resumable r) :
    (recoverOne t r).Ends
      (fun b l' => b = (fate t r l).isAnswered ∧ l.Meets r (fate t r l) l')
      (fun _ _ => False) l := by
  unfold recoverOne
  rw [ends_bind, ends_attempt]
  refine Ends.mono h.ends_resume (fun status l₁ hok => ?_) fun stop l₁ hstop => ?_
  · obtain ⟨hanswered, hl₁⟩ := hok
    exact (ends_bind _).2 ⟨hanswered.symm, hl₁.still (within_report _).moves⟩
  · obtain ⟨⟨cause, rfl⟩, hrefused, hl₁⟩ := hstop
    exact ⟨fun _ _ => (ends_bind _).2 ⟨hrefused.symm, hl₁.still (within_report _).moves⟩, nofun⟩

end Resumable

/-! ## 4. A pass -/

/-- Whether the reservation with a number is rid of its settlement. -/
def resolves (l : Ledger (Faulty Memory)) (number : String) : Bool :=
  (l.memory.reservations.find? number).any (·.isResolved)

/-- Only the row of the reservation itself is found to be another one. -/
theorem Meets.find? {f : Fate} (h : l.Meets r f l')
    (hr : l.memory.reservations.find? r.number = some r) (number : String) :
    l'.memory.reservations.find? number =
      if number = r.number then some (f.applied r) else l.memory.reservations.find? number := by
  rw [h.table, ReservationTable.find?_amended f.number_applied hr]

theorem Resumable.meets {x : Reservation} {f : Fate} (hx : l.Resumable x) (hr : l.Resumable r)
    (h : l.Meets r f l') (hne : x.number ≠ r.number) : l'.Resumable x :=
  ⟨h.sure, by rw [h.find? hr.row, if_neg hne, hx.row], hx.status, hx.settlement⟩

/-- **Resuming settlements in turn:** each meets its fate, no other row is touched, and those are
counted whose fates are answered. -/
theorem Sure.ends_recoverAll (rs : List Reservation) : ∀ {l : Ledger (Faulty Memory)}, l.Sure →
    (rs.map (·.number)).Nodup → (∀ r ∈ rs, l.Resumable r) →
      (recoverAll t rs).Ends
        (fun n l' => n = (fates t rs l).countP Fate.isAnswered ∧
          List.Forall₂
            (fun r f => l'.memory.reservations.find? r.number = some (f.applied r)) rs
            (fates t rs l) ∧
          ∀ number, number ∉ rs.map (·.number) →
            l'.memory.reservations.find? number = l.memory.reservations.find? number)
        (fun _ _ => False) l := by
  -- Induction on the reservations that are left: the one at the head leaves the others as they are,
  -- and they leave its row as its fate has left it.
  induction rs with
  | nil => exact fun _ _ _ => ⟨rfl, .nil, fun _ _ => rfl⟩
  | cons r rest ih =>
    intro l h hnodup hrs
    rw [List.map_cons, List.nodup_cons] at hnodup
    obtain ⟨hr, hrest⟩ := List.forall_mem_cons.1 hrs
    unfold recoverAll
    rw [ends_bind]
    refine Ends.mono (hr.ends_recoverOne (t := t)).traced (fun b l₁ hok => ?_) fun _ _ hno => hno.1
    obtain ⟨⟨hb, hmeets⟩, hrun⟩ := hok
    have hfates : fates t (r :: rest) l = fate t r l :: fates t rest l₁ := by rw [fates, hrun]
    have hothers : ∀ x ∈ rest, l₁.Resumable x := fun x hx =>
      (hrest x hx).meets hr hmeets fun heq => hnodup.1 (heq ▸ List.mem_map_of_mem hx)
    rw [ends_bind, hfates]
    refine (ih hmeets.sure hnodup.2 hothers).mono (fun n l' hdone => (ends_pure _).2 ?_)
      fun _ _ => id
    obtain ⟨hn, hall, hframe⟩ := hdone
    refine ⟨?_, .cons ?_ hall, fun number hnumber => ?_⟩
    · rw [List.countP_cons, hn, hb, Nat.add_comm]
    · rw [hframe _ hnodup.1, hmeets.find? hr.row, if_pos rfl]
    · rw [List.map_cons, List.mem_cons, not_or] at hnumber
      rw [hframe _ hnumber.2, hmeets.find? hr.row, if_neg hnumber.1]

/-- **Who is rid of the settlement afterwards,** by the fates that were met. -/
theorem countP_resolves {rs : List Reservation} {fs : List Fate}
    (h : List.Forall₂
      (fun r f => l'.memory.reservations.find? r.number = some (f.applied r)) rs fs)
    (hrs : ∀ r ∈ rs, l.Resumable r) :
    rs.countP (fun r => l'.resolves r.number) =
      fs.countP Fate.isAnswered + fs.countP Fate.isGivenUp := by
  rw [← Fate.countP_or]
  induction h with
  | nil => rfl
  | @cons r f rs fs hfound _ ih =>
    obtain ⟨hr, hrest⟩ := List.forall_mem_cons.1 hrs
    have hresolved : l'.resolves r.number = (f.isAnswered || f.isGivenUp) := by
      rw [resolves, hfound, Option.any_some, Fate.isResolved_applied hr.status hr.settlement]
    rw [List.countP_cons, List.countP_cons, ih hrest, hresolved]

/-- What is stalled can be resumed. -/
theorem Stalled.resumable (hr : l.Stalled r) (h : l.Sure) (hkeyed : l.memory.reservations.Keyed) :
    l.Resumable r := by
  obtain ⟨s, hs⟩ := hr.settlement
  exact ⟨h, hkeyed.find?_of_mem hr.row, hr.status, by rw [hs]; rfl⟩

/-- A pass takes up what is stalled, if the date since when it counts as such can be computed. -/
theorem Sure.runIn_gatherStalled (h : l.Sure) (w : WorkerSettings) {threshold : Instant}
    (hthreshold : (l.clock + 1).plusSeconds? (-(staleSecs w : Int)) = some threshold) :
    ∃ l₁, (gatherStalled w).runIn l =
      (.ok (l.memory.reservations.stalled threshold w.batchSize), l₁) ∧ l.Still l₁ := by
  set l₀ : Ledger (Faulty Memory) := { l with clock := l.clock + 1 }
  have hstill : l.Still l₀ := ⟨⟨rfl, fun _ => id⟩, rfl⟩
  have hnow : now.runIn l = (.ok (l.clock + 1), l₀) := rfl
  have hdate : (orAbort ((l.clock + 1).plusSeconds? (-(staleSecs w : Int))) :
      Action (Ledger (Faulty Memory)) Instant).runIn l₀ = (.ok threshold, l₀) := by
    rw [hthreshold]
    rfl
  have hread : (ask (.findStalled threshold w.batchSize)).Answers
      (l.memory.reservations.stalled threshold w.batchSize) l₀ :=
    (hstill.sure h).answers_ask rfl
  refine ⟨_, runIn_bind_eq_ok.2 ⟨_, _, hnow, runIn_bind_eq_ok.2 ⟨_, _, hdate,
    runIn_bind_eq_ok.2 ⟨_, _, hread, rfl⟩⟩⟩, ⟨rfl, fun _ => id⟩, rfl⟩

/-- **What a pass of the recovery reports.** From every state that can come about, if nothing fails
in the pass: unless the date since when a settlement counts as stalled cannot be computed, the pass
takes up what is stalled and reports a number. Together with the settlements that it gave up because
a leg was refused, these are the reservations that it took up and that are committed afterwards or
have no settlement any more. So it reports how many settlements were finished or undone if and only
if it gave up none. -/
theorem recover_reports (hl : l.Arises t) (hsure : l.Sure) (w : WorkerSettings) :
    ((l.clock + 1).plusSeconds? (-(staleSecs w : Int)) = none →
      ((recover t w).runIn l).1 = .error .aborted) ∧
    ∀ threshold, (l.clock + 1).plusSeconds? (-(staleSecs w : Int)) = some threshold →
      let stalled := l.memory.reservations.stalled threshold w.batchSize
      ∃ n l₁ l', (gatherStalled w).runIn l = (.ok stalled, l₁) ∧
        (recover t w).runIn l = (.ok n, l') ∧
        stalled.countP (fun r => l'.resolves r.number) =
          n + (fates t stalled l₁).countP Fate.isGivenUp ∧
        (n = stalled.countP (fun r => l'.resolves r.number) ↔
          ∀ f ∈ fates t stalled l₁, f ≠ .untaken ∧ f ≠ .returned) := by
  refine ⟨fun hnone => ?_, fun threshold hthreshold => ?_⟩
  · have hnow : now.runIn l = (.ok (l.clock + 1), { l with clock := l.clock + 1 }) := rfl
    rw [recover, runIn_bind, hnow]
    simp only [hnone]
    rfl
  · intro stalled
    obtain ⟨hnodup, hrows⟩ := stalled_of_keyed hl.keyed threshold w.batchSize
    obtain ⟨l₁, hgather, hstill⟩ := hsure.runIn_gatherStalled w hthreshold
    have hkeeps := hstill.keeps hsure
    have hresumable : ∀ r ∈ stalled, l₁.Resumable r := fun r hr =>
      ((hrows r hr).resumable hsure hl.keyed).keeps hkeeps
    obtain ⟨n, l', hrun, hn, hall, -⟩ :=
      (hkeeps.sure.ends_recoverAll (t := t) stalled hnodup hresumable).exists_ok
    have hcount : stalled.countP (fun r => l'.resolves r.number) =
        n + (fates t stalled l₁).countP Fate.isGivenUp := by
      rw [countP_resolves hall hresumable, hn]
    refine ⟨n, l₁, l', hgather, ?_, hcount, ?_⟩
    · rw [recover_eq]
      exact runIn_bind_eq_ok.2 ⟨_, _, hgather, hrun⟩
    · rw [hcount, left_eq_add, List.countP_eq_zero]
      simp only [Fate.isGivenUp_iff, not_or]

end Ledger

namespace Small

/-- The settlement whose change of status failed, when nothing fails any more. -/
def recoverable : Ledger (Faulty Memory) :=
  Operation.runAll terms ledger (interrupted ++ [.arm [], .elapse 100000])

/-- A settlement that took nothing and could not be given up at once. When nothing fails any more,
the owner spends the gold that the withdraw leg would take. -/
def squandered : Ledger (Faulty Memory) :=
  Operation.runAll terms ledger [
    .reserve ⟨units 10, "GOLD", "SILVER", "ann", .main, "ann", .main⟩,
    .arm [⟨"commit_posting", .before, 0, 1⟩, ⟨"clear_settlement", .before, 0, 1⟩],
    .advance (ids.reservation 1) none none none,
    .arm [],
    .transfer (transfer "ann" "system" 45 none),
    .elapse 100000]

end Small

namespace Ledger

open WalletLedger.Small in
/-- One settlement is taken up and finished, and one is reported. -/
theorem recover_reports_small :
    recoverable.Arises terms ∧ recoverable.Sure ∧
      ((gatherStalled worker).runIn recoverable).1 = .ok [stalled] ∧
      ∃ l', (recover terms worker).runIn recoverable = (.ok 1, l') ∧
        [stalled].countP (fun r => l'.resolves r.number) = 1 := by
  have harises : recoverable.Arises terms := (reachable.runAll _).arises
  have hsure : recoverable.Sure := sure_of_unarmed (by decide +kernel)
  have hthreshold : (recoverable.clock + 1).plusSeconds? (-(staleSecs worker : Int)) =
      some 40006 := by decide +kernel
  have hstalled : recoverable.memory.reservations.stalled 40006 worker.batchSize = [stalled] := by
    decide +kernel
  obtain ⟨n, l₁, l', hgather, hrun, -, hiff⟩ :=
    (recover_reports harises hsure worker).2 40006 hthreshold
  rw [hstalled] at hgather hiff
  have hfates : fates terms [stalled] l₁ = [.committed] := by
    obtain rfl : _ = l₁ := congrArg Prod.snd hgather
    decide +kernel
  have hn : n = 1 := by
    have hvalue : ((recover terms worker).runIn recoverable).1 = .ok 1 := by decide +kernel
    rw [hrun] at hvalue
    exact Except.ok.inj hvalue
  subst hn
  refine ⟨harises, hsure, congrArg Prod.fst hgather, l', hrun, (hiff.2 ?_).symm⟩
  rw [hfates]
  simp

open WalletLedger.Small in
/-- **The withdraw leg is refused, and the settlement is undone without being reported:** one
settlement is taken up, afterwards the reservation has none any more, and the pass reports none. -/
theorem recover_reports_too_few :
    squandered.Arises terms ∧ squandered.Sure ∧
      ((gatherStalled worker).runIn squandered).1 = .ok [stalled] ∧
      ((recover terms worker).runIn squandered).1 = .ok 0 ∧
      [stalled].countP
        (fun r => ((recover terms worker).runIn squandered).2.resolves r.number) = 1 := by
  refine ⟨(reachable.runAll _).arises, sure_of_unarmed ?_, ?_, ?_, ?_⟩
  · decide +kernel
  · decide +kernel
  · decide +kernel
  · decide +kernel

end Ledger

end WalletLedger
