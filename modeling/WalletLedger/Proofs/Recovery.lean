/-
Whether settlements are atomic.

A settlement that was interrupted is found by the recovery and settled again. Every leg has a
reference of its own, so what was posted is not posted twice, and the reservations agree with the
log after every operation, whatever failed before and whatever the circumstances have become since.

There is one way out of this. An interrupted settlement may have both legs in the log, when only the
change of the status failed. If its deposit leg cannot be posted again, the settlement takes this
for a deposit that was not made, and refunds the sender. So settlements are atomic exactly as long
as no pass of the recovery does that (`atomic_iff_not_overpays`), and a currency that is switched
off at the wrong time makes it do so (`paid_and_refunded`).
-/
import WalletLedger.Proofs.Runs
import WalletLedger.Proofs.Settling

set_option autoImplicit false

namespace WalletLedger

open WalletLedger.Action

namespace Ledger

variable {l l₁ l' : Ledger (Faulty Memory)} {t : Terms}

/-! ## 1. Resuming -/

/-- **Resuming overpays:** no refund is in the log, and settling again overpays. -/
def ResumeOverpays (l : Ledger (Faulty Memory)) (t : Terms) (r : Reservation) : Prop :=
  ∃ s, r.settlement = some s ∧
    ∃ l₁, (findPosting (r.legRef s .refund)).runIn l = (.ok none, l₁) ∧ l₁.Overpays t r s

section

variable {r : Reservation} {s : Settlement}

/-- Where no refund is found, it depends on settling again. -/
theorem resumeOverpays_iff (hs : r.settlement = some s)
    (hrun : (findPosting (r.legRef s .refund)).runIn l = (.ok none, l₁)) :
    l.ResumeOverpays t r ↔ l₁.Overpays t r s := by
  constructor
  · rintro ⟨s', hs', l', hnone, hover⟩
    obtain rfl : s = s' := Option.some.inj (hs.symm.trans hs')
    rw [hrun] at hnone
    cases hnone
    exact hover
  · intro hover
    exact ⟨s, hs, l₁, hrun, hover⟩

/-- What was refunded is not settled again. -/
theorem not_resumeOverpays {result : Except Stop (Option Posting)} (hs : r.settlement = some s)
    (hrun : (findPosting (r.legRef s .refund)).runIn l = (result, l₁))
    (hresult : result ≠ .ok none) : ¬l.ResumeOverpays t r := by
  rintro ⟨s', hs', l', hnone, -⟩
  obtain rfl : s = s' := Option.some.inj (hs.symm.trans hs')
  rw [hrun] at hnone
  exact hresult (congrArg Prod.fst hnone)

end

/-- **Resuming a settlement,** in all its endings. -/
theorem Settling.ends_resume {r : Reservation} {s : Settlement} (h : l.Settling r s)
    (hs : r.settlement = some s) :
    (resume t r).Ends (fun _ l' => l.Concludes r.number (l.ResumeOverpays t r) l')
      (fun _ l' => l.Concludes r.number (l.ResumeOverpays t r) l') l := by
  unfold resume
  rw [hs]
  show (findPosting (r.legRef s .refund) >>= _).Ends _ _ l
  rw [ends_bind]
  refine Ends.mono (h.loud.within_findPosting _).traced (fun found l₁ hok => ?_)
    fun stop l₁ hstop => ?_
  · obtain ⟨⟨hstill, hfound⟩, hrun⟩ := hok
    have hsettling := h.still hstill
    cases found with
    | some p =>
      -- The attempt was refunded, so it did not pay.
      have hrefund : l₁.memory.Bears (r.legRef s .refund) := by
        rw [Memory.bears_iff hsettling.tidy.sound, hstill.memory]
        exact ⟨p, hfound.symm⟩
      have hnot : ¬l.ResumeOverpays t r := not_resumeOverpays hs hrun nofun
      rw [ends_bind]
      refine Ends.imp (hsettling.ends_clear (fun hdeposit => (hsettling.paid hdeposit).2 hrefund)
        fun _ => hrefund) fun l₂ h₂ => ?_
      exact ⟨hstill.leaves.trans h₂.1, .inl ⟨hnot, h₂.2⟩⟩
    | none =>
      have hunrefunded : ¬l₁.memory.Bears (r.legRef s .refund) := by
        rw [Memory.bears_iff hsettling.tidy.sound, hstill.memory, ← hfound]
        rintro ⟨p, ⟨⟩⟩
      rw [ends_bind, resumeOverpays_iff hs hrun]
      refine Ends.imp (hsettling.ends_settle hunrefunded) fun l₂ h₂ => ?_
      exact ⟨hstill.leaves.trans h₂.1, h₂.2⟩
  · obtain ⟨hstill, hrun⟩ := hstop
    exact ⟨hstill.leaves, .inl ⟨not_resumeOverpays hs hrun nofun, (h.still hstill).tidy⟩⟩

theorem Concludes.still {number : String} {overpaid : Prop} (h : l.Concludes number overpaid l₁)
    (hl : l₁.Still l') : l.Concludes number overpaid l' :=
  ⟨h.1.trans hl.leaves, by rw [Results, hl.memory]; exact h.2⟩

theorem Settling.ends_recoverOne {r : Reservation} {s : Settlement} (h : l.Settling r s)
    (hs : r.settlement = some s) :
    (recoverOne t r).Ends (fun _ l' => l.Concludes r.number (l.ResumeOverpays t r) l')
      (fun _ l' => l.Concludes r.number (l.ResumeOverpays t r) l') l := by
  unfold recoverOne
  rw [ends_bind, ends_attempt]
  refine Ends.mono (h.ends_resume hs) (fun status l₁ h₁ => ?_) fun stop l₁ h₁ =>
    ⟨fun cause _ => ?_, fun _ => h₁⟩
  · exact (within_report _).and_then (fun _ l₂ h₂ _ => h₁.still h₂) fun _ _ h₂ => h₁.still h₂
  · exact (within_report _).and_then (fun _ l₂ h₂ _ => h₁.still h₂) fun _ _ h₂ => h₁.still h₂

/-! ## 2. A pass of the recovery -/

/-- **Some reservation of a list is overpaid** when they are resumed in turn. -/
def OverpaysAmong (t : Terms) : List Reservation → Ledger (Faulty Memory) → Prop
  | [], _ => False
  | r :: rest, l =>
    l.ResumeOverpays t r ∨
      ∃ b l₁, (recoverOne t r).runIn l = (.ok b, l₁) ∧ OverpaysAmong t rest l₁

/-- Once a reservation is resumed without harm, it depends on those that follow. -/
theorem overpaysAmong_iff {r : Reservation} {rest : List Reservation} {b : Bool}
    (hrun : (recoverOne t r).runIn l = (.ok b, l₁)) (hnot : ¬l.ResumeOverpays t r) :
    OverpaysAmong t (r :: rest) l ↔ OverpaysAmong t rest l₁ := by
  constructor
  · rintro (hover | ⟨b', l', hrun', hover⟩)
    · exact absurd hover hnot
    · rw [hrun] at hrun'
      cases hrun'
      exact hover
  · intro hover
    exact .inr ⟨b, l₁, hrun, hover⟩

/-- A reservation that is being settled, as it is in the table. -/
structure Stalled (l : Ledger (Faulty Memory)) (r : Reservation) : Prop where
  row : r ∈ l.memory.reservations.rows
  status : r.status = .reserved
  settlement : ∃ s, r.settlement = some s

/-- What is stalled is in the table, and no number occurs twice. -/
theorem stalled_of_keyed (hl : l.memory.reservations.Keyed) (threshold : Instant) (limit : ℕ) :
    ((l.memory.reservations.stalled threshold limit).map (·.number)).Nodup ∧
      ∀ r ∈ l.memory.reservations.stalled threshold limit, l.Stalled r := by
  rw [ReservationTable.stalled, Reservation.batch]
  set accepts : Reservation → Bool := fun r =>
    r.status == .reserved && r.settlement.any (·.startedAt < threshold) with haccepts
  -- The batch is a sorted part of the rows, and their numbers differ.
  have hperm := List.mergeSort_perm (l.memory.reservations.rows.filter accepts) Reservation.before
  constructor
  · have hfilter : ((l.memory.reservations.rows.filter accepts).map (·.number)).Nodup :=
      hl.sublist (List.filter_sublist.map _)
    have hsorted := (hperm.map (·.number)).nodup_iff.2 hfilter
    exact hsorted.sublist ((List.take_sublist _ _).map _)
  · intro r hr
    have hmem := List.mem_filter.1 (hperm.mem_iff.1 (List.mem_of_mem_take hr))
    rw [haccepts, Bool.and_eq_true, beq_iff_eq] at hmem
    refine ⟨hmem.1, hmem.2.1, ?_⟩
    cases hs : r.settlement with
    | none => rw [hs] at hmem; exact absurd hmem.2.2 Bool.false_ne_true
    | some s => exact ⟨s, rfl⟩

/-- **Resuming one reservation after the other.** -/
theorem ends_recoverAll (rs : List Reservation) : ∀ {l : Ledger (Faulty Memory)}, l.Loud →
    l.memory.ids.Plain → l.memory.Tidy → (rs.map (·.number)).Nodup → (∀ r ∈ rs, l.Stalled r) →
      (recoverAll t rs).Ends (fun _ l' => l'.Results (OverpaysAmong t rs l))
        (fun _ l' => l'.Results (OverpaysAmong t rs l)) l := by
  -- Induction on the reservations that are left: the one at the head leaves the others stalled.
  induction rs with
  | nil =>
    intro l _ _ hl _ _
    exact .inl ⟨id, hl⟩
  | cons r rest ih =>
    intro l hloud hplain hl hnodup hstalled
    rw [List.map_cons, List.nodup_cons] at hnodup
    obtain ⟨hrow, hstatus, s, hs⟩ := hstalled r List.mem_cons_self
    have hsettling : l.Settling r s := ⟨hloud, hplain, hl, r, hrow, rfl, hs, hstatus⟩
    unfold recoverAll
    rw [ends_bind]
    refine Ends.mono (hsettling.ends_recoverOne (t := t) hs).traced (fun b l₁ hok => ?_)
      fun stop l₁ hstop => ?_
    · obtain ⟨⟨hleaves, hresult⟩, hrun⟩ := hok
      rw [ends_bind]
      rcases hresult with ⟨hnot, hl₁⟩ | ⟨hover, hdoubled⟩
      · have hstalled₁ : ∀ x ∈ rest, l₁.Stalled x := by
          intro x hx
          obtain ⟨hxrow, hxstatus, hxs⟩ := hstalled x (List.mem_cons_of_mem r hx)
          refine ⟨hleaves.others x hxrow fun heq => ?_, hxstatus, hxs⟩
          exact hnodup.1 (heq ▸ List.mem_map_of_mem hx)
        rw [overpaysAmong_iff hrun hnot]
        exact Ends.mono (ih (hleaves.loud hloud) (hleaves.ids ▸ hplain) hl₁ hnodup.2 hstalled₁)
          (fun _ _ h₂ => (ends_pure _).2 h₂) fun _ _ h₂ => h₂
      · -- What was paid and refunded stays so, whatever comes of the others.
        have hrest : Within (Evolves fun _ => True) (recoverAll t rest) (fun _ _ => True) l₁ :=
          within_recoverAll ⟨trivial, fun _ _ _ => ⟨fun _ _ => trivial, fun _ _ => trivial⟩⟩ rest
        exact Ends.mono hrest
          (fun _ _ h₂ => (ends_pure _).2 (.inr ⟨.inl hover, h₂.1.doubled hdoubled⟩))
          fun _ _ h₂ => .inr ⟨.inl hover, h₂.doubled hdoubled⟩
    · obtain ⟨⟨-, hresult⟩, hrun⟩ := hstop
      rcases hresult with ⟨hnot, hl₁⟩ | ⟨hover, hdoubled⟩
      · refine .inl ⟨?_, hl₁⟩
        rintro (hover | ⟨b', l₂, hrun', -⟩)
        · exact hnot hover
        · rw [hrun] at hrun'
          cases hrun'
      · exact .inr ⟨.inl hover, hdoubled⟩

/-- **The settlements that a pass of the recovery takes up.** -/
def gatherStalled (w : WorkerSettings) : Action (Ledger (Faulty Memory)) (List Reservation) := do
  let threshold ← orAbort ((← now).plusSeconds? (-(staleSecs w : Int)))
  let stalled ← ask (.findStalled threshold w.batchSize)
  report (if stalled.isEmpty then .nothingStalled else .stalledFound stalled.length)
  return stalled

theorem recover_eq (t : Terms) (w : WorkerSettings) :
    recover t w = (do recoverAll t (← gatherStalled w) : Action (Ledger (Faulty Memory)) Nat) := by
  unfold recover gatherStalled
  simp only [bind_assoc, pure_bind]
  refine bind_congr fun now => bind_congr fun threshold => bind_congr fun stalled => ?_
  cases stalled with
  | nil => rfl
  | cons r rest => rfl

/-- They are in the table, each once. -/
theorem Loud.within_gatherStalled (h : l.Loud) (hl : l.memory.Tidy) (w : WorkerSettings) :
    Within Still (gatherStalled w)
      (fun rs _ => (rs.map (·.number)).Nodup ∧ ∀ r ∈ rs, l.Stalled r) l := by
  unfold gatherStalled
  refine within_now.bind fun now l₁ h₁ _ => ?_
  refine still_orAbort.bind fun threshold l₂ h₂ _ => ?_
  refine (within_read (c := .findStalled threshold w.batchSize) rfl).bind
    fun stalled l₃ h₃ hstalled => ?_
  refine (within_report _).bind fun _ l₄ h₄ _ => within_pure ?_
  have h₂ := h₁.trans h₂
  obtain rfl : stalled = l₂.memory.reservations.stalled threshold w.batchSize := by
    rcases hstalled with hstalled | ⟨hmiss, -⟩
    · exact hstalled
    · cases (h₂.loud h) _ hmiss
  rw [h₂.memory]
  exact stalled_of_keyed hl.numbers threshold w.batchSize

end Ledger

/-! ## 3. Operations -/

/-- A caller's reference, if there is one, holds no attempt. -/
def IdSource.Unguessed (ids : IdSource) (ref : Option String) : Prop :=
  ∀ text, ref = some text → ∀ n, ¬(ids.attempt n).toList <:+: text.toList

namespace Operation

/-- **What is asked of an operation:** callers know no attempts, every claim is offered an attempt
that was not given before, and faults strike before the call. -/
def KeepsApart (m : Memory) : Operation → Prop
  | .transfer r => m.ids.Unguessed r.ref
  | .deposit _ _ _ _ _ ref => m.ids.Unguessed ref
  | .depositManually _ _ _ _ _ ref => m.ids.Unguessed ref
  | .withdrawManually c => m.ids.Unguessed c.ref
  | .advance _ _ _ _ =>
    ∀ i < m.claimed, m.ids.attempt (i + 1) ≠ m.ids.attempt (m.claimed + 1)
  | .arm faults => ∀ fault ∈ faults, fault.mode = .before
  | _ => True

/-- **The operation overpays a reservation.** Only a pass of the recovery can. -/
def Overpays (t : Terms) (l : Ledger (Faulty Memory)) : Operation → Prop
  | .recover w =>
    ∃ stalled l₁, (Ledger.gatherStalled w).runIn l = (.ok stalled, l₁) ∧
      Ledger.OverpaysAmong t stalled l₁
  | _ => False

/-- The operations that change reservations. -/
def Reserves : Operation → Prop
  | .reserve _ => True
  | .advance _ _ _ _ => True
  | .cancel _ _ => True
  | .sweep _ => True
  | .recover _ => True
  | _ => False

variable {t : Terms} {l : Ledger (Faulty Memory)} {m : Memory} {policies : WithdrawalPolicies}

theorem foreign_of_moves {access : Access} {refs : Option String → Prop} {e : Effect}
    (h : e.Moves access refs) {ids : IdSource}
    (hrefs : ∀ text, refs (some text) → ids.Foreign text) :
    e ≠ .reservation ∧ ∀ text, e.Logs text → ids.Foreign text := by
  cases h with
  | quiet _ h => rcases h with _ | _ | _ <;> exact ⟨nofun, fun _ => False.elim⟩
  | transfer p h =>
    refine ⟨nofun, fun text hp => hrefs text ?_⟩
    have hp : p.ref = some text := hp
    rwa [← hp]

theorem foreign_of_unguessed {ids : IdSource} {ref : Option String} (h : ids.Unguessed ref) :
    ∀ text, some text = ref → ids.Foreign text :=
  fun text htext => IdSource.foreign_of_no_attempt (h text htext.symm)

/-- **The other operations post no legs.** -/
theorem KeepsApart.foreign {op : Operation} (hop : op.KeepsApart m) (hr : ¬op.Reserves) {e : Effect}
    (he : op.May policies e) : e ≠ .reservation ∧ ∀ text, e.Logs text → m.ids.Foreign text := by
  have hquiet : ∀ {e' : Effect}, e = e' → e' ≠ .reservation → (∀ text, ¬e'.Logs text) →
      e ≠ .reservation ∧ ∀ text, e.Logs text → m.ids.Foreign text := by
    rintro e' rfl hne hlogs
    exact ⟨hne, fun text htext => absurd htext (hlogs text)⟩
  cases op with
  | createWallet =>
    obtain ⟨w, rfl, -⟩ := he
    exact hquiet rfl nofun fun _ => id
  | mutateBalance =>
    rcases he with rfl | rfl
    · exact hquiet rfl nofun fun _ => id
    · exact hquiet rfl nofun fun _ => id
  | transfer r => exact foreign_of_moves he (foreign_of_unguessed hop)
  | deposit => exact foreign_of_moves he (foreign_of_unguessed hop)
  | depositManually => exact foreign_of_moves he (foreign_of_unguessed hop)
  | request =>
    rcases he with he | ⟨w, policy, rfl, -⟩
    · refine foreign_of_moves he fun text htext => ?_
      rcases htext with hnone | ⟨receipt, hreceipt⟩
      · cases hnone
      · obtain rfl := Option.some.inj hreceipt
        exact IdSource.foreign_orphanRef receipt
    · exact hquiet rfl nofun fun _ => id
  | decide =>
    rcases he with rfl | he
    · exact hquiet rfl nofun fun _ => id
    · refine foreign_of_moves he fun text htext => ?_
      obtain ⟨w, status, hleg⟩ := htext
      obtain rfl := Option.some.inj hleg
      exact IdSource.foreign_legRef w status
  | withdrawManually =>
    rcases he with he | ⟨w, rfl, -⟩
    · exact foreign_of_moves he (foreign_of_unguessed hop)
    · exact hquiet rfl nofun fun _ => id
  | reserve => exact absurd trivial hr
  | advance => exact absurd trivial hr
  | cancel => exact absurd trivial hr
  | sweep => exact absurd trivial hr
  | recover => exact absurd trivial hr
  | quote => exact he.elim
  | setPolicy => exact he.elim
  | arm => exact he.elim
  | elapse => exact he.elim
  | _ => exact hquiet he nofun fun _ => id

section

variable {w : WorkerSettings} {rs : List Reservation} {l₁ : Ledger (Faulty Memory)}

/-- Once it is known what a pass takes up, it depends on resuming that. -/
theorem overpays_recover_iff (hrun : (Ledger.gatherStalled w).runIn l = (.ok rs, l₁)) :
    Overpays t l (.recover w) ↔ Ledger.OverpaysAmong t rs l₁ := by
  constructor
  · rintro ⟨rs', l', hrun', hover⟩
    rw [hrun] at hrun'
    cases hrun'
    exact hover
  · intro hover
    exact ⟨rs, l₁, hrun, hover⟩

theorem not_overpays_recover {stop : Stop}
    (hrun : (Ledger.gatherStalled w).runIn l = (.error stop, l₁)) : ¬Overpays t l (.recover w) := by
  rintro ⟨rs, l', hrun', -⟩
  rw [hrun] at hrun'
  cases hrun'

end

open Ledger in
/-- **A pass of the recovery,** in all its endings. -/
theorem ends_recover (h : l.Loud) (hplain : l.memory.ids.Plain) (hl : l.memory.Tidy)
    (w : WorkerSettings) :
    (Ledger.recover t w).Ends (fun _ l' => l'.Results (Overpays t l (.recover w)))
      (fun _ l' => l'.Results (Overpays t l (.recover w))) l := by
  rw [recover_eq, ends_bind]
  refine Ends.mono (h.within_gatherStalled hl w).traced (fun rs l₁ hok => ?_)
    fun stop l₁ hstop => ?_
  · obtain ⟨⟨hstill, hnodup, hstalled⟩, hrun⟩ := hok
    rw [overpays_recover_iff hrun]
    refine ends_recoverAll rs (hstill.loud h) (hstill.memory ▸ hplain) (hstill.memory ▸ hl) hnodup
      fun r hmem => ?_
    obtain ⟨hrow, hstatus, hs⟩ := hstalled r hmem
    exact ⟨hstill.memory ▸ hrow, hstatus, hs⟩
  · obtain ⟨hstill, hrun⟩ := hstop
    exact .inl ⟨not_overpays_recover hrun, hstill.memory ▸ hl⟩

open Ledger in
/-- **One operation** leaves the reservations in agreement with the log, unless it overpays. -/
theorem KeepsApart.results_after {op : Operation} (hop : op.KeepsApart l.memory) (h : l.Loud)
    (hplain : l.memory.ids.Plain) (hl : l.memory.Tidy) :
    (op.after t l).Results (op.Overpays t l) := by
  by_cases hr : op.Reserves
  · cases op with
    | reserve r =>
      exact .inl ⟨id, runIn_discard (I := fun l' => l'.memory.Tidy) (h.ends_reserve hl r)⟩
    | advance number description ref issuer =>
      exact .inl ⟨id, runIn_discard (I := fun l' => l'.memory.Tidy)
        (h.ends_advanceReservation hplain hl hop number description ref issuer)⟩
    | cancel number issuer =>
      exact .inl ⟨id, runIn_discard (I := fun l' => l'.memory.Tidy)
        (h.ends_cancelReservation hl number issuer)⟩
    | sweep w =>
      have hswept := runIn_discard (I := fun l' => l'.Loud ∧ l'.memory.Tidy) (h.ends_sweep hl w)
      exact .inl ⟨id, hswept.2⟩
    | recover w =>
      exact runIn_discard (I := fun l' => l'.Results (Overpays t l (.recover w)))
        (ends_recover h hplain hl w)
    | _ => exact hr.elim
  · have hnot : ¬op.Overpays t l := by
      cases op with
      | recover => exact absurd trivial hr
      | _ => exact id
    -- The references of the other operations are foreign under the source of identifiers, which
    -- does not change.
    refine .inl ⟨hnot, ?_⟩
    have hkept := (op.writes_after (t := t) hl.sound).preserves
      (I := fun m => m.ids = l.memory.ids ∧ m.Tidy) (fun m e m' he hc hm => ?_) ⟨rfl, hl⟩
    · exact hkept.2
    · obtain ⟨hne, hlogs⟩ := hop.foreign hr he
      refine ⟨hc.ids.trans hm.1, hm.2.gains_foreign (hc.gains hne) fun text htext => ?_⟩
      rw [hm.1]
      exact hlogs text htext

theorem KeepsApart.loud_after {op : Operation} (hop : op.KeepsApart l.memory) (h : l.Loud)
    (hl : l.memory.Sound) : (op.after t l).Loud := by
  by_cases ho : op.IsOrdinary
  · exact (op.evolves_after hl ho).loud h
  · cases op with
    | setPolicy => exact h
    | arm faults =>
      rintro mode ⟨fault, hfault, rfl⟩
      exact hop fault hfault
    | _ => exact absurd trivial ho

theorem ids_after (op : Operation) (hl : l.memory.Sound) :
    (op.after t l).memory.ids = l.memory.ids :=
  (op.writes_after hl).preserves (I := fun m => m.ids = l.memory.ids)
    (fun _ _ _ _ hc hm => hc.ids.trans hm) rfl

theorem doubled_after (op : Operation) (hl : l.memory.Sound) (h : l.memory.Doubled) :
    (op.after t l).memory.Doubled :=
  (op.writes_after hl).preserves (fun _ _ _ _ hc => hc.doubled) h

/-- What was paid and refunded stays so for ever. -/
theorem doubled_runAll (ops : List Operation) (hl : l.memory.Sound) (h : l.memory.Doubled) :
    (runAll t l ops).memory.Doubled := by
  induction ops generalizing l with
  | nil => exact h
  | cons op ops ih => exact ih (Ledger.sound_after op hl) (op.doubled_after hl h)

end Operation

/-! ## 4. Runs -/

namespace Small

/-- The worker that takes up settlements after a minute. -/
def worker : WorkerSettings := ⟨1, 60, 10⟩

/-- The owner settles a conversion, but the change of its status fails: both legs are posted, and
the settlement stays. -/
def interrupted : List Operation := [
  .reserve ⟨units 10, "GOLD", "SILVER", "ann", .main, "ann", .main⟩,
  .arm [⟨"update_status_if", .before, 0, 1⟩],
  .advance (ids.reservation 1) none none none]

/-- The recovery takes it up later. -/
def resumed : List Operation := interrupted ++ [.elapse 100000, .recover worker]

/-- The receiver's currency is switched off before. -/
def switchedOff : List Operation :=
  interrupted ++ [.setActive "SILVER" false, .elapse 100000, .recover worker]

def settlement : Settlement := ⟨ids.reservation 1, ids.attempt 1, none, 3⟩

/-- What the recovery takes up. -/
def stalled : Reservation where
  number := ids.reservation 1
  sourceSymbol := "GOLD"
  destSymbol := "SILVER"
  sourceAmount := units 10
  destAmount := units 30
  senderUuid := "ann"
  senderKind := .main
  receiverUuid := "ann"
  receiverKind := .main
  reservedAt := 1
  expiresAt := 3600001
  status := .reserved
  settlement := some settlement

/-- The ledger when the recovery begins. -/
def waiting : Ledger (Faulty Memory) :=
  Operation.runAll terms ledger (interrupted ++ [.elapse 100000])

theorem keepsApart_interrupted :
    Ledger.Along terms (fun l op => op.KeepsApart l.memory) (.initial ids 0)
      (opening ++ interrupted) := by
  refine Ledger.along_append.2 ⟨⟨trivial, trivial, trivial, trivial, trivial, trivial, trivial,
    trivial, trivial, trivial⟩, ?_⟩
  rw [runAll_opening]
  have hclaimed : (Operation.runAll terms ledger (interrupted.take 2)).memory.claimed = 0 := by
    decide +kernel
  refine ⟨trivial, ?_, fun i hi => ?_, trivial⟩
  · exact (by decide : ∀ f ∈ ([⟨"update_status_if", .before, 0, 1⟩] : List Fault), f.mode = .before)
  · exact absurd (hclaimed ▸ hi) (Nat.not_lt_zero i)

end Small

namespace Ledger

variable {l : Ledger (Faulty Memory)} {t : Terms}

/-- **From any state in which the reservations agree with the log.** -/
theorem Loud.atomic_iff {ops : List Operation} : ∀ {l : Ledger (Faulty Memory)}, l.Loud →
    l.memory.ids.Plain → l.memory.Tidy → Along t (fun l op => op.KeepsApart l.memory) l ops →
      ((Operation.runAll t l ops).memory.Atomic ↔
        Along t (fun l op => ¬op.Overpays t l) l ops) := by
  -- Induction on the run: either the agreement is kept, or what was overpaid stays in the log.
  induction ops with
  | nil =>
    intro l _ _ hl _
    exact iff_of_true hl.atomic trivial
  | cons op ops ih =>
    rintro l h hplain hl ⟨hop, hops⟩
    rcases hop.results_after (t := t) h hplain hl with ⟨hnot, htidy⟩ | ⟨hover, hdoubled⟩
    · have hplain' : (op.after t l).memory.ids.Plain := op.ids_after hl.sound ▸ hplain
      have hiff := ih (hop.loud_after h hl.sound) hplain' htidy hops
      exact hiff.trans ⟨fun hrest => ⟨hnot, hrest⟩, fun hall => hall.2⟩
    · have hend := Operation.doubled_runAll (t := t) ops (sound_after op hl.sound) hdoubled
      exact iff_of_false hend.not_atomic fun hall => hall.1 hover

/-- **Settlements are atomic exactly if no pass of the recovery overpays.** Whatever is done in
whatever order, and whatever calls fail without effect: after the run every reservation that is
committed was taken once and paid once, and what any other one took was returned, unless somewhere
along the run a deposit that was posted was refused when it was to be posted again, and was
refunded. -/
theorem atomic_iff_not_overpays {ids : IdSource} (hplain : ids.Plain) {clock : Instant}
    {ops : List Operation}
    (hops : Along t (fun l op => op.KeepsApart l.memory) (initial ids clock) ops) :
    (Operation.runAll t (initial ids clock) ops).memory.Atomic ↔
      Along t (fun l op => ¬op.Overpays t l) (initial ids clock) ops := by
  refine Loud.atomic_iff (fun mode hmode => ?_) hplain (Memory.tidy_empty ids) hops
  exact absurd hmode (sure_of_unarmed rfl mode)

/-- A deposit leg that can be posted again is not refunded. -/
theorem not_overpays_of_isOk {r : Reservation} {s : Settlement}
    (h : ((postLeg t r s .deposit).runIn ((postLeg t r s .withdraw).runIn l).2).1.isOk = true) :
    ¬l.Overpays t r s := by
  rintro ⟨taken, l₁, htaken, cause, l₂, hrefused, -⟩
  rw [htaken, hrefused] at h
  cases h

/-- The recovery commits a settlement whose legs were all posted before. -/
theorem atomic_iff_not_overpays_small :
    (∃ r ∈ (Operation.runAll Small.terms (initial Small.ids 0)
        (Small.opening ++ Small.resumed)).memory.reservations.rows, r.status = .committed) ∧
      (Operation.runAll Small.terms (initial Small.ids 0)
        (Small.opening ++ Small.resumed)).memory.Atomic := by
  have hrecover : ¬Operation.Overpays Small.terms Small.waiting (.recover Small.worker) := by
    rintro ⟨rs, l₁, hrun, hover⟩
    have hgather : ((gatherStalled Small.worker).runIn Small.waiting).1 = .ok [Small.stalled] := by
      decide +kernel
    rw [hrun] at hgather
    cases hgather
    rcases hover with ⟨s, hs, l₂, hfind, hpays⟩ | ⟨b, l₂, -, hrest⟩
    -- The deposit leg is answered from the log when it is posted again.
    · obtain rfl : Small.settlement = s := Option.some.inj hs
      have hl₁ : _ = l₁ := congrArg Prod.snd hrun
      have hl₂ : _ = l₂ := congrArg Prod.snd hfind
      refine not_overpays_of_isOk ?_ hpays
      rw [← hl₂, ← hl₁]
      decide +kernel
    · exact hrest
  have hops : Along Small.terms (fun l op => op.KeepsApart l.memory) (initial Small.ids 0)
      (Small.opening ++ Small.resumed) := by
    rw [Small.resumed, ← List.append_assoc]
    exact along_append.2 ⟨Small.keepsApart_interrupted, trivial, trivial, trivial⟩
  constructor
  · rw [Operation.runAll_append, Small.runAll_opening]
    decide +kernel
  · have hplain : Small.ids.Plain := IdSource.plain_ofSeed _ _
    refine (atomic_iff_not_overpays hplain hops).2 (along_append.2
      ⟨⟨id, id, id, id, id, id, id, id, id, trivial⟩, ?_⟩)
    rw [Small.runAll_opening]
    exact along_append.2 ⟨⟨id, id, id, trivial⟩, id, hrecover, trivial⟩

/-- **The receiver's currency is switched off** between the deposit and the recovery: the deposit
cannot be posted again, the sender is refunded, and the receiver keeps what was paid. -/
theorem paid_and_refunded :
    Small.ids.Plain ∧
      Along Small.terms (fun l op => op.KeepsApart l.memory) (initial Small.ids 0)
        (Small.opening ++ Small.switchedOff) ∧
      ¬(Operation.runAll Small.terms (initial Small.ids 0)
        (Small.opening ++ Small.switchedOff)).memory.Atomic := by
  have hops : Along Small.terms (fun l op => op.KeepsApart l.memory) (initial Small.ids 0)
      (Small.opening ++ Small.switchedOff) := by
    rw [Small.switchedOff, ← List.append_assoc]
    exact along_append.2 ⟨Small.keepsApart_interrupted, trivial, trivial, trivial, trivial⟩
  have hnumber : (Operation.runAll Small.terms Small.ledger Small.switchedOff).memory.HasNumber
      (Small.ids.reservation 1) := by
    unfold Memory.HasNumber
    decide +kernel
  have hleg : ∀ leg : Leg, (∃ p ∈ (Operation.runAll Small.terms Small.ledger
      Small.switchedOff).memory.wallets.log,
        p.ref = some (leg.ref (Small.ids.reservation 1) (Small.ids.reservation 1)
          ((Operation.runAll Small.terms Small.ledger
            Small.switchedOff).memory.ids.attempt 1))) := by
    intro leg
    cases leg <;> decide +kernel
  refine ⟨IdSource.plain_ofSeed _ _, hops, ?_⟩
  rw [Operation.runAll_append, Small.runAll_opening]
  refine Memory.Doubled.not_atomic ⟨Small.ids.reservation 1, 1, hnumber, ?_, ?_⟩
  · exact Memory.hasLeg_iff.2 ⟨_, hleg .deposit⟩
  · exact Memory.hasLeg_iff.2 ⟨_, hleg .refund⟩

end Ledger

end WalletLedger
