/-
Whether a decision on a row pays what the row stages.

Accepting, canceling and rejecting all claim the row first and then post, under a reference that is
made of the row's number and the new status. `Paid` says what a caller who is told of success may
expect: one posting more, of the staged amount, out of the row's cashout wallet, and the row names
it.

The engine knows a posting by its reference alone, and so does the branch that looks for a posting
that landed although its failure was reported. References are chosen by the callers of transfers
as well. So what a caller may expect holds exactly if nobody used the reference before
(`paid_iff_unused`), and if somebody did, a decision succeeds without a posting: any posting that is
found is taken for the row's own, and no amount or wallet of it is looked at
(`acceptance_of_foreign_reference`).
-/
import WalletLedger.Proofs.Runs

set_option autoImplicit false

namespace WalletLedger

open WalletLedger.Action

namespace Ledger

variable {l l₁ l' : Ledger (Faulty Memory)} {t : Terms}

/-! ## 1. The record of a movement -/

/-- **What a posting tells of its movement.** -/
structure Recorded (mv : Movement) (p : Posting) : Prop where
  sourceId : p.source.walletId = mv.source.id
  sourceOwner : p.source.ownerUuid = mv.source.ownerUuid
  sourceKind : p.source.kind = mv.source.kind
  sourceAmount : p.source.amount = mv.sourceAmount
  destOwner : p.dest.ownerUuid = mv.dest.ownerUuid
  destKind : p.dest.kind = mv.dest.kind
  destAmount : p.dest.amount = mv.destAmount
  category : p.category = mv.category

/-- The wallets are read again when a movement is posted, but they are the wallets of the
movement. -/
theorem Posted.recorded {access : Access} {mv : Movement} {p : Posting}
    (h : l.Posted access mv p l') (hsource : l.memory.HasWallet mv.source)
    (hdest : l.memory.HasWallet mv.dest) : Recorded mv p := by
  obtain ⟨table, hposts, -⟩ := h.made
  obtain ⟨x, hx, hsx⟩ := hsource
  obtain ⟨y, hy, hdy⟩ := hdest
  cases hposts with
  | made source dest sourceAfter destAfter id createdAt _ hs hd =>
    rw [hx] at hs
    rw [hy] at hd
    cases hs
    cases hd
    exact ⟨hsx.id.symm, hsx.ownerUuid.symm, hsx.kind.symm, rfl, hdy.ownerUuid.symm, hdy.kind.symm,
      rfl, rfl⟩

theorem Posted.log {access : Access} {mv : Movement} {p : Posting} (h : l.Posted access mv p l') :
    l'.memory.wallets.log = l.memory.wallets.log ++ [p] := by
  obtain ⟨table, hposts, hm⟩ := h.made
  rw [hm]
  exact hposts.log

theorem Posted.withdrawals {access : Access} {mv : Movement} {p : Posting}
    (h : l.Posted access mv p l') : l'.memory.withdrawals = l.memory.withdrawals := by
  obtain ⟨table, -, hm⟩ := h.made
  rw [hm]
  rfl

/-! ## 2. Posting without faults -/

/-- What is told of an action that is not looked at. -/
theorem ends_anyhow {σ α : Type} (a : Action σ α) (s : σ) :
    a.Ends (fun _ _ => True) (fun _ _ => True) s :=
  ends_iff.2 ⟨fun _ _ => trivial, fun _ _ => trivial⟩

/-- **Posting for a row succeeds in two ways:** the reference is new and the movement is posted, or
some posting bears the reference and nothing is posted. -/
theorem Sure.ends_postOrRevert (hl : l.Sure) {w : Withdrawal} {status : WithdrawalStatus}
    {mv : Movement} (href : mv.ref = some (w.legRef status)) :
    (postOrRevert t w status mv).Ends
      (fun r l' =>
        (l.memory.wallets.byRef? (w.legRef status) = none ∧
          ∃ p l₁, l.Waits l₁ ∧ l₁.Posted .custody mv p l' ∧ r = p.receipt) ∨
        (l.memory.wallets.byRef? (w.legRef status) ≠ none ∧ l.Waits l'))
      (fun _ _ => True) l := by
  refine Ledger.ends_postOrRevert (hl _) (fun r l₁ h => ?_) (fun p l₁ waits hp => .inr ⟨?_, waits⟩)
    (fun _ l₁ _ => ends_anyhow _ l₁) fun _ _ => trivial
  · cases h with
    | replayed p _ earlier _ waits =>
      rw [href, Option.bind_some] at earlier
      exact .inr ⟨by rw [earlier]; exact Option.some_ne_none p, waits⟩
    | made p l₂ _ waits posted =>
      obtain ⟨table, hposts, -⟩ := posted.made
      have hunused : l₂.memory.wallets.byRef? (w.legRef status) = none := by
        cases hposts with
        | made _ _ _ _ _ _ _ _ _ _ _ _ unused => rwa [href, Option.bind_some] at unused
      rw [waits.byRef?_eq] at hunused
      exact .inl ⟨hunused, p, l₂, waits, posted, rfl⟩
  · -- The posting was looked up because the engine refused the movement.
    rw [hp]
    exact Option.some_ne_none p

/-! ## 3. Decisions without faults -/

/-- The row is told its final posting, and nothing else is written. -/
theorem ends_noteFinal (hl : l.Harmless) {id : Int} {v : Withdrawal}
    (hv : l.memory.withdrawals.find? id = some v) (transfer : TransferId) :
    (ask (.setFinal id transfer)).Ends
      (fun _ l' => l'.memory.wallets = l.memory.wallets ∧
        l'.memory.withdrawals.find? id = some { v with finalTransaction := some transfer })
      (fun _ _ => True) l := by
  refine Ends.mono (ends_setFinal hl id transfer) (fun _ l' hfinal => ?_) fun _ _ _ => trivial
  obtain ⟨v', hv', -, hm⟩ := hfinal
  obtain rfl : v = v' := Option.some.inj (hv.symm.trans hv')
  have hid : v.id = id := WithdrawalTable.find?_id hv
  rw [hm]
  exact ⟨rfl, WithdrawalTable.find?_replaced hv hid⟩

/-- **What a row stages was paid by `p`:** the posting is the only new one, it leads from the row's
cashout wallet to the main wallet of the payee, and the row names it. -/
structure Paid (l : Ledger (Faulty Memory)) (t : Terms) (d : Decision) (w : Withdrawal)
    (p : Posting) (l' : Ledger (Faulty Memory)) : Prop where
  log : l'.memory.wallets.log = l.memory.wallets.log ++ [p]
  sourceId : p.source.walletId = w.walletId
  sourceKind : p.source.kind = .cashout
  sourceOwner : p.source.ownerUuid = w.ownerUuid
  destKind : p.dest.kind = .main
  destOwner : p.dest.ownerUuid = d.payee t w
  amount : ∃ staged, w.staged? = some staged ∧ p.source.amount = ⟨w.currency, staged⟩ ∧
    p.dest.amount = ⟨w.currency, staged⟩
  category : p.category = d.category
  row : ∃ v, l'.memory.withdrawals.find? w.id = some v ∧ v.status = d.status ∧
    v.finalTransaction = some p.id

/-- **A decision that succeeds** has paid if the reference was new, and has posted nothing if
not. -/
theorem Considered.ends (hsure : l.Sure) (hl : l.memory.Sound) {d : Decision} {w : Withdrawal}
    {cashout dest : Wallet} (htype : w.type = .onChain)
    (h : l.Considered t d w cashout dest l₁) :
    (transitionWithLeg t w d.status (d.update w) cashout dest d.category d.description d.lost).Ends
      (fun _ l' =>
        (l.memory.wallets.byRef? (w.legRef d.status) = none ∧ ∃ p, l.Paid t d w p l') ∨
        (l.memory.wallets.byRef? (w.legRef d.status) ≠ none ∧
          l'.memory.wallets.log = l.memory.wallets.log))
      (fun _ _ => True) l₁ := by
  obtain ⟨hlog, hrefs⟩ := h.moved.log_of_quiet
  have hbyRef : l₁.memory.wallets.byRef? = l.memory.wallets.byRef? := by
    funext ref
    rw [WalletTable.byRef?, WalletTable.byRef?, hlog, hrefs]
  have hid : w.id = d.withdrawalId := WithdrawalTable.find?_id h.row
  have hrow : l₁.memory.withdrawals.find? w.id = some w := by
    rw [h.moved.withdrawals_of_quiet, hid, h.row]
  obtain ⟨hkind, howner, -⟩ := cashout_of_row hl h.row htype h.cashout
  have hcashoutId : cashout.id = w.walletId := WalletTable.wallet?_id h.cashout
  have hcashout : l₁.memory.HasWallet cashout :=
    h.moved.hasWallet ⟨cashout, by rw [hcashoutId, h.cashout], .refl cashout⟩
  obtain ⟨hdest, hdestKind, -, hdestOwner⟩ := h.dest hl htype
  have hsure₁ := h.moved.toFollows.sure hsure
  refine ends_transitionWithLeg (hsure₁ _) hrow (fun _ _ _ => trivial) fun v l₂ hfollows hsame
    hstatus hm => ⟨fun _ => trivial, fun staged hstaged => ?_⟩
  -- Claiming the row changes nothing that the posting depends on.
  have hclaimed : l₂.memory.withdrawals.find? w.id = some v := by
    rw [hm]
    exact WithdrawalTable.find?_replaced hrow hsame.id
  have hwallets : l₂.memory.wallets = l₁.memory.wallets := by rw [hm]; rfl
  have hsure₂ := hfollows.sure hsure₁
  refine Ends.mono (hsure₂.ends_postOrRevert rfl) (fun posted l₃ hposted => ?_) fun _ _ _ => trivial
  rw [hwallets, hbyRef] at hposted
  rcases hposted with ⟨hunused, p, l₄, waits, hmade, rfl⟩ | ⟨hused, waits⟩
  · have hwait := waits.quiet
    have hrecorded := hmade.recorded (hwait.hasWallet (by rwa [Memory.HasWallet, hwallets]))
      (hwait.hasWallet (by rwa [Memory.HasWallet, hwallets]))
    have hfound : l₃.memory.withdrawals.find? w.id = some v := by
      rw [hmade.withdrawals, hwait.withdrawals_of_quiet, hclaimed]
    have hsure₃ := hmade.toFollows.sure (waits.toFollows.sure hsure₂)
    refine Ends.mono (ends_noteFinal (hsure₃ _) hfound p.receipt.transferId)
      (fun _ l₅ hfinal => ?_) fun _ _ _ => trivial
    -- The posting records the wallets that were looked up, and these are the right ones.
    refine .inl ⟨hunused, p, ?_, ?_, ?_, ?_, ?_, ?_, ?_, ?_, ?_⟩
    · rw [hfinal.1, hmade.log, hwait.log_of_quiet.1, hwallets, hlog]
    · exact hrecorded.sourceId.trans hcashoutId
    · exact hrecorded.sourceKind.trans hkind
    · exact hrecorded.sourceOwner.trans howner
    · exact hrecorded.destKind.trans hdestKind
    · exact hrecorded.destOwner.trans hdestOwner
    · exact ⟨staged, hstaged, hrecorded.sourceAmount, hrecorded.destAmount⟩
    · exact hrecorded.category
    · exact ⟨_, hfinal.2, hstatus, rfl⟩
  · have hfound : l₃.memory.withdrawals.find? w.id = some v := by
      rw [waits.quiet.withdrawals_of_quiet, hclaimed]
    have hsure₃ := waits.toFollows.sure hsure₂
    refine Ends.mono (ends_noteFinal (hsure₃ _) hfound posted.transferId)
      (fun _ l₄ hfinal => ?_) fun _ _ _ => trivial
    refine .inr ⟨hused, ?_⟩
    rw [hfinal.1, waits.quiet.log_of_quiet.1, hwallets, hlog]

end Ledger

namespace Small

/-- The acceptance of the first row. -/
def accepting : Decision := .accept (acceptance 1)

/-- The owner has asked for a payout. -/
def requested : Ledger (Faulty Memory) := Operation.runAll terms ledger [.request (request 20)]

theorem requested_reachable : requested.Reachable terms := reachable.runAll _

/-- The owner did so after a transfer with the reference of the acceptance to come. -/
def forged : Ledger (Faulty Memory) :=
  Operation.runAll terms ledger
    [.transfer (transfer "ann" "bob" 10 (some "withdraw:1:DONE")), .request (request 20)]

theorem forged_reachable : forged.Reachable terms := reachable.runAll _

end Small

namespace Ledger

variable {l : Ledger (Faulty Memory)} {t : Terms}

/-- **A decision that succeeds pays what the row stages exactly if no posting bears the reference of
the decision yet.** -/
theorem paid_iff_unused (hl : l.Reachable t) (hsure : l.Sure) {d : Decision} {w : Withdrawal}
    (hw : l.memory.withdrawals.find? d.withdrawalId = some w) (htype : w.type = .onChain)
    {o : WithdrawalOutcome} (hok : ((d.run t).runIn l).1 = .ok o) :
    (∃ p, l.Paid t d w p ((d.run t).runIn l).2) ↔
      ∀ q ∈ l.memory.wallets.log, q.ref ≠ some (w.legRef d.status) := by
  have hends : (d.run t).Ends
      (fun _ l' =>
        (l.memory.wallets.byRef? (w.legRef d.status) = none ∧ ∃ p, l.Paid t d w p l') ∨
        (l.memory.wallets.byRef? (w.legRef d.status) ≠ none ∧
          l'.memory.wallets.log = l.memory.wallets.log)) (fun _ _ => True) l := by
    refine ends_decision d (fun _ _ _ => trivial) fun w' cashout dest l₁ h => ?_
    obtain rfl : w = w' := Option.some.inj (hw.symm.trans h.row)
    exact h.ends hsure hl.sound htype
  have hiff : (∀ q ∈ l.memory.wallets.log, q.ref ≠ some (w.legRef d.status)) ↔
      l.memory.wallets.byRef? (w.legRef d.status) = none := by
    rw [← Option.not_isSome_iff_eq_none, Option.isSome_iff_exists,
      hl.sound.wallets.exists_byRef?_iff, not_exists]
    exact forall_congr' fun q => not_and.symm
  rw [hiff]
  rcases hends.of_ok hok with ⟨hunused, hpaid⟩ | ⟨hused, hkept⟩
  · exact ⟨fun _ => hunused, fun _ => hpaid⟩
  -- The log did not grow, so no posting of it is the new one.
  · refine ⟨fun ⟨p, hpaid⟩ => ?_, fun h => absurd h hused⟩
    have hlog := hpaid.log
    rw [hkept] at hlog
    exact absurd (congrArg List.length hlog) (by simp)

/-- The owner asks for a payout, which is accepted. -/
theorem paid_iff_unused_small :
    ∃ w, Small.requested.memory.withdrawals.find? 1 = some w ∧
      ∃ p, Small.requested.Paid Small.terms Small.accepting w p
        ((Small.accepting.run Small.terms).runIn Small.requested).2 := by
  obtain ⟨w, hw⟩ := Option.isSome_iff_exists.1
    (by decide +kernel : (Small.requested.memory.withdrawals.find? 1).isSome)
  have htype : ∀ v ∈ Small.requested.memory.withdrawals.rows, v.type = .onChain := by
    decide +kernel
  have hlog : ∀ q ∈ Small.requested.memory.wallets.log, q.ref = none := by decide +kernel
  have hok : ((Small.accepting.run Small.terms).runIn Small.requested).1 = .ok ⟨1, .done⟩ := by
    decide +kernel
  have hsure : Small.requested.Sure := sure_of_unarmed (by decide +kernel)
  refine ⟨w, hw, (paid_iff_unused (d := Small.accepting) Small.requested_reachable hsure hw
    (htype w (WithdrawalTable.mem_of_find? hw)) hok).2 fun q hq href => ?_⟩
  rw [hlog q hq] at href
  cases href

/-- **Somebody used the reference before:** the acceptance succeeds, and nothing is paid. -/
theorem acceptance_of_foreign_reference :
    Small.forged.Reachable Small.terms ∧ Small.forged.Sure ∧
      ((Small.accepting.run Small.terms).runIn Small.forged).1 = .ok ⟨1, .done⟩ ∧
      ∃ w, Small.forged.memory.withdrawals.find? 1 = some w ∧ w.type = .onChain ∧
        ¬ ∃ p, Small.forged.Paid Small.terms Small.accepting w p
          ((Small.accepting.run Small.terms).runIn Small.forged).2 := by
  obtain ⟨w, hw⟩ := Option.isSome_iff_exists.1
    (by decide +kernel : (Small.forged.memory.withdrawals.find? 1).isSome)
  have htype : ∀ v ∈ Small.forged.memory.withdrawals.rows, v.type = .onChain := by
    decide +kernel
  have hlog : ((Small.accepting.run Small.terms).runIn Small.forged).2.memory.wallets.log.length =
      Small.forged.memory.wallets.log.length := by decide +kernel
  have hsure : Small.forged.Sure := sure_of_unarmed (by decide +kernel)
  have hok : ((Small.accepting.run Small.terms).runIn Small.forged).1 = .ok ⟨1, .done⟩ := by
    decide +kernel
  have htype : w.type = .onChain := htype w (WithdrawalTable.mem_of_find? hw)
  have hunpaid : ¬ ∃ p, Small.forged.Paid Small.terms Small.accepting w p
      ((Small.accepting.run Small.terms).runIn Small.forged).2 := by
    rintro ⟨p, hpaid⟩
    rw [hpaid.log, List.length_append, List.length_singleton] at hlog
    omega
  exact ⟨Small.forged_reachable, hsure, hok, w, hw, htype, hunpaid⟩

end Ledger

end WalletLedger
