/-
What an operation that pays out leaves behind when it is refused.

One call may fail without effect, at any place of a request, a decision or a payout made elsewhere.
Each of them looks things up first, then moves funds and writes a row. As long as no late call has
failed, all that went before is undone or was never done:

* a request returns the funds if its row cannot be stored (`OnTime.ends_requestWithdrawal`);
* a decision claims its row first, and it puts the row back if the posting is refused
  (`OnTime.ends_postOrRevert`);
* a payout made elsewhere posts before it stores its row.

Nothing makes good a failure of the calls that come after these. The row of a decision that could
not be put back stays claimed, the row of one that was posted is final although the caller is
refused, and a payout whose row was not stored stays posted. They are listed
(`Operation.unguarded`), and a refusal leaves balances and rows as they were exactly if none of them
was the call that failed (`intact_iff_guarded`).
-/
import WalletLedger.Proofs.Unstaging

set_option autoImplicit false

namespace WalletLedger

open WalletLedger.Action

namespace Ledger

variable {l l₁ l' : Ledger (Faulty Memory)} {t : Terms} {method : String}

/-! ## 1. Decisions -/

/-- **What is left when nothing was posted for a row that was claimed:** the row was put back,
unless it was that call which failed. -/
def Reverts (l : Ledger (Faulty Memory)) (method : String) (w : Withdrawal)
    (l' : Ledger (Faulty Memory)) : Prop :=
  (l'.OnTime method ∧ l'.memory.wallets.log = l.memory.wallets.log ∧
      l'.memory.withdrawals = l.memory.withdrawals.replace w) ∨
    (l'.Struck method ∧ method = "revert" ∧ l'.memory.withdrawals = l.memory.withdrawals)

/-- **Putting a row back,** where one call fails. -/
theorem OnTime.ends_revert (h : l₁.OnTime method) (hunmoved : l.Unmoved l₁) {w v : Withdrawal}
    {status : WithdrawalStatus} (hv : l.memory.withdrawals.find? w.id = some v)
    (hstatus : v.status = status) (cause : Error) {Q : Receipt → Ledger (Faulty Memory) → Prop} :
    (do let _ ← ask (.revert status w); refuse cause : Action _ Receipt).Ends Q
      (fun _ l' => l.Reverts method w l') l₁ := by
  have hanswer : l₁.memory.answer (.revert status w) =
      .ok (true, l₁.memory.withWithdrawals (l₁.memory.withdrawals.replace w)) := by
    simp only [Memory.answer, WithdrawalTable.revert, hunmoved.rows, hv, hstatus, if_true]
    rfl
  rw [ends_bind]
  refine h.ends_ask (fun b l₂ ht₂ ha => ?_) (fun _ _ _ _ ha => ?_) fun _ l₂ hname hs hm => ?_
  · rw [hanswer] at ha
    obtain ⟨-, hm⟩ := Prod.mk.inj (Except.ok.inj ha)
    refine .inl ⟨ht₂, ?_, ?_⟩
    · rw [← hm]
      exact hunmoved.log
    · rw [← hm, ← hunmoved.rows]
      rfl
  · rw [hanswer] at ha
    cases ha
  · exact .inr ⟨hs, hname.symm, by rw [hm, hunmoved.rows]⟩

/-- **Posting for a row that was claimed,** where one call fails. -/
theorem OnTime.ends_postOrRevert (h : l.OnTime method) {w v : Withdrawal}
    {status : WithdrawalStatus} {mv : Movement}
    (hv : l.memory.withdrawals.find? w.id = some v) (hstatus : v.status = status) :
    (postOrRevert t w status mv).Ends
      (fun _ l' => l'.OnTime method ∧ l'.memory.withdrawals = l.memory.withdrawals)
      (fun _ l' => l.Reverts method w l') l := by
  unfold postOrRevert
  rw [ends_bind]
  refine (Early.post _ _).refuses.ends_attempt (Ends.mono (h.and (Early.post _ _) ends_post)
    (fun r l₁ hdone => ⟨hdone.2, hdone.1.rows⟩) fun _ l₁ hstop cause => ?_)
  obtain ⟨hfails, ht₁⟩ := hstop
  have h₁ : l.Unmoved l₁ := (hfails.waits h.harmless).quiet.unmoved
  have hfind : Within Still (findPosting (w.legRef status)) (fun _ _ => True) l₁ :=
    (within_read (c := .findPosting (w.legRef status)) rfl).mono fun _ _ _ _ => trivial
  rw [ends_bind]
  refine (Early.findPosting _).refuses.ends_attempt (Ends.mono
    (ht₁.and (Early.findPosting _) hfind) (fun found l₂ hfound => ?_) fun _ l₂ hlost cause' => ?_)
  · obtain ⟨⟨h₂, -⟩, ht₂⟩ := hfound
    have h₂ := h₁.trans (.of_memory h₂.memory)
    cases found with
    | none => exact ht₂.ends_revert h₂ hv hstatus cause
    | some landed => exact ⟨ht₂, h₂.rows⟩
  · exact hlost.2.ends_revert (h₁.trans (.of_memory hlost.1.memory)) hv hstatus cause

/-- **The row of a decision has its new status,** and nothing else is different. -/
structure Marks (l : Ledger (Faulty Memory)) (w v : Withdrawal) (status : WithdrawalStatus)
    (l₁ : Ledger (Faulty Memory)) : Prop where
  row : l.memory.withdrawals.find? w.id = some w
  wallets : l₁.memory.wallets = l.memory.wallets
  rows : l₁.memory.withdrawals = l.memory.withdrawals.replace v
  same : v.id = w.id
  marked : v.status = status
  unlike : w.status ≠ status

namespace Marks

variable {w v : Withdrawal} {status : WithdrawalStatus}

theorem find? (h : l.Marks w v status l₁) : l₁.memory.withdrawals.find? w.id = some v := by
  rw [h.rows]
  exact WithdrawalTable.find?_replaced h.row h.same

/-- As long as it has, the rows are different from what they were. -/
theorem changed (h : l.Marks w v status l₁)
    (hrows : l'.memory.withdrawals = l₁.memory.withdrawals) :
    l'.memory.withdrawals.rows ≠ l.memory.withdrawals.rows := by
  intro heq
  have hfound := h.find?
  rw [WithdrawalTable.find?, ← hrows, heq, ← WithdrawalTable.find?, h.row] at hfound
  exact h.unlike (Option.some.inj hfound ▸ h.marked)

/-- When it is put back, nothing is different. -/
theorem undone (h : l.Marks w v status l₁)
    (hnodup : (l.memory.withdrawals.rows.map (·.id)).Nodup)
    (hlog : l'.memory.wallets.log = l₁.memory.wallets.log)
    (hrows : l'.memory.withdrawals = l₁.memory.withdrawals.replace w) : l.Unmoved l' := by
  refine ⟨hlog.trans (by rw [h.wallets]), hrows.trans ?_⟩
  rw [h.rows]
  exact WithdrawalTable.replace_back hnodup h.row h.same

end Marks

/-- **Claiming a row,** where one call fails. -/
theorem OnTime.ends_claim (h : l.OnTime method) {w : Withdrawal}
    (hw : l.memory.withdrawals.find? w.id = some w) {status : WithdrawalStatus}
    (hstatus : w.status ≠ status) (update : WithdrawalUpdate) (now : Instant) (lost : Error) :
    (ask (.transition w.id w.status status update now) >>= orRefuse lost).Ends
      (fun v l₁ => l₁.OnTime method ∧ l.Marks w v status l₁)
      (fun _ l' => l'.OnTime method ∧ l.Unmoved l') l := by
  rw [ends_bind]
  refine h.ends_ask (fun o l₁ ht₁ ha => ?_) (fun _ l₁ ht₁ hm _ => ⟨ht₁, .of_memory hm⟩)
    fun _ l₁ hname hs hm => ⟨.inr ⟨hs, hname ▸ rfl⟩, .of_memory hm⟩
  obtain ⟨table, htransition, hm⟩ := Memory.answering_eq ha
  rw [ends_orRefuse]
  rcases WithdrawalTable.transition_eq htransition with ⟨rfl, rfl⟩ | ⟨x, hx, -, rfl, rfl⟩
  · exact ⟨fun _ hv => (nomatch hv), fun _ => ⟨ht₁, .of_memory hm⟩⟩
  · obtain rfl : x = w := Option.some.inj (hx.symm.trans hw)
    refine ⟨fun v hv => ⟨ht₁, ?_⟩, fun hnone => nomatch hnone⟩
    cases hv
    exact ⟨hw, by rw [hm]; rfl, by rw [hm]; rfl, rfl, rfl, hstatus⟩

/-- **What a decision that was refused leaves behind,** where one call fails: nothing, or a row that
is claimed, if that call was to put the row back or to complete it. -/
def Falters (l : Ledger (Faulty Memory)) (method : String) (l' : Ledger (Faulty Memory)) : Prop :=
  (l'.OnTime method ∧ l.Unmoved l') ∨
    (l'.Struck method ∧ (method = "revert" ∨ method = "set_final_transaction") ∧
      l'.memory.withdrawals.rows ≠ l.memory.withdrawals.rows)

/-- **What a decision does once it is granted,** where one call fails. -/
theorem OnTime.ends_transitionWithLeg (h : l.OnTime method)
    (hnodup : (l.memory.withdrawals.rows.map (·.id)).Nodup) {w : Withdrawal}
    (hw : l.memory.withdrawals.find? w.id = some w) {status : WithdrawalStatus}
    (hstatus : w.status ≠ status) (update : WithdrawalUpdate) (cashout dest : Wallet)
    (category : Category) (description : Option String) (lost : Error) :
    (transitionWithLeg t w status update cashout dest category description lost).Ends
      (fun _ _ => True)
      (fun stop l' => stop ≠ .aborted → l.Falters method l') l := by
  unfold transitionWithLeg
  rw [ends_bind]
  refine h.ends_now fun now l₁ ht₁ h₁ => ?_
  rw [← bind_assoc, ends_bind]
  refine Ends.mono (ht₁.ends_claim (h₁ ▸ hw) hstatus update now lost) (fun v l₂ hclaimed => ?_)
    fun _ l₂ hstop _ => .inl ⟨hstop.1, (Unmoved.of_memory h₁).trans hstop.2⟩
  obtain ⟨ht₂, hmarks⟩ := hclaimed
  rw [ends_bind, ends_orAbort]
  refine ⟨fun staged _ => ?_, fun _ haborted => absurd rfl haborted⟩
  rw [ends_bind]
  refine Ends.mono (ht₂.ends_postOrRevert hmarks.find? hmarks.marked)
    (fun posted l₃ hposted => ?_) fun stop l₃ hstop _ => ?_
  · obtain ⟨ht₃, hrows₃⟩ := hposted
    rw [ends_bind]
    refine ht₃.ends_ask (fun _ _ _ _ => trivial) (fun _ _ _ _ ha => ?_)
      fun _ l₄ hname hs hm₄ _ => ?_
    -- The row is there, so the memory has no reason to refuse.
    · simp only [Memory.answer, Memory.writing, WithdrawalTable.setFinal, hrows₃,
        hmarks.find?] at ha
      cases ha
    · have hrows₄ := hmarks.changed ((congrArg Memory.withdrawals hm₄).trans hrows₃)
      exact .inr ⟨hs, .inr hname.symm, h₁ ▸ hrows₄⟩
  · rcases hstop with ⟨ht₃, hlog, hrows⟩ | ⟨hs, hname, hrows⟩
    · exact .inl ⟨ht₃, (Unmoved.of_memory h₁).trans (hmarks.undone (h₁ ▸ hnodup) hlog hrows)⟩
    · exact .inr ⟨hs, .inl hname, h₁ ▸ hmarks.changed hrows⟩

theorem Early.consider {aborts : Prop} (d : Decision) : Early aborts (Ledger.consider t d) := by
  have withdrawal : ∀ id, Early aborts (requireWithdrawal id) := fun id =>
    (Early.ask (.findWithdrawal id) rfl).bind fun _ => .orRefuse _ _
  cases d with
  | accept c =>
    unfold Ledger.consider systemOwner
    refine (withdrawal _).bind fun w => (Early.require _ _).bind fun _ => ?_
    refine (Early.loadWallet _).bind fun cashout => (Early.requireOwner _).bind fun system => ?_
    exact (Early.findOrCreateWallet _ _ _).bind fun dest => .pure _
  | cancel uuid id =>
    unfold Ledger.consider
    refine (withdrawal _).bind fun w => (Early.require _ _).bind fun _ => ?_
    refine (Early.require _ _).bind fun _ => (Early.requireOwner _).bind fun owner => ?_
    refine (Early.loadWallet _).bind fun cashout => ?_
    exact (Early.findOrCreateWallet _ _ _).bind fun dest => .pure _
  | reject c =>
    unfold Ledger.consider
    refine (withdrawal _).bind fun w => (Early.require _ _).bind fun _ => ?_
    refine (Early.loadWallet _).bind fun cashout => (Early.requireOwner _).bind fun owner => ?_
    exact (Early.findOrCreateWallet _ _ _).bind fun dest => .pure _

/-- **A decision,** where one call fails. -/
theorem OnTime.ends_decision (h : l.OnTime method)
    (hnodup : (l.memory.withdrawals.rows.map (·.id)).Nodup) (d : Decision) :
    (d.run t).Ends (fun _ _ => True) (fun stop l' => stop ≠ .aborted → l.Falters method l') l := by
  rw [decision_eq, ends_bind]
  refine Ends.mono (h.and (.consider d) (ends_consider d)) (fun x l₁ hx => ?_)
    fun _ l₁ hstop _ => .inl ⟨hstop.2, hstop.1.unmoved⟩
  obtain ⟨hconsidered, ht₁⟩ := hx
  have h₁ := hconsidered.moved.unmoved
  have hw : l₁.memory.withdrawals.find? x.1.id = some x.1 := by
    rw [h₁.rows, WithdrawalTable.find?_id hconsidered.row, hconsidered.row]
  have hstatus : x.1.status ≠ d.status := fun heq => not_isOpen_of_decided heq hconsidered.isOpen
  refine Ends.mono (ht₁.ends_transitionWithLeg (h₁.rows ▸ hnodup) hw hstatus _ _ _ _ _ _)
    (fun _ _ => id) fun stop l₂ hfalters haborted => ?_
  rcases hfalters haborted with ⟨ht₂, h₂⟩ | ⟨hs, hname, hrows⟩
  · exact .inl ⟨ht₂, h₁.trans h₂⟩
  · exact .inr ⟨hs, hname, h₁.rows ▸ hrows⟩

/-! ## 2. Payouts made elsewhere -/

/-- **Storing a row once** is refused only if a call for it fails, and then no row is stored. -/
theorem OnTime.ends_recordOnce (h : l.OnTime method) (d : WithdrawalDraft) :
    (recordOnce d).Ends (fun _ _ => True)
      (fun _ l' => l'.Struck method ∧
        (method = "find_by_request_transaction" ∨ method = "withdraw_insert") ∧
        l'.memory = l.memory) l := by
  unfold recordOnce
  rw [ends_bind]
  refine h.ends_ask (fun found l₁ ht₁ ha => ?_) (fun _ _ _ _ ha => nomatch ha)
    fun _ l₁ hname hs hm => ⟨hs, .inl hname.symm, hm⟩
  obtain ⟨hfound, hm₁⟩ := Prod.mk.inj (Except.ok.inj ha)
  cases found with
  | some _ => trivial
  | none =>
    have hnone : l.memory.withdrawals.byRequest? d.requestTransaction = none := hfound
    rw [ends_bind]
    refine ht₁.ends_now fun now l₂ ht₂ hm₂ => ?_
    have hm₂ : l₂.memory = l.memory := hm₂.trans hm₁.symm
    rw [ends_bind, ends_attempt]
    refine ht₂.ends_ask (fun _ _ _ _ => trivial) (fun _ _ _ _ ha => ?_)
      fun cause l₃ hname hs hm => ?_
    · -- No row stands for the posting, so the memory has no reason to refuse.
      simp only [Memory.answer, WithdrawalTable.insert, hm₂, hnone] at ha
      cases ha
    · refine ⟨fun cause' _ => ?_, by rintro ⟨⟩⟩
      have hm₃ : l₃.memory = l.memory := hm.trans hm₂
      rw [ends_bind]
      refine hs.ends_ask (fun found l₄ hs₄ ha => ?_) fun _ _ _ _ ha => by cases ha
      obtain ⟨hfound, hm₄⟩ := Prod.mk.inj (Except.ok.inj ha)
      rw [hm₃, hnone] at hfound
      rw [← hfound]
      exact ⟨hs₄, .inr hname.symm, hm₄.symm.trans hm₃⟩

/-- **What a payout that was refused leaves behind,** where one call fails: nothing, or a posting
without a row, if that call was to store the row. -/
def FallsShort (l : Ledger (Faulty Memory)) (c : ManualWithdrawal) (method : String)
    (l' : Ledger (Faulty Memory)) : Prop :=
  (l'.OnTime method ∧ l.Unmoved l') ∨
    (l'.Struck method ∧
      (method = "find_by_request_transaction" ∨ method = "withdraw_insert") ∧
      ((c.ref.bind l.memory.wallets.byRef? ≠ none ∧ l.Unmoved l') ∨
        (c.ref.bind l.memory.wallets.byRef? = none ∧ ∃ p w,
          l'.memory.wallets.log = l.memory.wallets.log ++ [p] ∧
          l.memory.wallets.wallet? w.id = some w ∧ p.delta w.id < 0)))

theorem Early.arrange {aborts : Prop} (c : ManualWithdrawal) :
    Early aborts (Ledger.arrange c) := by
  unfold Ledger.arrange
  refine (Early.requireActive _).bind fun currency => (Early.ofExcept _).bind fun amount => ?_
  refine (Early.requireOwner _).bind fun sender => (Early.requireWallet _ _ _).bind fun source => ?_
  refine (Early.findOrCreateOwner _).bind fun receiver => ?_
  exact (Early.findOrCreateWallet _ _ _).bind fun dest => .pure _

/-- **A payout made elsewhere,** where one call fails. -/
theorem OnTime.ends_withdrawManually (h : l.OnTime method) (c : ManualWithdrawal) :
    (withdrawManually t c).Ends (fun _ _ => True) (fun _ l' => l.FallsShort c method l') l := by
  rw [withdrawManually_eq, ends_bind]
  refine Ends.mono (h.and (.arrange c) (ends_arrange c)) (fun a l₁ ha => ?_)
    fun _ l₁ hstop => .inl ⟨hstop.2, hstop.1.unmoved⟩
  obtain ⟨harranged, ht₁⟩ := ha
  have h₁ := harranged.moved.unmoved
  rw [ends_bind]
  refine Ends.mono (ht₁.and (Early.post _ _) ends_post) (fun posted l₂ hposted => ?_)
    fun _ l₂ hstop => .inl ⟨hstop.2, h₁.trans (hstop.1.waits ht₁.harmless).quiet.unmoved⟩
  obtain ⟨hreceives, ht₂⟩ := hposted
  rw [ends_bind]
  refine Ends.mono (ht₂.ends_recordOnce _) (fun _ _ _ => trivial) fun _ l₃ hstop => ?_
  obtain ⟨hs, hname, hm⟩ := hstop
  refine .inr ⟨hs, hname, ?_⟩
  rw [← harranged.moved.byRef?_of_quiet]
  cases hreceives with
  | replayed p _ earlier _ waits =>
    refine .inl ⟨?_, (h₁.trans waits.quiet.unmoved).trans (.of_memory hm)⟩
    rw [show c.ref.bind l₁.memory.wallets.byRef? = some p from earlier]
    exact Option.some_ne_none p
  | made p l₄ _ waits posted =>
    obtain ⟨table, hposts, -⟩ := posted.made
    obtain ⟨key, hsource⟩ := harranged.source
    have hunused : c.ref.bind l₁.memory.wallets.byRef? = none := by
      rw [← waits.quiet.byRef?_of_quiet]
      cases hposts with
      | made _ _ _ _ _ _ _ _ _ _ _ _ unused => exact unused
    refine .inr ⟨hunused, p, a.source, ?_, ?_, ?_⟩
    · rw [hm, posted.log, waits.quiet.log_of_quiet.1, h₁.log]
    · obtain ⟨id, -, hfound⟩ := Option.bind_eq_some_iff.1 hsource
      rw [WalletTable.wallet?_id hfound, hfound]
    · exact hposts.delta_source

/-! ## 3. Atomicity -/

/-- **Nothing is different:** the wallets that were there hold what they held, and the rows are what
they were. -/
structure Intact (l l' : Ledger (Faulty Memory)) : Prop where
  balances : ∀ id w, l.memory.wallets.wallet? id = some w →
    ∃ w', l'.memory.wallets.wallet? id = some w' ∧ w'.balance.toRat = w.balance.toRat
  rows : l'.memory.withdrawals.rows = l.memory.withdrawals.rows

theorem Intact.holding (h : l.Intact l') {id : Int} {w : Wallet}
    (hw : l.memory.wallets.wallet? id = some w) :
    l'.memory.wallets.holding id = l.memory.wallets.holding id := by
  obtain ⟨w', hw', hbalance⟩ := h.balances id w hw
  simp [WalletTable.holding, hw, hw', hbalance]

/-- Postings that cancel each other out leave the balances alone. -/
theorem Turns.intact (h : l.Turns .zero l') (hexact : l.PostsExactly l')
    (hrows : l'.memory.withdrawals = l.memory.withdrawals) {ps : List Posting}
    (hlog : l'.memory.wallets.log = l.memory.wallets.log ++ ps)
    (hps : ∀ id, (ps.map (·.delta id)).sum = 0) : l.Intact l' := by
  refine ⟨fun id w hw => ?_, congrArg WithdrawalTable.rows hrows⟩
  have hholding := h.holding_of_log hexact hlog id
  obtain ⟨qs, hqs⟩ := h
  obtain ⟨w', hw', -⟩ := hqs.kept id w hw
  refine ⟨w', hw', ?_⟩
  rw [hps, add_zero] at hholding
  simpa [WalletTable.holding, hw, hw'] using hholding

theorem Restores.intact (h : l.Restores l') (hturns : l.Turns .zero l')
    (hexact : l.PostsExactly l') : l.Intact l' := by
  rcases h.log with hlog | ⟨p, q, hlog, hboth⟩
  · exact hturns.intact hexact h.rows (hlog.trans (List.append_nil _).symm) fun _ => rfl
  · exact hturns.intact hexact h.rows hlog fun id => by simpa using hboth id

/-- The ledger in which one call is going to fail without effect. Calls of its name that come before
pass, as many as are skipped. -/
def failing (l : Ledger (Faulty Memory)) (method : String) (skip : Nat) : Ledger (Faulty Memory) :=
  l.rearmed [⟨method, .before, skip, 1⟩]

theorem onTime_failing (method : String) (skip : Nat) : (l.failing method skip).OnTime method :=
  .inl ⟨skip, rfl⟩

end Ledger

namespace Operation

/-- The operations that pay out, or decide on it. -/
def IsPayout : Operation → Prop
  | .request _ | .decide _ | .withdrawManually _ => True
  | _ => False

/-- **The calls of an operation whose failure is not made good:** a decision that was posted, or
whose posting was refused, is to be written to the row; and the row of a payout is to be stored,
unless it was posted before. -/
def unguarded (l : Ledger (Faulty Memory)) : Operation → List String
  | .decide _ => ["revert", "set_final_transaction"]
  | .withdrawManually c =>
    match c.ref.bind l.memory.wallets.byRef? with
    | none => ["find_by_request_transaction", "withdraw_insert"]
    | some _ => []
  | _ => []

end Operation

namespace Ledger

variable {l l₁ l' : Ledger (Faulty Memory)} {t : Terms} {method : String} {skip : Nat}

/-- The calls whose failure is not made good are late. -/
theorem late_of_unguarded {op : Operation} (h : method ∈ op.unguarded l) :
    lateCalls.contains method = true := by
  cases op with
  | decide d =>
    rcases List.mem_pair.1 h with rfl | rfl <;> rfl
  | withdrawManually c =>
    rw [Operation.unguarded] at h
    split at h
    · rcases List.mem_pair.1 h with rfl | rfl <;> rfl
    · cases h
  | _ => cases h

theorem OnTime.intact_iff {op : Operation} (h : l'.OnTime method) (hunmoved : l.Unmoved l')
    (hturns : l.Turns .zero l') (hexact : l.PostsExactly l') :
    l.Intact l' ↔ ¬(l'.Struck method ∧ method ∈ op.unguarded l) := by
  refine iff_of_true (hunmoved.restores.intact hturns hexact) fun ⟨hs, hmem⟩ => ?_
  have hearly := h.not_late hs
  rw [late_of_unguarded hmem] at hearly
  cases hearly

theorem Falters.intact_iff (h : l.Falters method l') (hturns : l.Turns .zero l')
    (hexact : l.PostsExactly l') (d : Decision) :
    l.Intact l' ↔ ¬(l'.Struck method ∧ method ∈ (Operation.decide d).unguarded l) := by
  rcases h with ⟨ht, hunmoved⟩ | ⟨hs, hname, hrows⟩
  · exact ht.intact_iff hunmoved hturns hexact
  · exact iff_of_false (fun hintact => hrows hintact.rows) (not_not.2 ⟨hs, List.mem_pair.2 hname⟩)

theorem FallsShort.intact_iff {c : ManualWithdrawal} (h : l.FallsShort c method l')
    (hturns : l.Turns .zero l') (hexact : l.PostsExactly l') :
    l.Intact l' ↔
      ¬(l'.Struck method ∧ method ∈ (Operation.withdrawManually c).unguarded l) := by
  rcases h with ⟨ht, hunmoved⟩ | ⟨hs, hname, ⟨hposted, hunmoved⟩ | ⟨hunused, p, w, hlog, hw, hp⟩⟩
  · exact ht.intact_iff hunmoved hturns hexact
  · obtain ⟨earlier, hearlier⟩ := Option.ne_none_iff_exists'.1 hposted
    refine iff_of_true (hunmoved.restores.intact hturns hexact) fun hlate => ?_
    rw [Operation.unguarded, hearlier] at hlate
    cases hlate.2
  · refine iff_of_false (fun hintact => ?_) (not_not.2 ⟨hs, ?_⟩)
    -- The source holds less than before.
    · have hholding := hturns.holding_of_log hexact hlog w.id
      rw [hintact.holding hw] at hholding
      simp only [List.map_cons, List.map_nil, List.sum_cons, List.sum_nil] at hholding
      linarith
    · rw [Operation.unguarded, hunused]
      exact List.mem_pair.2 hname

/-- How a payout that is refused ends, if one call fails. -/
theorem OnTime.ends_payout (h : l.OnTime method) (hl : l.memory.Sound) {op : Operation}
    (hop : op.IsPayout) (hnew : ∀ c, op = .request c → l.memory.OffersNewId) :
    (op.run t).Ends (fun _ _ => True)
      (fun stop l' => stop ≠ .aborted → l.Turns .zero l' → l.PostsExactly l' →
        (l.Intact l' ↔ ¬(l'.Struck method ∧ method ∈ op.unguarded l))) l := by
  cases op with
  | request c =>
    refine (ends_map _).2 (Ends.mono (h.ends_requestWithdrawal hl (hnew c rfl) c) (fun _ _ => id)
      fun _ l' hstop _ hturns hexact => ?_)
    exact iff_of_true ((hstop hexact).intact hturns hexact) fun hlate => nomatch hlate.2
  | decide d =>
    refine (ends_map _).2 (Ends.mono (h.ends_decision hl.rowIds d) (fun _ _ => id)
      fun _ l' hstop haborted hturns hexact => ?_)
    exact (hstop haborted).intact_iff hturns hexact d
  | withdrawManually c =>
    refine (ends_map _).2 (Ends.mono (h.ends_withdrawManually c) (fun _ _ => id)
      fun _ l' hstop _ hturns hexact => ?_)
    exact hstop.intact_iff hturns hexact
  | _ => exact hop.elim

theorem turns_payout {op : Operation} (hop : op.IsPayout) : l.Turns .zero (op.after t l) := by
  cases op with
  | request c => exact (Operation.request c).turns_after id
  | decide d => exact (Operation.decide d).turns_after id
  | withdrawManually c => exact (Operation.withdrawManually c).turns_after id
  | _ => exact hop.elim

/-- **A payout that is refused changes nothing, unless the call that failed is one of those that
nothing makes good.** In every state that a run leads to, if nothing is rounded and the identifier
that a request gets is new: whatever call fails in a request, a decision or a payout made elsewhere,
and whatever the refusal is for, the wallets hold what they held and the rows are what they were
exactly if it was none of these. -/
theorem intact_iff_guarded (hl : l.Reachable t) {op : Operation} (hop : op.IsPayout)
    (hnew : ∀ c, op = .request c → l.memory.OffersNewId) {cause : Error}
    (hrefused : ((op.run t).runIn (l.failing method skip)).1 = .error (.refused cause))
    (hexact : l.PostsExactly (op.after t (l.failing method skip))) :
    l.Intact (op.after t (l.failing method skip)) ↔
      ¬((op.after t (l.failing method skip)).Struck method ∧ method ∈ op.unguarded l) := by
  have hiff := ((onTime_failing method skip).ends_payout hl.sound hop hnew).of_error hrefused nofun
    (turns_payout hop) hexact
  exact Iff.trans ⟨fun h => ⟨h.balances, h.rows⟩, fun h => ⟨h.balances, h.rows⟩⟩ hiff

end Ledger

namespace Small

/-- The owner asks for a payout. -/
def asking : Operation := .request (request 20)

/-- A payout that was made elsewhere. -/
def payingElsewhere : Operation :=
  .withdrawManually ⟨"GOLD", "ann", "bob", units 10, none, none, none⟩

/-- The ledger in which the row of either cannot be stored. -/
def storeless : Ledger (Faulty Memory) := ledger.failing "withdraw_insert" 0

/-- The row cannot be stored, which is why the operation is refused, and nothing is rounded. -/
def Unstored (op : Operation) : Prop :=
  ((op.run terms).runIn storeless).1 =
      .error (.refused (.database (.injected "withdraw_insert"))) ∧
    ledger.PostsExactly (op.after terms storeless)

instance (op : Operation) : Decidable (Unstored op) := inferInstanceAs (Decidable (_ ∧ _))

theorem unstored_asking : Unstored asking := by decide +kernel

theorem unstored_payingElsewhere : Unstored payingElsewhere := by decide +kernel

end Small

/-- The row of a request cannot be stored, and the funds go back. The row of a payout that was made
elsewhere cannot be stored, and the funds are gone. -/
theorem Ledger.intact_iff_guarded_small :
    Small.ledger.Intact (Small.asking.after Small.terms Small.storeless) ∧
      (Small.asking.after Small.terms Small.storeless).memory.wallets.log.length = 2 ∧
      ¬Small.ledger.Intact (Small.payingElsewhere.after Small.terms Small.storeless) := by
  have hnew : Small.ledger.memory.OffersNewId := by decide +kernel
  have hlate : (Small.payingElsewhere.after Small.terms Small.storeless).Struck "withdraw_insert" ∧
      "withdraw_insert" ∈ Small.payingElsewhere.unguarded Small.ledger := by decide +kernel
  have hasking : Small.asking.IsPayout := trivial
  have hpaying : Small.payingElsewhere.IsPayout := trivial
  have hasked := intact_iff_guarded Small.reachable hasking (fun _ _ => hnew)
    Small.unstored_asking.1 Small.unstored_asking.2
  have hpaid := intact_iff_guarded Small.reachable hpaying (fun _ _ => hnew)
    Small.unstored_payingElsewhere.1 Small.unstored_payingElsewhere.2
  refine ⟨hasked.2 fun hstored => ?_, by decide +kernel, fun hintact => hpaid.1 hintact hlate⟩
  cases hstored.2

/-- **The acceptance is paid, and it is refused:** the call that tells the row of the posting
fails. -/
theorem Ledger.acceptance_paid_and_refused :
    Small.requested.Reachable Small.terms ∧
      (((Operation.decide Small.accepting).run Small.terms).runIn
        (Small.requested.failing "set_final_transaction" 0)).1 =
          .error (.refused (.database (.injected "set_final_transaction"))) ∧
      Small.requested.PostsExactly ((Operation.decide Small.accepting).after Small.terms
        (Small.requested.failing "set_final_transaction" 0)) ∧
      ¬Small.requested.Intact ((Operation.decide Small.accepting).after Small.terms
        (Small.requested.failing "set_final_transaction" 0)) := by
  refine ⟨Small.requested_reachable, by decide +kernel, by decide +kernel, fun hintact => ?_⟩
  -- The cashout wallet was emptied.
  obtain ⟨w, hw⟩ := Option.isSome_iff_exists.1
    (by decide +kernel : (Small.requested.memory.wallets.wallet? 4).isSome)
  exact absurd (hintact.holding hw) (by decide +kernel)

end WalletLedger
