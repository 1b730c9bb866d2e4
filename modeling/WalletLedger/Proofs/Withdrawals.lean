/-
What the withdrawal flow does to a ledger.

A row is stored after the funds it speaks of were moved, and from then on its amounts are fixed;
every later change of the row is a change of its status and of what is noted beside it. So a
movement that belongs to a row moves what the row stages (`Memory.Vouches`), and a row that is put
back is the row that was there.

The lemmas here say what each service writes. What the cashout wallets hold afterwards is the matter
of `Backing.lean`, and that an accepted row was paid that of `Decisions.lean`.
-/
import WalletLedger.Proofs.Services

set_option autoImplicit false

namespace WalletLedger

open WalletLedger.Action

/-! ## 1. Changes of a row -/

namespace WithdrawalTable

/-- A change of status replaces the row that has the expected one, or does nothing. -/
theorem transition_eq {t t' : WithdrawalTable} {id : Int} {expected status : WithdrawalStatus}
    {u : WithdrawalUpdate} {now : Instant} {o : Option Withdrawal}
    (h : t.transition id expected status u now = .ok (o, t')) :
    (o = none ∧ t' = t) ∨
      ∃ w, t.find? id = some w ∧ w.status = expected ∧
        o = some { w.apply u with status, updatedAt := some now } ∧
        t' = t.replace { w.apply u with status, updatedAt := some now } := by
  unfold transition at h
  cases hfind : t.find? id with
  | none => rw [hfind] at h; cases h
  | some w =>
    simp only [hfind] at h
    split_ifs at h with hstatus
    · cases h
      exact .inr ⟨w, rfl, hstatus, rfl, rfl⟩
    · cases h
      exact .inl ⟨rfl, rfl⟩

theorem revert_eq {t t' : WithdrawalTable} {current : WithdrawalStatus} {earlier : Withdrawal}
    {b : Bool} (h : t.revert current earlier = .ok (b, t')) :
    t' = t ∨ ∃ w, t.find? earlier.id = some w ∧ w.status = current ∧ t' = t.replace earlier := by
  unfold revert at h
  cases hfind : t.find? earlier.id with
  | none => rw [hfind] at h; cases h
  | some w =>
    simp only [hfind] at h
    split_ifs at h with hstatus
    · cases h
      exact .inr ⟨w, rfl, hstatus, rfl⟩
    · cases h
      exact .inl rfl

theorem setFinal_eq {t t' : WithdrawalTable} {id : Int} {transfer : TransferId}
    (h : t.setFinal id transfer = .ok t') :
    ∃ w, t.find? id = some w ∧ t' = t.replace { w with finalTransaction := some transfer } := by
  unfold setFinal at h
  cases hfind : t.find? id with
  | none => rw [hfind] at h; cases h
  | some w =>
    rw [hfind] at h
    cases h
    exact ⟨w, rfl, rfl⟩

end WithdrawalTable

/-- What a change of status writes leaves the amounts of the row alone. -/
theorem Withdrawal.same_apply (w : Withdrawal) (u : WithdrawalUpdate) (status : WithdrawalStatus)
    (updatedAt : Option Instant) : Withdrawal.Same { w.apply u with status, updatedAt } w :=
  ⟨rfl, rfl, rfl, rfl, rfl, rfl, rfl, rfl⟩

theorem Memory.hasRow_of_find? {m : Memory} {id : Int} {v w : Withdrawal}
    (h : m.withdrawals.find? id = some w) (hv : v.Same w) : m.HasRow v := by
  refine ⟨w, ?_, hv⟩
  rw [hv.id, WithdrawalTable.find?_id h, h]

namespace Ledger

variable {l l' : Ledger (Faulty Memory)} {t : Terms} {f : Effect → Prop}

theorem within_requireWithdrawal (id : Int) :
    Within Still (requireWithdrawal id) (fun w _ => l.memory.withdrawals.find? id = some w) l := by
  unfold requireWithdrawal
  refine (within_find (c := .findWithdrawal id) rfl rfl).bind fun found l₁ _ hfound => ?_
  exact within_orRefuse fun w hw => hfound w hw

theorem within_transition (hf : f .rows) (id : Int) (expected status : WithdrawalStatus)
    (u : WithdrawalUpdate) (now : Instant) :
    Within (Evolves f) (ask (.transition id expected status u now)) (fun _ _ => True) l := by
  refine within_ask (Q := fun _ _ => True) (fun o m h => ⟨?_, trivial⟩) fun _ _ => trivial
  obtain ⟨table, htransition, rfl⟩ := Memory.answering_eq h
  rcases WithdrawalTable.transition_eq htransition with ⟨-, rfl⟩ | ⟨w, hw, -, -, rfl⟩
  · exact .refl
  · exact .single (.rows (Memory.hasRow_of_find? hw (w.same_apply u status _))) hf

theorem within_revert (hf : f .rows) (current : WithdrawalStatus) {earlier : Withdrawal}
    (hrow : l.memory.HasRow earlier) :
    Within (Evolves f) (ask (.revert current earlier)) (fun _ _ => True) l := by
  refine within_ask (Q := fun _ _ => True) (fun o m h => ⟨?_, trivial⟩) fun _ _ => trivial
  obtain ⟨table, hrevert, rfl⟩ := Memory.answering_eq h
  rcases WithdrawalTable.revert_eq hrevert with rfl | ⟨w, -, -, rfl⟩
  · exact .refl
  · exact .single (.rows hrow) hf

theorem within_setFinal (hf : f .rows) (id : Int) (transfer : TransferId) :
    Within (Evolves f) (ask (.setFinal id transfer)) (fun _ _ => True) l := by
  refine within_ask (Q := fun _ _ => True) (fun o m h => ⟨?_, trivial⟩) fun _ _ => trivial
  obtain ⟨table, hset, rfl⟩ := Memory.writing_eq h
  obtain ⟨w, hw, rfl⟩ := WithdrawalTable.setFinal_eq hset
  exact .single (.rows (Memory.hasRow_of_find? hw ⟨rfl, rfl, rfl, rfl, rfl, rfl, rfl, rfl⟩)) hf

/-- Storing a row, of which everything is known that has to be. -/
theorem within_insertWithdrawal {d : WithdrawalDraft} (now : Instant) (henters : l.memory.Enters d)
    (hf : ∀ w, w.toWithdrawalDraft = d → f (.row w)) :
    Within (Evolves f) (ask (.insertWithdrawal d now)) (fun _ _ => True) l := by
  refine within_ask (Q := fun _ _ => True) (fun w m h => ⟨?_, trivial⟩) fun _ _ => trivial
  obtain ⟨table, hinsert, rfl⟩ := Memory.answering_eq h
  refine .single (.row henters hinsert) (hf w ?_)
  obtain ⟨-, hw, -⟩ := WithdrawalTable.insert_eq hinsert
  rw [hw]
  rfl

/-! ### Where no fault hides what was done -/

/-- A change of status is made and told, or it is not made. -/
theorem ends_transition (hl : l.Harmless) {w : Withdrawal}
    (hw : l.memory.withdrawals.find? w.id = some w) (status : WithdrawalStatus)
    (u : WithdrawalUpdate) (now : Instant) :
    (ask (.transition w.id w.status status u now)).Ends
      (fun o l' => (o = none ∧ l.Still l') ∨
        ∃ v : Withdrawal, o = some v ∧ v.Same w ∧ v.status = status ∧ l.Follows l' ∧
          l'.memory = l.memory.withWithdrawals (l.memory.withdrawals.replace v))
      (fun _ l' => l.Still l') l := by
  refine ends_ask ?_ ?_ (fun _ _ h => h) fun _ _ _ _ hafter => absurd hafter hl
  · intro o l' hfollows ha
    obtain ⟨table, htransition, hm⟩ := Memory.answering_eq ha
    rcases WithdrawalTable.transition_eq htransition with ⟨rfl, rfl⟩ | ⟨x, hx, -, rfl, rfl⟩
    · exact .inl ⟨rfl, hfollows, hm⟩
    · obtain rfl : x = w := Option.some.inj (hx.symm.trans hw)
      exact .inr ⟨_, rfl, x.same_apply u status _, rfl, hfollows, hm⟩
  · intro o l' hstill _ hnothing
    cases hnothing
    exact .inl ⟨rfl, hstill⟩

/-- A row is put back, or nothing happens. -/
theorem ends_revert (hl : l.Harmless) (current : WithdrawalStatus) (earlier : Withdrawal) :
    (ask (.revert current earlier)).Ends
      (fun _ l' => l.Still l' ∨ (l.Follows l' ∧
        l'.memory = l.memory.withWithdrawals (l.memory.withdrawals.replace earlier)))
      (fun _ l' => l.Still l') l := by
  refine ends_ask ?_ (fun _ _ h _ _ => .inl h) (fun _ _ h => h) fun _ _ _ _ hafter =>
    absurd hafter hl
  intro b l' hfollows ha
  obtain ⟨table, hrevert, hm⟩ := Memory.answering_eq ha
  rcases WithdrawalTable.revert_eq hrevert with rfl | ⟨x, -, -, rfl⟩
  · exact .inl ⟨hfollows, hm⟩
  · exact .inr ⟨hfollows, hm⟩

/-- The row is told its final posting, or nothing happens. -/
theorem ends_setFinal (hl : l.Harmless) (id : Int) (transfer : TransferId) :
    (ask (.setFinal id transfer)).Ends
      (fun _ l' => ∃ v, l.memory.withdrawals.find? id = some v ∧ l.Follows l' ∧
        l'.memory = l.memory.withWithdrawals
          (l.memory.withdrawals.replace { v with finalTransaction := some transfer }))
      (fun _ l' => l.Still l') l := by
  refine ends_ask ?_ (fun _ _ _ _ hnothing => nomatch hnothing) (fun _ _ h => h)
    fun _ _ _ _ hafter => absurd hafter hl
  intro _ l' hfollows ha
  obtain ⟨table, hset, hm⟩ := Memory.writing_eq ha
  obtain ⟨v, hv, rfl⟩ := WithdrawalTable.setFinal_eq hset
  exact ⟨v, hv, hfollows, hm⟩

/-! ## 2. Posting for a row -/

/-- A movement of an amount that may be moved. -/
theorem served_ofAmount {a : Amount} (ha : l.memory.Vouches a) (source dest : Wallet)
    (category : Category) (description ref : Option String) :
    l.Served (.ofAmount source dest a category description ref) := ⟨rfl, ha⟩

theorem within_post {access : Access} {mv : Movement} (hmv : l.Served mv)
    (hf : Permits f access mv.ref) :
    Within (Evolves f) (post t access mv) (fun _ _ => True) l :=
  Ends.mono ends_post (fun _ _ h => ⟨h.evolves hf hmv, trivial⟩) fun _ _ h => h.evolves hf hmv

/-! ## 3. The flow -/

/-- The effects of deciding on a row: it changes, and what it stages is moved. -/
structure PermitsDeciding (f : Effect → Prop) : Prop where
  quiet : ∀ e, Effect.Quiet e → f e
  rows : f .rows
  leg : ∀ (w : Withdrawal) status, Permits f .custody (some (w.legRef status))

theorem within_postOrRevert (hf : PermitsDeciding f) {w : Withdrawal} {status : WithdrawalStatus}
    {mv : Movement} (hrow : l.memory.HasRow w) (hmv : l.Served mv)
    (href : mv.ref = some (w.legRef status)) :
    Within (Evolves f) (postOrRevert t w status mv) (fun _ _ => True) l := by
  unfold postOrRevert
  refine (within_post hmv (href ▸ hf.leg w status)).attempt.bind fun r l₁ h₁ _ => ?_
  cases r with
  | ok posted => exact within_pure trivial
  | error cause =>
    have hfind : Within Still (findPosting (w.legRef status)) (fun _ _ => True) l₁ :=
      (within_read (c := .findPosting (w.legRef status)) rfl).mono fun _ _ _ _ => trivial
    refine within_bind_still hfind.attempt fun found l₂ h₂ _ => ?_
    have hrevert : Within (Evolves f)
        (do let _ ← ask (.revert status w); refuse cause : Action _ Receipt) (fun _ _ => True) l₂ :=
      (within_revert hf.rows status (h₂.memory ▸ h₁.hasRow hrow)).bind fun _ _ _ _ =>
        within_refuse cause
    -- The row is put back unless the posting is found under its reference.
    cases found with
    | error _ => exact hrevert
    | ok found =>
      cases found with
      | none => exact hrevert
      | some landed => exact within_pure trivial

theorem within_transitionWithLeg (hf : PermitsDeciding f) {w : Withdrawal}
    (hrow : l.memory.HasRow w) (status : WithdrawalStatus) (update : WithdrawalUpdate)
    (cashout dest : Wallet) (category : Category) (description : Option String) (lost : Error) :
    Within (Evolves f) (transitionWithLeg t w status update cashout dest category description lost)
      (fun _ _ => True) l := by
  unfold transitionWithLeg
  refine within_bind_still within_now fun now l₁ h₁ _ => ?_
  refine (within_transition hf.rows w.id w.status status update now).bind fun found l₂ h₂ _ => ?_
  refine within_bind_still still_orRefuse fun claimed l₃ h₃ _ => ?_
  refine within_bind_still still_orAbort fun staged l₄ h₄ hstaged => ?_
  have hrow₄ : l₄.memory.HasRow w := by
    rw [h₄.memory, h₃.memory]
    exact h₂.hasRow (h₁.memory ▸ hrow)
  -- What is moved is what the row stages, and the row vouches for it.
  have hmv : l₄.Served (.ofAmount cashout dest ⟨w.currency, staged⟩ category description
      (some (w.legRef status))) :=
    served_ofAmount (.inr ⟨w, hrow₄, rfl, hstaged⟩) _ _ _ _ _
  refine (within_postOrRevert hf hrow₄ hmv rfl).bind fun posted l₅ _ _ => ?_
  exact (within_setFinal hf.rows w.id posted.transferId).bind fun _ l₆ _ _ => within_pure trivial

/-- **Posting for a row** ends in a receipt, the engine's or that of a posting under the row's
reference; or the row is put back, where no fault hides what was done. -/
theorem ends_postOrRevert (hl : l.Harmless) {w : Withdrawal} {status : WithdrawalStatus}
    {mv : Movement} {Q : Receipt → Ledger (Faulty Memory) → Prop}
    {E : Stop → Ledger (Faulty Memory) → Prop}
    (posted : ∀ r l', l.Receives .custody mv r l' → Q r l')
    (landed : ∀ p l', l.Waits l' → l.memory.wallets.byRef? (w.legRef status) = some p →
      Q p.receipt l')
    (reverted : ∀ cause l', l.Waits l' →
      (ask (.revert status w)).Ends (fun _ => E (.refused cause)) E l')
    (aborted : ∀ l', l.Waits l' → E .aborted l') : (postOrRevert t w status mv).Ends Q E l := by
  have hrevert : ∀ cause l', l.Waits l' →
      (do let _ ← ask (.revert status w); refuse cause : Action _ Receipt).Ends Q E l' := by
    intro cause l' h
    rw [ends_bind]
    exact Ends.mono (reverted cause l' h) (fun _ _ h' => (ends_refuse cause).2 h') fun _ _ => id
  unfold postOrRevert
  rw [ends_bind, ends_attempt]
  refine Ends.mono ends_post (fun r l₁ h => (ends_pure r).2 (posted r l₁ h)) fun stop l₁ h => ?_
  -- What failed was not posted, so a posting that is found now was there before.
  have waits : l.Waits l₁ := h.waits hl
  refine ⟨fun cause _ => ?_, fun _ => aborted l₁ waits⟩
  rw [ends_bind, ends_attempt]
  refine Ends.mono (within_find (c := .findPosting (w.legRef status)) rfl rfl)
    (fun found l₂ hfound => ?_) fun _ l₂ h₂ => ?_
  · obtain ⟨h₂, hfound⟩ := hfound
    have waits₂ : l.Waits l₂ := Evolves.trans waits h₂.waits
    cases found with
    | none => exact hrevert cause l₂ waits₂
    | some p =>
      have hp := hfound p rfl
      rw [waits.byRef?_eq] at hp
      exact (ends_pure _).2 (landed p l₂ waits₂ hp)
  · have waits₂ : l.Waits l₂ := Evolves.trans waits h₂.waits
    exact ⟨fun _ _ => hrevert cause l₂ waits₂, fun _ => aborted l₂ waits₂⟩

/-- **Claiming a row and paying comes down to posting for the claimed row,** where no fault hides
what was done. The row in the table has the new status by then, and what it stages is what it
was. -/
theorem ends_transitionWithLeg (hl : l.Harmless) {w : Withdrawal}
    (hw : l.memory.withdrawals.find? w.id = some w) {status : WithdrawalStatus}
    {update : WithdrawalUpdate} {cashout dest : Wallet} {category : Category}
    {description : Option String} {lost : Error}
    {Q : WithdrawalOutcome → Ledger (Faulty Memory) → Prop}
    {E : Stop → Ledger (Faulty Memory) → Prop} (stopped : ∀ stop l', l.Still l' → E stop l')
    (claimed : ∀ v l', l.Follows l' → v.Same w → v.status = status →
      l'.memory = l.memory.withWithdrawals (l.memory.withdrawals.replace v) →
        (w.staged? = none → E .aborted l') ∧ ∀ staged, w.staged? = some staged →
          (postOrRevert t w status (.ofAmount cashout dest ⟨w.currency, staged⟩ category description
            (some (w.legRef status)))).Ends
            (fun posted l₁ =>
              (ask (.setFinal w.id posted.transferId)).Ends (fun _ => Q ⟨v.id, v.status⟩) E l₁)
            E l') :
    (transitionWithLeg t w status update cashout dest category description lost).Ends Q E l := by
  unfold transitionWithLeg
  refine (Still.refl l).next within_now stopped fun now l₁ h₁ _ => ?_
  have hw₁ : l₁.memory.withdrawals.find? w.id = some w := h₁.memory ▸ hw
  rw [ends_bind]
  refine Ends.mono (ends_transition (h₁.harmless hl) hw₁ status update now) (fun o l₂ ho => ?_)
    fun _ l₂ h₂ => stopped _ l₂ (h₁.trans h₂)
  rw [ends_bind, ends_orRefuse]
  rcases ho with ⟨rfl, h₂⟩ | ⟨v, rfl, hsame, hstatus, hfollows, hm⟩
  · refine ⟨fun v hv => ?_, fun _ => stopped _ l₂ (h₁.trans h₂)⟩
    cases hv
  · rw [h₁.memory] at hm
    obtain ⟨hnone, hsome⟩ := claimed v l₂ (h₁.toFollows.trans hfollows) hsame hstatus hm
    refine ⟨fun v' hv' => ?_, fun hv' => by cases hv'⟩
    obtain rfl : v = v' := Option.some.inj hv'
    rw [ends_bind, ends_orAbort]
    refine ⟨fun staged hstaged => ?_, hnone⟩
    rw [ends_bind]
    refine Ends.mono (hsome staged hstaged) (fun posted l₃ h₃ => ?_) fun _ _ => id
    rw [ends_bind]
    exact h₃

/-! ## 4. Decisions -/

end Ledger

/-- **A decision on a row** that is not closed yet. -/
inductive Decision where
  | accept (c : WithdrawalAcceptance)
  | cancel (uuid : String) (id : Int)
  | reject (c : WithdrawalRejection)

namespace Decision

/-- The service that carries the decision out. -/
def run {σ : Type} [Stores σ] (t : Terms) : Decision → Action (Ledger σ) WithdrawalOutcome
  | .accept c => Ledger.acceptWithdrawal t c
  | .cancel uuid id => Ledger.cancelWithdrawal t uuid id
  | .reject c => Ledger.rejectWithdrawal t c

def withdrawalId : Decision → Int
  | .accept c => c.withdrawalId
  | .cancel _ id => id
  | .reject c => c.withdrawalId

/-- The status that the row gets. -/
def status : Decision → WithdrawalStatus
  | .accept _ => .done
  | .cancel _ _ => .canceled
  | .reject _ => .rejected

/-- Whether the decision can be made on a row with a status. -/
def permits : Decision → WithdrawalStatus → Bool
  | .accept _, status => status.canBeAccepted
  | .cancel _ _, status => status.canBeCanceled
  | .reject _, status => status.canBeRejected

/-- The category of the posting that pays what the row stages. -/
def category : Decision → Category
  | .accept _ => .withdrawAccept
  | .cancel _ _ => .withdrawCancel
  | .reject _ => .withdrawReject

/-- To whom the posting pays it. -/
def payee (t : Terms) (w : Withdrawal) : Decision → String
  | .accept _ => t.systemUuid
  | .cancel _ _ => w.ownerUuid
  | .reject _ => w.ownerUuid

/-- What is written besides the status. -/
def update (w : Withdrawal) : Decision → WithdrawalUpdate
  | .accept c => c.update w
  | .cancel _ _ => .none
  | .reject c => c.update

def description : Decision → Option String
  | .accept _ => none
  | .cancel _ _ => none
  | .reject c => some c.statusReason

/-- The refusal of a caller who came too late. -/
def lost : Decision → Error
  | .accept _ => .withdrawalProcessed
  | .cancel _ _ => .withdrawalNotCancelable
  | .reject _ => .withdrawalNotRejectable

end Decision

/-- A row whose funds are still staged. -/
def Withdrawal.IsOpen (w : Withdrawal) : Prop := w.status = .created ∨ w.status = .processing

/-- Only with an open row anything can be done. -/
theorem Withdrawal.isOpen_of_status {w : Withdrawal}
    (h : (w.status.canBeProcessed || w.status.canBeAccepted || w.status.canBeCanceled ||
      w.status.canBeRejected) = true) : w.IsOpen := by
  unfold IsOpen
  revert h
  generalize w.status = status
  cases status <;> decide

theorem Decision.isOpen_of_permits {d : Decision} {w : Withdrawal}
    (h : d.permits w.status = true) : w.IsOpen := by
  refine Withdrawal.isOpen_of_status ?_
  cases d with
  | accept =>
    have haccept : w.status.canBeAccepted = true := h
    simp [haccept]
  | cancel =>
    have hcancel : w.status.canBeCanceled = true := h
    simp [hcancel]
  | reject =>
    have hreject : w.status.canBeRejected = true := h
    simp [hreject]

namespace Ledger

variable {l l' : Ledger (Faulty Memory)} {t : Terms} {f : Effect → Prop}

/-- **What was looked up** before the row is claimed. -/
structure Considered (l : Ledger (Faulty Memory)) (t : Terms) (d : Decision) (w : Withdrawal)
    (cashout dest : Wallet) (l₁ : Ledger (Faulty Memory)) : Prop where
  moved : l.Evolves Effect.Quiet l₁
  row : l.memory.withdrawals.find? d.withdrawalId = some w
  permitted : d.permits w.status = true
  cashout : l.memory.wallets.wallet? w.walletId = some cashout
  dest : l.memory.Sound → w.type = .onChain → l₁.memory.HasWallet dest ∧ dest.kind = .main ∧
    dest.currency = w.currency ∧ dest.ownerUuid = d.payee t w

/-- The cashout wallet of a request's row is its owner's. -/
theorem cashout_of_row (hl : l.memory.Sound) {id : Int} {w : Withdrawal} {cashout : Wallet}
    (hw : l.memory.withdrawals.find? id = some w) (htype : w.type = .onChain)
    (hcashout : l.memory.wallets.wallet? w.walletId = some cashout) :
    cashout.kind = .cashout ∧ cashout.ownerUuid = w.ownerUuid ∧ cashout.currency = w.currency := by
  obtain ⟨x, ⟨y, hy, hsame⟩, hid, hkind, howner, hcurrency⟩ :=
    hl.held w (WithdrawalTable.mem_of_find? hw) htype
  rw [hid, hcashout] at hy
  cases hy
  exact ⟨hsame.kind ▸ hkind, hsame.ownerUuid ▸ howner, hsame.currency ▸ hcurrency⟩

/-- **What a decision looks up** before it claims the row: the row, the wallet that its funds are
in, and the wallet that they go to. -/
def consider (t : Terms) : Decision → Action (Ledger (Faulty Memory)) (Withdrawal × Wallet × Wallet)
  | .accept c => do
    let w ← requireWithdrawal c.withdrawalId
    require .withdrawalProcessed w.status.canBeAccepted
    let cashout ← loadWallet w.walletId
    let system ← systemOwner t
    let dest ← findOrCreateWallet system w.currency .main
    return (w, cashout, dest)
  | .cancel uuid id => do
    let w ← requireWithdrawal id
    require .forbidden (w.ownerUuid == uuid)
    require .withdrawalNotCancelable w.status.canBeCanceled
    let owner ← requireOwner uuid
    let cashout ← loadWallet w.walletId
    let dest ← findOrCreateWallet owner w.currency .main
    return (w, cashout, dest)
  | .reject c => do
    let w ← requireWithdrawal c.withdrawalId
    require .withdrawalNotRejectable w.status.canBeRejected
    let cashout ← loadWallet w.walletId
    let owner ← requireOwner cashout.ownerUuid
    let dest ← findOrCreateWallet owner cashout.currency .main
    return (w, cashout, dest)

theorem decision_eq (d : Decision) :
    d.run t = consider t d >>= fun (w, cashout, dest) =>
      transitionWithLeg t w d.status (d.update w) cashout dest d.category d.description d.lost := by
  cases d <;>
    simp only [Decision.run, acceptWithdrawal, cancelWithdrawal, rejectWithdrawal, consider,
      bind_assoc, pure_bind] <;> rfl

theorem ends_consider (d : Decision) :
    (consider t d).Ends (fun (w, cashout, dest) l₁ => l.Considered t d w cashout dest l₁)
      (fun _ l' => l.Evolves Effect.Quiet l') l := by
  have still : ∀ (_ : Stop) l', l.Still l' → l.Evolves Effect.Quiet l' := fun _ _ => .of_still
  cases d with
  | accept c =>
    unfold consider systemOwner
    refine (Still.refl l).next (within_requireWithdrawal c.withdrawalId) still fun w l₁ h₁ hw => ?_
    refine h₁.next still_require still fun _ l₂ h₂ hstatus => ?_
    refine h₂.next (within_loadWallet w.walletId) still fun cashout l₃ h₃ hcashout => ?_
    refine h₃.next (within_requireOwner t.systemUuid) still fun system l₄ h₄ ho => ?_
    rw [h₂.memory] at hcashout
    rw [h₃.memory, ← h₄.memory] at ho
    have moved := Evolves.of_still (f := Effect.Quiet) h₄
    refine (within_findOrCreateWallet w.currency .main (fun x hx => Effect.Quiet.wallet x hx)
      ho.1).and_then (fun dest l₅ h₅ hdest => ?_) fun _ l₅ h => moved.trans h
    refine ⟨moved.trans h₅, hw, hstatus, hcashout, fun hl _ => ?_⟩
    have hserves := hdest (h₄.memory ▸ hl)
    exact ⟨hserves.held, hserves.kind, hserves.currency, hserves.ownerUuid.trans ho.2⟩
  | cancel uuid id =>
    unfold consider
    refine (Still.refl l).next (within_requireWithdrawal id) still fun w l₁ h₁ hw => ?_
    refine h₁.next still_require still fun _ l₂ h₂ howner => ?_
    refine h₂.next still_require still fun _ l₃ h₃ hstatus => ?_
    refine h₃.next (within_requireOwner uuid) still fun owner l₄ h₄ ho => ?_
    refine h₄.next (within_loadWallet w.walletId) still fun cashout l₅ h₅ hcashout => ?_
    rw [h₃.memory, ← h₅.memory] at ho
    rw [h₄.memory] at hcashout
    have moved := Evolves.of_still (f := Effect.Quiet) h₅
    refine (within_findOrCreateWallet w.currency .main (fun x hx => Effect.Quiet.wallet x hx)
      ho.1).and_then (fun dest l₆ h₆ hdest => ?_) fun _ l₆ h => moved.trans h
    refine ⟨moved.trans h₆, hw, hstatus, hcashout, fun hl _ => ?_⟩
    have hserves := hdest (h₅.memory ▸ hl)
    refine ⟨hserves.held, hserves.kind, hserves.currency, ?_⟩
    rw [hserves.ownerUuid, ho.2]
    exact (beq_iff_eq.1 howner).symm
  | reject c =>
    unfold consider
    refine (Still.refl l).next (within_requireWithdrawal c.withdrawalId) still fun w l₁ h₁ hw => ?_
    refine h₁.next still_require still fun _ l₂ h₂ hstatus => ?_
    refine h₂.next (within_loadWallet w.walletId) still fun cashout l₃ h₃ hcashout => ?_
    refine h₃.next (within_requireOwner cashout.ownerUuid) still fun owner l₄ h₄ ho => ?_
    rw [h₂.memory] at hcashout
    rw [h₃.memory, ← h₄.memory] at ho
    have moved := Evolves.of_still (f := Effect.Quiet) h₄
    refine (within_findOrCreateWallet cashout.currency .main (fun x hx => Effect.Quiet.wallet x hx)
      ho.1).and_then (fun dest l₅ h₅ hdest => ?_) fun _ l₅ h => moved.trans h
    refine ⟨moved.trans h₅, hw, hstatus, hcashout, fun hl htype => ?_⟩
    -- The main wallet is found through the cashout wallet, which is one of the row's owner.
    have hserves := hdest (h₄.memory ▸ hl)
    obtain ⟨-, howner, hcurrency⟩ := cashout_of_row hl hw htype hcashout
    exact ⟨hserves.held, hserves.kind, hserves.currency.trans hcurrency,
      hserves.ownerUuid.trans (ho.2.trans howner)⟩

/-- **A decision comes down to claiming the row and paying,** once everything was looked up. -/
theorem ends_decision (d : Decision) {Q : WithdrawalOutcome → Ledger (Faulty Memory) → Prop}
    {E : Stop → Ledger (Faulty Memory) → Prop}
    (stopped : ∀ stop l', l.Evolves Effect.Quiet l' → E stop l')
    (decided : ∀ w cashout dest l₁, l.Considered t d w cashout dest l₁ →
      (transitionWithLeg t w d.status (d.update w) cashout dest d.category d.description
        d.lost).Ends Q E l₁) :
    (d.run t).Ends Q E l := by
  rw [decision_eq, ends_bind]
  exact Ends.mono (ends_consider d) (fun x l₁ h => decided x.1 x.2.1 x.2.2 l₁ h) stopped

theorem Considered.isOpen {d : Decision} {w : Withdrawal} {cashout dest : Wallet}
    {l₁ : Ledger (Faulty Memory)} (h : l.Considered t d w cashout dest l₁) : w.IsOpen :=
  Decision.isOpen_of_permits h.permitted

theorem Considered.hasRow {d : Decision} {w : Withdrawal} {cashout dest : Wallet}
    {l₁ : Ledger (Faulty Memory)} (h : l.Considered t d w cashout dest l₁) : l₁.memory.HasRow w :=
  h.moved.hasRow (Memory.hasRow_of_find? h.row (.refl w))

theorem within_decision (hf : PermitsDeciding f) (d : Decision) :
    Within (Evolves f) (d.run t) (fun _ _ => True) l := by
  refine ends_decision d (fun stop l' h => h.mono hf.quiet) fun w cashout dest l₁ h => ?_
  refine Ends.mono (within_transitionWithLeg hf h.hasRow _ _ _ _ _ _ _) (fun o l₂ h₂ => ?_)
    fun stop l₂ h₂ => ?_
  · exact ⟨(h.moved.mono hf.quiet).trans h₂.1, trivial⟩
  · exact (h.moved.mono hf.quiet).trans h₂

theorem within_processWithdrawal (hf : f .rows) (id : Int) :
    Within (Evolves f) (processWithdrawal id) (fun _ _ => True) l := by
  unfold processWithdrawal
  refine within_bind_still (within_requireWithdrawal id) fun w l₁ _ _ => ?_
  refine within_bind_still still_require fun _ l₂ _ _ => ?_
  refine within_bind_still within_now fun now l₃ _ _ => ?_
  refine (within_transition hf w.id w.status .processing .none now).bind fun found l₄ _ _ => ?_
  exact within_bind_still still_orRefuse fun _ l₅ _ _ => within_pure trivial

/-! ## 5. Requests -/

/-- Returning funds for which no row could be stored. -/
theorem within_unstage {amount : Amount} {staged : Receipt} (hamount : l.memory.Vouches amount)
    (hf : Permits f .custody (some staged.orphanRef)) (ownerUuid : String) (cashoutId : Int) :
    Within (Evolves f) (unstage t ownerUuid amount cashoutId staged) (fun _ _ => True) l := by
  unfold unstage
  refine within_bind_still (within_requireOwner ownerUuid) fun owner l₁ h₁ _ => ?_
  refine within_bind_still (within_loadWallet cashoutId) fun cashout l₂ h₂ _ => ?_
  refine within_bind_still (within_requireWallet owner amount.currency .main) fun main l₃ h₃ _ => ?_
  have hvouches : l₃.memory.Vouches amount := by
    rw [h₃.memory, h₂.memory, h₁.memory]
    exact hamount
  exact within_post (served_ofAmount hvouches _ _ _ _ _) hf

/-- Setting the funds of a request aside and storing its row. -/
def stage (t : Terms) (c : WithdrawalRequest) (owner : Owner) (currency : Currency)
    (source cashout : Wallet) (amount : Amount) (net fee : Decimal) :
    Action (Ledger (Faulty Memory)) WithdrawalOutcome := do
  let staged ←
    post t .custody (.ofAmount source cashout amount .withdrawRequest c.description none)
  let draft := c.draft owner currency cashout net fee staged
  match ← (ask (.insertWithdrawal draft (← now))).attempt with
  | .ok row => return ⟨row.id, row.status⟩
  | .error cause =>
    let _ ← (unstage t owner.uuid amount cashout.id staged).attempt
    refuse cause

/-- What a request is granted: who asks, what is set aside, from where to where, and on which
terms. -/
structure Grant where
  owner : Owner
  currency : Currency
  source : Wallet
  cashout : Wallet
  amount : Amount
  policy : WithdrawalPolicy
  net : Decimal

/-- **What a request looks up and checks** before funds are set aside. -/
def grant (c : WithdrawalRequest) : Action (Ledger (Faulty Memory)) Grant := do
  let currency ← requireActive c.currency
  let owner ← requireOwner c.uuid
  require .forbidden owner.canWithdraw
  let amount ← ofExcept (currency.checkedAmount c.amount)
  let policy ← requirePolicy c.destSymbol c.destNetwork
  let source ← requireWallet owner currency.symbol .main
  let reach ← orAbort (source.balance.add? policy.fee)
  require .exceedsBalance (amount.value ≤ reach)
  require .belowMinimum (policy.minimum ≤ amount.value && policy.fee < amount.value)
  let net ← orAbort (amount.value.sub? policy.fee)
  let cashout ← findOrCreateWallet owner currency.symbol .cashout
  return { owner, currency, source, cashout, amount, policy, net }

theorem requestWithdrawal_eq (c : WithdrawalRequest) :
    requestWithdrawal t c = grant c >>= fun g =>
      stage t c g.owner g.currency g.source g.cashout g.amount g.net g.policy.fee := by
  simp only [grant, bind_assoc, pure_bind]
  rfl

/-- **What was looked up and checked** before funds are set aside. -/
structure Granted (l : Ledger (Faulty Memory)) (c : WithdrawalRequest) (owner : Owner)
    (currency : Currency) (source cashout : Wallet) (amount : Amount) (policy : WithdrawalPolicy)
    (net : Decimal) (l₁ : Ledger (Faulty Memory)) : Prop where
  moved : l.Evolves Effect.Quiet l₁
  registered : l.memory.currencies.find? c.currency = some currency
  asker : l.memory.wallets.owner? c.uuid = some owner
  checked : currency.checkedAmount c.amount = .ok amount
  terms : l.policies.find? c.destSymbol c.destNetwork = some policy
  rest : amount.value.sub? policy.fee = some net
  from_main : l.memory.wallets.find? ⟨owner.id, currency.symbol, .main⟩ = some source
  found : l.memory.Sound →
    l₁.memory.wallets.find? ⟨owner.id, currency.symbol, .cashout⟩ = some cashout

theorem Granted.to_cashout {c : WithdrawalRequest} {owner : Owner} {currency : Currency}
    {source cashout : Wallet} {amount : Amount} {policy : WithdrawalPolicy} {net : Decimal}
    {l₁ : Ledger (Faulty Memory)}
    (h : l.Granted c owner currency source cashout amount policy net l₁) (hl : l.memory.Sound) :
    l₁.Serves owner currency.symbol .cashout cashout :=
  serves_of_find? (h.moved.sound hl) (h.moved.hasOwner (hasOwner_of_owner? h.asker).1) (h.found hl)

theorem within_requirePolicy (symbol network : String) :
    Within Still (requirePolicy symbol network)
      (fun policy _ => l.policies.find? symbol network = some policy) l := by
  unfold requirePolicy
  refine (within_peek _).bind fun policies l₁ _ hpolicies => ?_
  refine within_orRefuse fun policy hpolicy => ?_
  rw [hpolicies, Option.filter_eq_some_iff] at hpolicy
  exact hpolicy.1

theorem ends_grant (c : WithdrawalRequest) :
    (grant c).Ends
      (fun g l₁ => l.Granted c g.owner g.currency g.source g.cashout g.amount g.policy g.net l₁)
      (fun _ l' => l.Evolves Effect.Quiet l') l := by
  have still : ∀ (_ : Stop) l', l.Still l' → l.Evolves Effect.Quiet l' := fun _ _ => .of_still
  unfold grant
  refine (Still.refl l).next (within_requireActive c.currency) still
    fun currency l₁ h₁ hcurrency => ?_
  refine h₁.next (requireOwner_finds c.uuid) still fun owner l₂ h₂ ho => ?_
  refine h₂.next still_require still fun _ l₃ h₃ _ => ?_
  refine h₃.next still_ofExcept still fun amount l₄ h₄ hamount => ?_
  refine h₄.next (within_requirePolicy _ _) still fun policy l₅ h₅ hpolicy => ?_
  refine h₅.next (within_requireWallet owner currency.symbol .main) still
    fun source l₆ h₆ hsource => ?_
  refine h₆.next still_orAbort still fun reach l₇ h₇ _ => ?_
  refine h₇.next still_require still fun _ l₈ h₈ _ => ?_
  refine h₈.next still_require still fun _ l₉ h₉ _ => ?_
  refine h₉.next still_orAbort still fun net l₁₀ h₁₀ hnet => ?_
  rw [h₁.memory] at ho
  rw [h₄.policies] at hpolicy
  rw [h₅.memory] at hsource
  have ho₁₀ : l₁₀.memory.HasOwner owner := by
    rw [h₁₀.memory]
    exact (hasOwner_of_owner? ho).1
  -- Only the cashout wallet may have to be opened; everything before was looking up.
  have moved := Evolves.of_still (f := Effect.Quiet) h₁₀
  refine (findOrCreateWallet_finds currency.symbol .cashout
    (fun x hx => Effect.Quiet.wallet x hx) ho₁₀).and_then (fun cashout l₁₁ h₁₁ hcashout => ?_)
    fun _ l₁₁ h => moved.trans h
  exact ⟨moved.trans h₁₁, hcurrency.1, ho, hamount, hpolicy, hnet, hsource,
    fun hl => hcashout (h₁₀.memory ▸ hl)⟩

/-- **A request comes down to setting the funds aside,** once everything was looked up. -/
theorem ends_requestWithdrawal (c : WithdrawalRequest)
    {Q : WithdrawalOutcome → Ledger (Faulty Memory) → Prop}
    {E : Stop → Ledger (Faulty Memory) → Prop}
    (stopped : ∀ stop l', l.Evolves Effect.Quiet l' → E stop l')
    (granted : ∀ owner currency source cashout amount policy net l₁,
      l.Granted c owner currency source cashout amount policy net l₁ →
      (stage t c owner currency source cashout amount net policy.fee).Ends Q E l₁) :
    (requestWithdrawal t c).Ends Q E l := by
  rw [requestWithdrawal_eq, ends_bind]
  exact Ends.mono (ends_grant c) (fun g l₁ h => granted _ _ _ _ _ _ _ l₁ h) stopped

/-- The effects of a request: funds are set aside, a row is stored, or the funds are returned. -/
structure PermitsRequest (f : Effect → Prop) (c : WithdrawalRequest)
    (policies : WithdrawalPolicies) : Prop where
  stage : Permits f .custody none
  orphan : ∀ r : Receipt, Permits f .custody (some r.orphanRef)
  row : ∀ w policy, policies.find? c.destSymbol c.destNetwork = some policy →
    w.currency = c.currency → w.appliedFee = policy.fee → f (.row w)

theorem Granted.vouches {c : WithdrawalRequest} {owner : Owner} {currency : Currency}
    {source cashout : Wallet} {amount : Amount} {policy : WithdrawalPolicy} {net : Decimal}
    {l₁ : Ledger (Faulty Memory)}
    (h : l.Granted c owner currency source cashout amount policy net l₁) :
    l₁.memory.Vouches amount :=
  h.moved.vouches (vouches_of_checked h.registered h.checked)

theorem Granted.symbol {c : WithdrawalRequest} {owner : Owner} {currency : Currency}
    {source cashout : Wallet} {amount : Amount} {policy : WithdrawalPolicy} {net : Decimal}
    {l₁ : Ledger (Faulty Memory)}
    (h : l.Granted c owner currency source cashout amount policy net l₁) :
    currency.symbol = c.currency :=
  CurrencyTable.find?_symbol h.registered

/-- What is known of a request's row before it is stored. -/
theorem Granted.enters {c : WithdrawalRequest} {owner : Owner} {currency : Currency}
    {source cashout : Wallet} {amount : Amount} {policy : WithdrawalPolicy} {net : Decimal}
    {l₁ l₂ : Ledger (Faulty Memory)} (hl : l.memory.Sound)
    (h : l.Granted c owner currency source cashout amount policy net l₁) (h₂ : l₁.Evolves f l₂)
    (staged : Receipt) :
    l₂.memory.Enters (c.draft owner currency cashout net policy.fee staged) := by
  have hserves := (h.to_cashout hl).evolves h₂
  have hcurrency := congrArg Amount.currency (checkedAmount_currency h.checked)
  exact .requested amount cashout (h₂.vouches h.vouches) hcurrency.symm h.rest hserves.held rfl
    hserves.kind hserves.ownerUuid hserves.currency rfl rfl

theorem within_stage {c : WithdrawalRequest} {owner : Owner} {currency : Currency}
    {source cashout : Wallet} {amount : Amount} {policy : WithdrawalPolicy} {net : Decimal}
    {l₁ : Ledger (Faulty Memory)} (hl : l.memory.Sound)
    (hf : PermitsRequest f c l.policies)
    (h : l.Granted c owner currency source cashout amount policy net l₁) :
    Within (Evolves f) (stage t c owner currency source cashout amount net policy.fee)
      (fun _ _ => True) l₁ := by
  unfold stage
  refine (within_post (served_ofAmount h.vouches _ _ _ _ _) hf.stage).bind fun staged l₂ h₂ _ => ?_
  refine within_bind_still within_now fun now l₃ h₃ _ => ?_
  have h₃ : l₁.Evolves f l₃ := h₂.trans (.of_still h₃)
  have hrow : ∀ w : Withdrawal,
      w.toWithdrawalDraft = c.draft owner currency cashout net policy.fee staged → f (.row w) := by
    intro w hw
    refine hf.row w policy h.terms ?_ ?_
    · rw [hw]; exact h.symbol
    · rw [hw]; rfl
  refine (within_insertWithdrawal now (h.enters hl h₃ staged) hrow).attempt.bind fun r l₄ h₄ _ => ?_
  cases r with
  | ok row => exact within_pure trivial
  | error cause =>
    -- No row was stored, so the amount that was set aside goes back.
    have hvouches := h₄.vouches (h₃.vouches h.vouches)
    exact (within_unstage hvouches (hf.orphan staged) _ _).attempt.bind fun _ l₅ _ _ =>
      within_refuse cause

theorem within_requestWithdrawal (hl : l.memory.Sound) (c : WithdrawalRequest)
    (hf : PermitsRequest f c l.policies) :
    Within (Evolves f) (requestWithdrawal t c) (fun _ _ => True) l := by
  refine ends_requestWithdrawal c (fun stop l' h => h.mono hf.stage.quiet) ?_
  intro owner currency source cashout amount policy net l₁ h
  refine Ends.mono (within_stage hl hf h) (fun o l₂ h₂ => ?_) fun stop l₂ h₂ => ?_
  · exact ⟨(h.moved.mono hf.stage.quiet).trans h₂.1, trivial⟩
  · exact (h.moved.mono hf.stage.quiet).trans h₂

/-! ## 6. Payouts made elsewhere -/

theorem within_recordOnce {d : WithdrawalDraft} (henters : l.memory.Enters d)
    (hf : ∀ w, w.toWithdrawalDraft = d → f (.row w)) :
    Within (Evolves f) (recordOnce d) (fun _ _ => True) l := by
  unfold recordOnce
  refine within_bind_still (within_read (c := .withdrawalByRequest d.requestTransaction) rfl)
    fun found l₁ h₁ _ => ?_
  cases found with
  | some _ => exact within_pure trivial
  | none =>
    refine within_bind_still within_now fun now l₂ h₂ _ => ?_
    have henters₂ : l₂.memory.Enters d := by
      rw [h₂.memory, h₁.memory]
      exact henters
    refine (within_insertWithdrawal now henters₂ hf).attempt.bind fun r l₃ _ _ => ?_
    cases r with
    | ok _ => exact within_pure trivial
    | error cause =>
      -- A row that could not be stored may be the one that somebody else stored meanwhile.
      refine within_bind_still (within_read (c := .withdrawalByRequest d.requestTransaction) rfl)
        fun found l₄ _ _ => ?_
      cases found with
      | some _ => exact within_pure trivial
      | none => exact within_refuse cause

/-- What a payout that was made elsewhere moves, and between which wallets. -/
structure Arrangement where
  currency : Currency
  amount : Amount
  source : Wallet
  dest : Wallet

/-- **What a payout that was made elsewhere looks up** before it is posted. -/
def arrange (c : ManualWithdrawal) : Action (Ledger (Faulty Memory)) Arrangement := do
  let currency ← requireActive c.symbol
  let amount ← ofExcept (currency.checkedAmount c.amount)
  let sender ← requireOwner c.sourceUuid
  let source ← requireWallet sender currency.symbol .main
  let receiver ← findOrCreateOwner c.receiverUuid
  let dest ← findOrCreateWallet receiver currency.symbol .main
  return { currency, amount, source, dest }

theorem withdrawManually_eq (c : ManualWithdrawal) :
    withdrawManually t c = arrange c >>= fun a => do
      let posted ← post t .generic
        (.ofAmount a.source a.dest a.amount .withdrawManually c.description c.ref)
      recordOnce (c.draft a.currency a.dest a.amount posted)
      return posted := by
  simp only [withdrawManually, arrange, bind_assoc, pure_bind]

/-- What is known of an arrangement. -/
structure Arranged (l : Ledger (Faulty Memory)) (c : ManualWithdrawal) (a : Arrangement)
    (l₁ : Ledger (Faulty Memory)) : Prop where
  moved : l.Evolves Effect.Quiet l₁
  registered : l.memory.currencies.find? c.symbol = some a.currency
  checked : a.currency.checkedAmount c.amount = .ok a.amount
  source : ∃ key, l.memory.wallets.find? key = some a.source

theorem ends_arrange (c : ManualWithdrawal) :
    (arrange c).Ends (fun a l₁ => l.Arranged c a l₁) (fun _ l' => l.Evolves Effect.Quiet l') l := by
  have still : ∀ (_ : Stop) l', l.Still l' → l.Evolves Effect.Quiet l' := fun _ _ => .of_still
  unfold arrange
  refine (Still.refl l).next (within_requireActive c.symbol) still
    fun currency l₁ h₁ hcurrency => ?_
  refine h₁.next still_ofExcept still fun amount l₂ h₂ hamount => ?_
  refine h₂.next (within_requireOwner c.sourceUuid) still fun sender l₃ h₃ _ => ?_
  refine h₃.next (within_requireWallet sender currency.symbol .main) still
    fun source l₄ h₄ hsource => ?_
  rw [h₃.memory] at hsource
  have moved := Evolves.of_still (f := Effect.Quiet) h₄
  refine (within_findOrCreateOwner .owner c.receiverUuid).and_then (fun receiver l₅ h₅ ho => ?_)
    fun _ _ h => moved.trans h
  refine (within_findOrCreateWallet currency.symbol .main (fun x hx => Effect.Quiet.wallet x hx)
    (hasOwner_of_owner? ho).1).and_then (fun dest l₆ h₆ _ => ?_)
    fun _ _ h => (moved.trans h₅).trans h
  exact ⟨(moved.trans h₅).trans h₆, hcurrency.1, hamount, _, hsource⟩

section

variable {c : ManualWithdrawal} {a : Arrangement} {l₁ : Ledger (Faulty Memory)}

theorem Arranged.vouches (h : l.Arranged c a l₁) : l₁.memory.Vouches a.amount :=
  h.moved.vouches (vouches_of_checked h.registered h.checked)

/-- What is known of the row of a payout before it is stored. -/
theorem Arranged.enters (h : l.Arranged c a l₁) (h' : l₁.Evolves f l') (posted : Receipt) :
    l'.memory.Enters (c.draft a.currency a.dest a.amount posted) := by
  refine .manually ?_ rfl rfl rfl
  have hsame : (⟨a.currency.symbol, a.amount.value⟩ : Amount) = a.amount := by
    rw [checkedAmount_currency h.checked]
  show l'.memory.Vouches ⟨a.currency.symbol, a.amount.value⟩
  rw [hsame]
  exact h'.vouches h.vouches

end

theorem within_withdrawManually (c : ManualWithdrawal) (hf : Permits f .generic c.ref)
    (hrow : ∀ w, w.currency = c.symbol → w.appliedFee = .zero → w.type = .manually → f (.row w)) :
    Within (Evolves f) (withdrawManually t c) (fun _ _ => True) l := by
  have hquiet : Within (Evolves f) (arrange c) (fun a l₁ => l.Arranged c a l₁) l :=
    Ends.mono (ends_arrange c) (fun _ _ h => ⟨h.moved.mono hf.quiet, h⟩) fun _ _ h =>
      h.mono hf.quiet
  rw [withdrawManually_eq]
  refine hquiet.bind fun a l₁ _ harranged => ?_
  refine (within_post (served_ofAmount harranged.vouches _ _ _ _ _) hf).bind
    fun posted l₂ h₂ _ => ?_
  refine (within_recordOnce (harranged.enters h₂ posted) fun w hw => hrow w ?_ ?_ ?_).bind
    fun _ l₃ _ _ => within_pure trivial
  · rw [hw]
    exact CurrencyTable.find?_symbol harranged.registered
  · rw [hw]; rfl
  · rw [hw]; rfl

end Ledger

end WalletLedger
