/-
The life of a row of the withdrawals.

A decision claims the row before it posts, tells the row of the posting afterwards, and puts the row
back if nothing was posted; each of these calls can fail, and can have been made although it failed.
What the caller finds in the end is simple all the same: one operation stores one row, or moves one
row along one edge of the status graph, or leaves the table as it is (`Step`, `steps_after`).

Two things carry this. Nothing comes between the calls of an operation, so the row that is put back
is the row that was claimed, and putting it back restores the table (`replace_back`). And posting
does not touch the rows, however it ends (`sameRows_post`), so only the calls about rows have to be
followed. No edge leads out of a closed status, and none changes what was agreed on at the start; so
by induction a closed row stays what it is, and no row changes in what it was stored with
(`row_lifecycle`).
-/
import WalletLedger.Proofs.Runs

set_option autoImplicit false

namespace WalletLedger

open WalletLedger.Action

/-! ## 1. Steps of the table -/

/-- **The edges of the status graph.** -/
inductive WithdrawalStatus.LeadsTo : WithdrawalStatus → WithdrawalStatus → Prop
  | taken : LeadsTo .created .processing
  | accepted : LeadsTo .created .done
  | canceled : LeadsTo .created .canceled
  | rejected : LeadsTo .created .rejected
  | acceptedLater : LeadsTo .processing .done
  | rejectedLater : LeadsTo .processing .rejected

/-- No edge leads out of a closed status. -/
theorem WithdrawalStatus.LeadsTo.not_terminal {s s' : WithdrawalStatus} (h : s.LeadsTo s') :
    s.isTerminal = false := by
  cases h <;> rfl

namespace Withdrawal

/-- **A later state of a row:** what it was stored with is unchanged. -/
structure Continues (v w : Withdrawal) : Prop extends v.Same w where
  createdAt : v.createdAt = w.createdAt

/-- **A move of a row** along one edge. -/
structure Moves (w v : Withdrawal) : Prop extends v.Continues w where
  edge : w.status.LeadsTo v.status

variable {u v w : Withdrawal}

theorem Continues.refl (w : Withdrawal) : w.Continues w := ⟨.refl w, rfl⟩

theorem Continues.trans (h : u.Continues v) (h' : v.Continues w) : u.Continues w :=
  ⟨h.toSame.trans h'.toSame, h.createdAt.trans h'.createdAt⟩

/-- What a change of status writes is a move, if the edge is there. -/
theorem moves_apply (w : Withdrawal) (update : WithdrawalUpdate) {status : WithdrawalStatus}
    (updatedAt : Option Instant) (h : w.status.LeadsTo status) :
    w.Moves { w.apply update with status, updatedAt } :=
  ⟨⟨w.same_apply update status updatedAt, rfl⟩, h⟩

/-- To be told the final posting does not undo a move. -/
theorem Moves.setFinal (h : w.Moves v) (transfer : Option TransferId) :
    w.Moves { v with finalTransaction := transfer } :=
  ⟨⟨⟨h.id, h.ownerUuid, h.currency, h.walletId, h.amount, h.appliedFee, h.request, h.type⟩,
    h.createdAt⟩, h.edge⟩

end Withdrawal

/-- A decision leads along an edge. -/
theorem Decision.leadsTo {d : Decision} {status : WithdrawalStatus} (h : d.permits status = true) :
    status.LeadsTo d.status := by
  cases d with
  | accept =>
    cases status with
    | created => exact .accepted
    | processing => exact .acceptedLater
    | done | canceled | rejected => cases h
  | cancel =>
    cases status with
    | created => exact .canceled
    | processing | done | canceled | rejected => cases h
  | reject =>
    cases status with
    | created => exact .rejected
    | processing => exact .rejectedLater
    | done | canceled | rejected => cases h

namespace WithdrawalTable

variable {t t' : WithdrawalTable} {id id' : Int} {v w w' : Withdrawal}

/-- A new row hides no other. -/
theorem find?_insert {d : WithdrawalDraft} {now : Instant} (h : t.insert d now = .ok (v, t'))
    (hw : t.find? id = some w) : t'.find? id = some w := by
  obtain ⟨-, -, rfl⟩ := insert_eq h
  rw [WithdrawalTable.find?, List.find?_append]
  exact Option.or_eq_some_iff.2 (.inl hw)

/-- **What one operation does to the table.** -/
inductive Step (t : WithdrawalTable) : WithdrawalTable → Prop
  | idle : Step t t
  | stored {d : WithdrawalDraft} {now : Instant} {w : Withdrawal} {t' : WithdrawalTable}
      (h : t.insert d now = .ok (w, t')) : Step t t'
  | moved {w v : Withdrawal} (held : t.find? w.id = some w) (h : w.Moves v) :
      Step t (t.replace v)

namespace Step

/-- **No row is lost,** and each is as it was or has moved along an edge. -/
theorem find? (h : t.Step t') (hw : t.find? id = some w) :
    ∃ v, t'.find? id = some v ∧ (v = w ∨ w.Moves v) := by
  cases h with
  | idle => exact ⟨w, hw, .inl rfl⟩
  | stored h => exact ⟨w, find?_insert h hw, .inl rfl⟩
  | @moved u v held h =>
    rw [find?_replace, hw, Option.map_some]
    refine ⟨_, rfl, ?_⟩
    split_ifs with hid
    · rw [find?_id hw, h.id] at hid
      rw [← hid, hw] at held
      exact .inr (Option.some.inj held ▸ h)
    · exact .inl rfl

/-- **At most one row changes.** -/
theorem changed_unique (h : t.Step t') (hw : t.find? id = some w) (hw' : t.find? id' = some w')
    (hchanged : t'.find? id ≠ some w) (hchanged' : t'.find? id' ≠ some w') : id = id' := by
  cases h with
  | idle => exact absurd hw hchanged
  | stored h => exact absurd (find?_insert h hw) hchanged
  | @moved u v held h =>
    have hid : ∀ {x : Int} {y : Withdrawal}, t.find? x = some y →
        (t.replace v).find? x ≠ some y → x = v.id := fun {x y} hy hne => by
      by_contra hx
      refine hne ?_
      rw [find?_replace, hy, Option.map_some, if_neg]
      rwa [find?_id hy]
    exact (hid hw hchanged).trans (hid hw' hchanged').symm

/-- At most one row is new, and then no other one changes. -/
theorem new (h : t.Step t') :
    t'.rows.length = t.rows.length ∨
      t'.rows.length = t.rows.length + 1 ∧
        ∀ id w, t.find? id = some w → t'.find? id = some w := by
  cases h with
  | idle => exact .inl rfl
  | stored h =>
    have hfind : ∀ id w, t.find? id = some w → _ := fun _ _ hw => find?_insert h hw
    obtain ⟨-, -, rfl⟩ := insert_eq h
    exact .inr ⟨by simp, hfind⟩
  | moved => exact .inl (by simp [replace])

end Step

/-- Of two writes of a row the second one counts. -/
theorem replace_replace (t : WithdrawalTable) (h : v.id = w.id) :
    (t.replace v).replace w = t.replace w := by
  simp only [replace, List.map_map]
  congr 1
  refine List.map_congr_left fun x _ => ?_
  simp only [Function.comp_apply]
  split_ifs <;> simp_all

/-- Writing a row as it is. -/
theorem replace_self (hnodup : (t.rows.map (·.id)).Nodup) (hw : t.find? w.id = some w) :
    t.replace w = t := by
  have hrows : (t.rows.map fun x => if x.id = w.id then w else x) = t.rows := by
    refine (List.map_congr_left fun x hx => ?_).trans (List.map_id _)
    split_ifs with hid
    · exact (List.inj_on_of_nodup_map hnodup hx (mem_of_find? hw) hid).symm
    · rfl
  rw [replace, hrows]

/-- **Putting a row back restores the table.** -/
theorem replace_back (hnodup : (t.rows.map (·.id)).Nodup) (hw : t.find? w.id = some w)
    (h : v.id = w.id) : (t.replace v).replace w = t :=
  (replace_replace t h).trans (replace_self hnodup hw)

end WithdrawalTable

namespace Ledger

variable {l l' l'' : Ledger (Faulty Memory)} {t : Terms}

/-! ## 2. What does not touch the rows -/

/-- The rows of the withdrawals are left as they are. -/
def SameRows (l l' : Ledger (Faulty Memory)) : Prop :=
  l'.memory.withdrawals = l.memory.withdrawals

theorem SameRows.trans (h : l.SameRows l') (h' : l'.SameRows l'') : l.SameRows l'' :=
  Eq.trans h' h

instance : IsTrans (Ledger (Faulty Memory)) SameRows := ⟨fun _ _ _ h h' => h.trans h'⟩

theorem Still.sameRows (h : l.Still l') : l.SameRows l' := by rw [SameRows, h.memory]

theorem Evolves.sameRows (h : l.Evolves Effect.Quiet l') : l.SameRows l' :=
  h.withdrawals_of_quiet

section

variable {α : Type} {a : Action (Ledger (Faulty Memory)) α}
  {Q : α → Ledger (Faulty Memory) → Prop}

theorem sameRows_of_still (h : Within Still a Q l) : Within SameRows a Q l :=
  h.weaken fun _ => Still.sameRows

end

/-- **Posting does not touch the rows,** however it ends. -/
theorem sameRows_post (access : Access) (mv : Movement) :
    Within SameRows (post t access mv) (fun _ _ => True) l := by
  refine within_post_of (fun _ _ h => h.quiet.sameRows) fun _ _ _ h => ?_
  obtain ⟨table, -, hm⟩ := h.made
  rw [SameRows, hm]
  rfl

theorem sameRows_unstage (ownerUuid : String) (amount : Amount) (cashoutId : Int)
    (staged : Receipt) :
    Within SameRows (unstage t ownerUuid amount cashoutId staged) (fun _ _ => True) l := by
  unfold unstage
  refine (sameRows_of_still (within_requireOwner ownerUuid)).bind fun owner l₁ _ _ => ?_
  refine (sameRows_of_still (within_loadWallet cashoutId)).bind fun cashout l₂ _ _ => ?_
  refine (sameRows_of_still (within_requireWallet owner amount.currency .main)).bind
    fun main l₃ _ _ => ?_
  exact sameRows_post _ _

/-! ## 3. What changes a row -/

/-- **One step of the table,** or none. -/
def Steps (l l' : Ledger (Faulty Memory)) : Prop :=
  l.memory.withdrawals.Step l'.memory.withdrawals

theorem SameRows.steps (h : l.SameRows l') : l.Steps l' := by
  rw [Steps, h]
  exact .idle

theorem SameRows.then_steps (h : l.SameRows l') (h' : l'.Steps l'') : l.Steps l'' := by
  unfold Steps at h' ⊢
  rwa [← h]

theorem Steps.then_same (h : l.Steps l') (h' : l'.SameRows l'') : l.Steps l'' := by
  unfold Steps at h ⊢
  rwa [h']

/-- A call whose every answer is a step is a step, also where its answer is lost. -/
theorem steps_ask {α : Type} {c : Call α}
    (h : ∀ a m, l.memory.answer c = .ok (a, m) → l.memory.withdrawals.Step m.withdrawals) :
    (ask c).Ends (fun _ l' => l.Steps l') (fun _ l' => l.Steps l') l :=
  ends_ask (fun a _ _ ha => h a _ ha) (fun _ _ hl _ _ => hl.sameRows.steps)
    (fun _ _ hl => hl.sameRows.steps) fun _ a _ _ _ ha => h a _ ha

theorem steps_insert (d : WithdrawalDraft) (now : Instant) :
    (ask (.insertWithdrawal d now)).Ends (fun _ l' => l.Steps l') (fun _ l' => l.Steps l') l := by
  refine steps_ask fun w m h => ?_
  obtain ⟨table, hinsert, rfl⟩ := Memory.answering_eq h
  exact .stored hinsert

/-- A row is claimed, and the caller is told or not. -/
theorem ends_claim {w : Withdrawal} (hw : l.memory.withdrawals.find? w.id = some w)
    {status : WithdrawalStatus} (hedge : w.status.LeadsTo status) (u : WithdrawalUpdate)
    (now : Instant) :
    (ask (.transition w.id w.status status u now)).Ends
      (fun o l' => (o = none ∧ l.SameRows l') ∨
        ∃ v, o = some v ∧ w.Moves v ∧ v.status = status ∧
          l'.memory.withdrawals = l.memory.withdrawals.replace v)
      (fun _ l' => l.Steps l') l := by
  have hanswer : ∀ o m, l.memory.answer (.transition w.id w.status status u now) = .ok (o, m) →
      (o = none ∧ m.withdrawals = l.memory.withdrawals) ∨
        ∃ v, o = some v ∧ w.Moves v ∧ v.status = status ∧
          m.withdrawals = l.memory.withdrawals.replace v := by
    intro o m h
    obtain ⟨table, htransition, rfl⟩ := Memory.answering_eq h
    rcases WithdrawalTable.transition_eq htransition with ⟨rfl, rfl⟩ | ⟨x, hx, -, rfl, rfl⟩
    · exact .inl ⟨rfl, rfl⟩
    · obtain rfl : x = w := Option.some.inj (hx.symm.trans hw)
      exact .inr ⟨_, rfl, x.moves_apply u _ hedge, rfl, rfl⟩
  refine ends_ask (fun o l' _ h => hanswer o _ h) (fun o l' h _ hnothing => ?_)
    (fun _ _ h => h.sameRows.steps) fun _ o l' _ _ h => ?_
  · cases hnothing
    exact .inl ⟨rfl, h.sameRows⟩
  · rcases hanswer o _ h with ⟨-, hsame⟩ | ⟨v, -, hmoves, -, hrows⟩
    · exact SameRows.steps hsame
    · rw [Steps, hrows]
      exact .moved hw hmoves

/-- A row is written as it was before, or it is not. -/
def PutsBack (w : Withdrawal) (l l' : Ledger (Faulty Memory)) : Prop :=
  l.SameRows l' ∨ l'.memory.withdrawals = l.memory.withdrawals.replace w

theorem SameRows.then_putsBack {w : Withdrawal} (h : l.SameRows l') (h' : l'.PutsBack w l'') :
    l.PutsBack w l'' :=
  h'.imp h.trans fun hrows => hrows.trans (congrArg (·.replace w) h)

theorem ends_putBack (current : WithdrawalStatus) (earlier : Withdrawal) :
    (ask (.revert current earlier)).Ends (fun _ l' => l.PutsBack earlier l')
      (fun _ l' => l.PutsBack earlier l') l := by
  have hanswer : ∀ b m, l.memory.answer (.revert current earlier) = .ok (b, m) →
      m.withdrawals = l.memory.withdrawals ∨
        m.withdrawals = l.memory.withdrawals.replace earlier := by
    intro b m h
    obtain ⟨table, hrevert, rfl⟩ := Memory.answering_eq h
    exact (WithdrawalTable.revert_eq hrevert).imp id fun ⟨_, _, _, htable⟩ => htable
  exact ends_ask (fun b l' _ h => hanswer b _ h) (fun _ _ h _ _ => .inl h.sameRows)
    (fun _ _ h => .inl h.sameRows) fun _ b l' _ _ h => hanswer b _ h

/-- The row is told its final posting, or it is not. -/
theorem ends_tellFinal (id : Int) (transfer : TransferId) :
    (ask (.setFinal id transfer)).Ends
      (fun _ l' => ∃ v, l.memory.withdrawals.find? id = some v ∧ l'.memory.withdrawals =
        l.memory.withdrawals.replace { v with finalTransaction := some transfer })
      (fun _ l' => l.SameRows l' ∨
        ∃ v, l.memory.withdrawals.find? id = some v ∧ l'.memory.withdrawals =
          l.memory.withdrawals.replace { v with finalTransaction := some transfer }) l := by
  have hanswer : ∀ m, l.memory.answer (.setFinal id transfer) = .ok ((), m) →
      ∃ v, l.memory.withdrawals.find? id = some v ∧ m.withdrawals =
        l.memory.withdrawals.replace { v with finalTransaction := some transfer } := by
    intro m h
    obtain ⟨table, hset, rfl⟩ := Memory.writing_eq h
    obtain ⟨v, hv, rfl⟩ := WithdrawalTable.setFinal_eq hset
    exact ⟨v, hv, rfl⟩
  exact ends_ask (fun _ l' _ h => hanswer _ h) (fun _ _ _ _ hnothing => nomatch hnothing)
    (fun _ _ h => .inl h.sameRows) fun _ _ l' _ _ h => .inr (hanswer _ h)

/-! ## 4. The flow -/

/-- Posting for a claimed row leaves the rows as they are, or puts the row back. -/
theorem ends_postOrRevert_rows (w : Withdrawal) (status : WithdrawalStatus) (mv : Movement) :
    (postOrRevert t w status mv).Ends (fun _ l' => l.SameRows l')
      (fun _ l' => l.PutsBack w l') l := by
  unfold postOrRevert
  refine (sameRows_post .custody mv).attempt.and_then (fun r l₁ h₁ _ => ?_) fun _ _ h => .inl h
  cases r with
  | ok posted => exact (ends_pure posted).2 h₁
  | error cause =>
    have hfind : Within SameRows (findPosting (w.legRef status)) (fun _ _ => True) l₁ :=
      sameRows_of_still ((within_read (c := .findPosting (w.legRef status)) rfl).mono
        fun _ _ _ _ => trivial)
    refine hfind.attempt.and_then (fun found l₂ h₂ _ => ?_) fun _ _ h => .inl (h₁.trans h)
    have hrevert : (do let _ ← ask (.revert status w); refuse cause : Action _ Receipt).Ends
        (fun _ l' => l.SameRows l') (fun _ l' => l.PutsBack w l') l₂ := by
      rw [ends_bind]
      exact Ends.mono (ends_putBack status w)
        (fun _ _ h => (ends_refuse cause).2 ((h₁.trans h₂).then_putsBack h))
        fun _ _ h => (h₁.trans h₂).then_putsBack h
    cases found with
    | error _ => exact hrevert
    | ok found =>
      cases found with
      | none => exact hrevert
      | some landed => exact (ends_pure _).2 (h₁.trans h₂)

/-- **Claiming a row and paying is one step,** wherever it stops. -/
theorem steps_transitionWithLeg (hnodup : (l.memory.withdrawals.rows.map (·.id)).Nodup)
    {w : Withdrawal} (hw : l.memory.withdrawals.find? w.id = some w) {status : WithdrawalStatus}
    (hedge : w.status.LeadsTo status) (update : WithdrawalUpdate) (cashout dest : Wallet)
    (category : Category) (description : Option String) (lost : Error) :
    (transitionWithLeg t w status update cashout dest category description lost).Ends
      (fun _ l' => l.Steps l') (fun _ l' => l.Steps l') l := by
  unfold transitionWithLeg
  refine within_now.and_then (fun now l₁ h₁ _ => ?_) fun _ _ h => h.sameRows.steps
  have hw₁ : l₁.memory.withdrawals.find? w.id = some w := h₁.memory ▸ hw
  rw [ends_bind]
  refine Ends.mono (ends_claim hw₁ hedge update now) (fun o l₂ ho => ?_)
    fun _ _ h => h₁.sameRows.then_steps h
  rw [ends_bind, ends_orRefuse]
  rcases ho with ⟨rfl, hsame⟩ | ⟨v, rfl, hmoves, -, hrows⟩
  · exact ⟨fun _ hv => (nomatch hv), fun _ => (h₁.sameRows.trans hsame).steps⟩
  · rw [h₁.memory] at hrows
    -- From here on the row is moved, and stays so unless it is put back.
    have hmoved : ∀ {l'}, l₂.SameRows l' → l.Steps l' := fun {l'} h => by
      rw [Steps, h, hrows]
      exact .moved hw hmoves
    refine ⟨fun claimed _ => ?_, fun hnone => nomatch hnone⟩
    rw [ends_bind, ends_orAbort]
    refine ⟨fun staged _ => ?_, fun _ => hmoved rfl⟩
    rw [ends_bind]
    refine Ends.mono (ends_postOrRevert_rows w status _) (fun posted l₃ h₃ => ?_)
      fun _ l₃ h₃ => ?_
    · have htold : ∀ {l₄ : Ledger (Faulty Memory)}, (∃ x,
          l₃.memory.withdrawals.find? w.id = some x ∧ l₄.memory.withdrawals =
            l₃.memory.withdrawals.replace { x with finalTransaction := some posted.transferId }) →
          l.Steps l₄ := by
        rintro l₄ ⟨x, hx, hrows₄⟩
        rw [h₃, hrows] at hx hrows₄
        obtain rfl : v = x :=
          Option.some.inj ((WithdrawalTable.find?_replaced hw hmoves.id).symm.trans hx)
        have htwice := WithdrawalTable.replace_replace l.memory.withdrawals (v := v)
          (w := { v with finalTransaction := some posted.transferId }) rfl
        rw [Steps, hrows₄, htwice]
        exact .moved hw (hmoves.setFinal _)
      rw [ends_bind]
      exact Ends.mono (ends_tellFinal w.id posted.transferId)
        (fun _ l₄ h₄ => (ends_pure _).2 (htold h₄))
        fun _ l₄ h₄ => h₄.elim (fun h => hmoved (h₃.trans h)) htold
    · rcases h₃ with hsame | hback
      · exact hmoved hsame
      · rw [hrows, WithdrawalTable.replace_back hnodup hw hmoves.id] at hback
        exact SameRows.steps hback

/-- **A decision is one step.** -/
theorem steps_decision (hnodup : (l.memory.withdrawals.rows.map (·.id)).Nodup) (d : Decision) :
    (d.run t).Ends (fun _ l' => l.Steps l') (fun _ l' => l.Steps l') l := by
  refine ends_decision d (fun _ _ h => h.sameRows.steps) fun w cashout dest l₁ h => ?_
  have hsame := h.moved.sameRows
  have hw : l₁.memory.withdrawals.find? w.id = some w := by
    rw [hsame, WithdrawalTable.find?_id h.row, h.row]
  refine Ends.mono (steps_transitionWithLeg (hsame.symm ▸ hnodup) hw (d.leadsTo h.permitted) _ _ _
    _ _ _) (fun _ _ h => hsame.then_steps h) fun _ _ h => hsame.then_steps h

/-- **Taking a row up is one step.** -/
theorem steps_processWithdrawal (id : Int) :
    (processWithdrawal id).Ends (fun _ l' => l.Steps l') (fun _ l' => l.Steps l') l := by
  have still : ∀ (_ : Stop) l', l.Still l' → l.Steps l' := fun _ _ h => h.sameRows.steps
  unfold processWithdrawal
  refine (Still.refl l).next (within_requireWithdrawal id) still fun w l₁ h₁ hw => ?_
  refine h₁.next still_require still fun _ l₂ h₂ hstatus => ?_
  refine h₂.next within_now still fun now l₃ h₃ _ => ?_
  have hw₃ : l₃.memory.withdrawals.find? w.id = some w := by
    rw [h₃.memory, WithdrawalTable.find?_id hw, hw]
  have hedge : w.status.LeadsTo .processing := by
    revert hstatus
    generalize w.status = status
    cases status with
    | created => exact fun _ => .taken
    | processing | done | canceled | rejected => exact nofun
  rw [ends_bind]
  refine Ends.mono (ends_claim hw₃ hedge .none now) (fun o l₄ ho => ?_)
    fun _ _ h => h₃.sameRows.then_steps h
  rw [ends_bind, ends_orRefuse]
  rcases ho with ⟨rfl, hsame⟩ | ⟨v, rfl, hmoves, -, hrows⟩
  · exact ⟨fun _ hv => (nomatch hv), fun _ => (h₃.sameRows.trans hsame).steps⟩
  · refine ⟨fun _ _ => (ends_pure _).2 ?_, fun hnone => nomatch hnone⟩
    refine h₃.sameRows.then_steps ?_
    rw [Steps, hrows]
    exact .moved hw₃ hmoves

/-- **A request is one step:** whatever is returned, at most one row is stored. -/
theorem steps_requestWithdrawal (c : WithdrawalRequest) :
    (requestWithdrawal t c).Ends (fun _ l' => l.Steps l') (fun _ l' => l.Steps l') l := by
  refine ends_requestWithdrawal c (fun _ _ h => h.sameRows.steps)
    fun owner currency source cashout amount policy net l₁ h => ?_
  have h₁ := h.moved.sameRows
  unfold stage
  refine (sameRows_post .custody _).and_then (fun staged l₂ h₂ _ => ?_)
    fun _ _ h => (h₁.trans h).steps
  refine (sameRows_of_still within_now).and_then (fun now l₃ h₃ _ => ?_)
    fun _ _ h => ((h₁.trans h₂).trans h).steps
  have hsame : l.SameRows l₃ := (h₁.trans h₂).trans h₃
  rw [ends_bind, ends_attempt]
  refine Ends.mono (steps_insert _ now) (fun row l₄ h₄ => (ends_pure _).2 (hsame.then_steps h₄))
    fun stop l₄ h₄ => ⟨fun cause _ => ?_, fun _ => hsame.then_steps h₄⟩
  -- The row may have been stored, although storing it failed.
  exact (sameRows_unstage owner.uuid amount cashout.id staged).attempt.and_then
    (fun _ _ h _ => (ends_refuse cause).2 ((hsame.then_steps h₄).then_same h))
    fun _ _ h => (hsame.then_steps h₄).then_same h

/-- Storing a row once stores at most one. -/
theorem steps_recordOnce (d : WithdrawalDraft) :
    (recordOnce d).Ends (fun _ l' => l.Steps l') (fun _ l' => l.Steps l') l := by
  have still : ∀ (_ : Stop) l', l.Still l' → l.Steps l' := fun _ _ h => h.sameRows.steps
  have hread : ∀ {l'}, Within Still (ask (.withdrawalByRequest d.requestTransaction))
      (fun _ _ => True) l' := fun {l'} =>
    (within_read (c := .withdrawalByRequest d.requestTransaction) rfl).mono fun _ _ _ _ => trivial
  unfold recordOnce
  refine (Still.refl l).next hread still fun found l₁ h₁ _ => ?_
  cases found with
  | some _ => exact (ends_pure _).2 h₁.sameRows.steps
  | none =>
    refine h₁.next within_now still fun now l₂ h₂ _ => ?_
    rw [ends_bind, ends_attempt]
    refine Ends.mono (steps_insert d now)
      (fun _ l₃ h₃ => (ends_pure _).2 (h₂.sameRows.then_steps h₃))
      fun stop l₃ h₃ => ⟨fun cause _ => ?_, fun _ => h₂.sameRows.then_steps h₃⟩
    refine hread.and_then (fun found l₄ h₄ _ => ?_)
      fun _ _ h => (h₂.sameRows.then_steps h₃).then_same h.sameRows
    have hsteps : l.Steps l₄ := (h₂.sameRows.then_steps h₃).then_same h₄.sameRows
    cases found with
    | some _ => exact (ends_pure _).2 hsteps
    | none => exact (ends_refuse cause).2 hsteps

/-- **Recording a payout that was made elsewhere is one step.** -/
theorem steps_withdrawManually (c : ManualWithdrawal) :
    (withdrawManually t c).Ends (fun _ l' => l.Steps l') (fun _ l' => l.Steps l') l := by
  rw [withdrawManually_eq, ends_bind]
  refine Ends.mono (ends_arrange c) (fun a l₁ h => ?_) fun _ _ h => h.sameRows.steps
  have h₁ := h.moved.sameRows
  refine (sameRows_post .generic _).and_then (fun posted l₂ h₂ _ => ?_)
    fun _ _ h => (h₁.trans h).steps
  rw [ends_bind]
  exact Ends.mono (steps_recordOnce _)
    (fun _ _ h => (ends_pure posted).2 ((h₁.trans h₂).then_steps h))
    fun _ _ h => (h₁.trans h₂).then_steps h

end Ledger

/-! ## 5. Runs -/

namespace Operation

variable {t : Terms} {l : Ledger (Faulty Memory)} {op : Operation}

/-- The operations that are about rows of the withdrawals. -/
def ReachesRows : Operation → Prop
  | .request _ | .process _ | .decide _ | .withdrawManually _ => True
  | _ => False

/-- The others write no row. -/
theorem May.sparesRows {policies : WithdrawalPolicies} {e : Effect} (h : op.May policies e)
    (hop : ¬op.ReachesRows) : e ≠ .rows ∧ ∀ w, e ≠ .row w := by
  have hmoves : ∀ {refs : Option String → Prop}, e.Moves .generic refs →
      e ≠ .rows ∧ ∀ w, e ≠ .row w := by
    rintro refs (⟨_, hquiet⟩ | _)
    · rcases hquiet with _ | _ | _ <;> exact ⟨nofun, fun _ => nofun⟩
    · exact ⟨nofun, fun _ => nofun⟩
  cases op with
  | request | process | decide | withdrawManually => exact absurd trivial hop
  | transfer | deposit | depositManually => exact hmoves h
  | advance | recover => exact h.elim (fun he => by rw [he]; exact ⟨nofun, fun _ => nofun⟩) hmoves
  | createWallet =>
    obtain ⟨w, rfl, -⟩ := h
    exact ⟨nofun, fun _ => nofun⟩
  | mutateBalance => rcases h with rfl | rfl <;> exact ⟨nofun, fun _ => nofun⟩
  | quote | setPolicy | arm | elapse => exact h.elim
  | createOwner | setPermissions | registerCurrency | setActive | addTransitive
  | deleteTransitive | addRate | updateRate | deleteRate | forbid | allow | reserve | cancel
  | sweep | inject =>
    have he : e = _ := h
    rw [he]
    exact ⟨nofun, fun _ => nofun⟩

/-- **Every operation is one step of the table.** -/
theorem steps_after (op : Operation) (hl : l.memory.Sound) : l.Steps (op.after t l) := by
  by_cases hrows : op.ReachesRows
  · cases op with
    | request c => exact runIn_discard (Ledger.steps_requestWithdrawal c)
    | process id => exact runIn_discard (Ledger.steps_processWithdrawal id)
    | decide d => exact runIn_discard (Ledger.steps_decision hl.rowIds d)
    | withdrawManually c => exact runIn_discard (Ledger.steps_withdrawManually c)
    | _ => exact hrows.elim
  · by_cases hordinary : op.IsOrdinary
    · have hwrites := op.evolves_after (t := t) hl hordinary
      refine Ledger.SameRows.steps (hwrites.withdrawals (fun w hw => ?_) fun he => ?_)
      · exact (hw.sparesRows hrows).2 w rfl
      · exact (he.sparesRows hrows).1 rfl
    · refine Ledger.SameRows.steps ?_
      rw [Ledger.SameRows, memory_after op hordinary]

end Operation

namespace Ledger

variable {t : Terms} {l : Ledger (Faulty Memory)}

/-- **A row through a run:** it is not lost, what it was stored with is unchanged, and once it is
closed nothing of it changes. -/
theorem row_runAll (ops : List Operation) (hl : l.memory.Sound) {id : Int} {w : Withdrawal}
    (hw : l.memory.withdrawals.find? id = some w) :
    ∃ v, (Operation.runAll t l ops).memory.withdrawals.find? id = some v ∧ v.Continues w ∧
      (w.status.isTerminal = true → v = w) := by
  induction ops generalizing l w with
  | nil => exact ⟨w, hw, .refl w, fun _ => rfl⟩
  | cons op ops ih =>
    obtain ⟨u, hu, hcases⟩ := (op.steps_after (t := t) hl).find? hw
    obtain ⟨v, hv, hvu, hterminal⟩ := ih (sound_after op hl) hu
    rcases hcases with rfl | hmoves
    · exact ⟨v, hv, hvu, hterminal⟩
    · refine ⟨v, hv, hvu.trans hmoves.toContinues, fun hclosed => ?_⟩
      rw [hmoves.edge.not_terminal] at hclosed
      cases hclosed

/-- **The life of a row.** In every state that any run leads to, whatever failed on the way, and
whatever conflicts and failures are to come: an operation leaves every row as it is or moves it
along one edge; it changes at most one row, and none if it stores a new one. In any run from there
on, no row is lost or changes in what it was stored with, and a row that is closed does not change
at all. -/
theorem row_lifecycle (hl : l.Reachable t) :
    (∀ op : Operation,
      (∀ id w, l.memory.withdrawals.find? id = some w →
        ∃ v, (op.after t l).memory.withdrawals.find? id = some v ∧ (v = w ∨ w.Moves v)) ∧
      (∀ id id' w w', l.memory.withdrawals.find? id = some w →
        l.memory.withdrawals.find? id' = some w' →
        (op.after t l).memory.withdrawals.find? id ≠ some w →
        (op.after t l).memory.withdrawals.find? id' ≠ some w' → id = id') ∧
      ((op.after t l).memory.withdrawals.rows.length = l.memory.withdrawals.rows.length ∨
        (op.after t l).memory.withdrawals.rows.length = l.memory.withdrawals.rows.length + 1 ∧
          ∀ id w, l.memory.withdrawals.find? id = some w →
            (op.after t l).memory.withdrawals.find? id = some w)) ∧
      ∀ (ops : List Operation) (id : Int) (w : Withdrawal),
        l.memory.withdrawals.find? id = some w →
          ∃ v, (Operation.runAll t l ops).memory.withdrawals.find? id = some v ∧
            v.Continues w ∧ (w.status.isTerminal = true → v = w) := by
  refine ⟨fun op => ?_, fun ops id w => row_runAll ops hl.sound⟩
  have hstep : l.memory.withdrawals.Step (op.after t l).memory.withdrawals :=
    op.steps_after hl.sound
  exact ⟨fun _ _ => hstep.find?, fun _ _ _ _ => hstep.changed_unique, hstep.new⟩

end Ledger

namespace Small

/-- A row is accepted and paid, and the call that tells it of the posting fails. -/
def untold : Ledger (Faulty Memory) :=
  Operation.runAll terms ledger [
    .request (request 20),
    .arm [⟨"set_final_transaction", .before, 0, 1⟩],
    .decide (.accept (acceptance 1))]

theorem untold_reachable : untold.Reachable terms := reachable.runAll _

/-- Everybody has another try. -/
def retries : List Operation := [
  .decide (.accept (acceptance 1)),
  .process 1,
  .decide (.cancel "ann" 1),
  .decide (.reject ⟨1, "late", none, none⟩)]

end Small

/-- The row is closed although the caller was told of an error, and it stays as it is: its posting
is never written down. -/
theorem Ledger.row_lifecycle_small :
    ∃ w, Small.untold.Reachable Small.terms ∧
      Small.untold.memory.withdrawals.find? 1 = some w ∧ w.status = .done ∧
      w.finalTransaction = none ∧
      (Operation.runAll Small.terms Small.untold Small.retries).memory.withdrawals.find? 1 =
        some w := by
  obtain ⟨w, hw⟩ := Option.isSome_iff_exists.1
    (by decide +kernel : (Small.untold.memory.withdrawals.find? 1).isSome)
  have hrows : ∀ v ∈ Small.untold.memory.withdrawals.rows,
      v.status = .done ∧ v.finalTransaction = none := by decide +kernel
  obtain ⟨hdone, hfinal⟩ := hrows w (WithdrawalTable.mem_of_find? hw)
  obtain ⟨v, hv, -, hclosed⟩ :=
    (row_lifecycle Small.untold_reachable).2 Small.retries 1 w hw
  rw [hclosed (by rw [hdone]; rfl)] at hv
  exact ⟨w, Small.untold_reachable, hw, hdone, hfinal, hv⟩

end WalletLedger
