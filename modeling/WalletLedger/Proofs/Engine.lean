/-
What posting a movement comes to.

One attempt reads both wallets, computes and commits, and nothing can come in between, so the
versions that the commit expects are the versions that are there: it fails on a version only when it
was told to. Hence `post` ends in one of four ways (`ends_post`). The movement was recorded before
and the log is as it was; it is recorded now, by exactly one posting at the end of the log; it is
refused and nothing but pending conflicts was used up; or it is recorded now and a failure is
reported all the same, which takes a fault that strikes after the call.

Whatever a service then says about its movements follows from these four.
-/
import WalletLedger.Proofs.Calls

set_option autoImplicit false

namespace WalletLedger

open WalletLedger.Action

/-! ## 1. The table -/

namespace WalletTable

theorem isCurrent_write {t : WalletTable} {w : Wallet} (h : t.wallet? w.id = some w)
    (balance : Decimal) : t.isCurrent (w.write balance) = .ok true := by
  rw [isCurrent, Wallet.write]
  simp only [h, beq_self_eq_true]

/-- **A commit of what was just read** can only be told to wait, be a repetition, or be made. -/
theorem commit_eq {t t' : WalletTable} {source dest : Wallet} {sourceAfter destAfter : Decimal}
    {p : Posting} {outcome : CommitOutcome} (hsource : t.wallet? source.id = some source)
    (hdest : t.wallet? dest.id = some dest)
    (h : t.commit (source.write sourceAfter) (dest.write destAfter) p = .ok (outcome, t')) :
    (outcome = .versionConflict ∧ t.takeConflict? = some t') ∨
      (∃ earlier, outcome = .duplicate earlier ∧ p.ref.bind t.byRef? = some earlier ∧ t' = t) ∨
      (outcome = .committed ∧ p.ref.bind t.byRef? = none ∧
        t' = ((t.write (source.write sourceAfter)).write (dest.write destAfter)).append p) := by
  unfold commit at h
  -- The table looks at these in turn: a pending conflict, the reference, and the versions.
  cases hconflict : t.takeConflict? with
  | some t₁ =>
    rw [hconflict] at h
    cases h
    exact .inl ⟨rfl, rfl⟩
  | none =>
    rw [hconflict] at h
    cases hearlier : p.ref.bind t.byRef? with
    | some earlier =>
      rw [hearlier] at h
      cases h
      exact .inr (.inl ⟨earlier, rfl, rfl, rfl⟩)
    | none =>
      -- Both wallets are written at the versions they were read with.
      simp only [hearlier, isCurrent_write hsource, isCurrent_write hdest, bind, Except.bind,
        if_true] at h
      cases h
      exact .inr (.inr ⟨rfl, rfl, rfl⟩)

end WalletTable

/-- The answer to such a commit, in the memory. -/
theorem Memory.answer_commit {m m' : Memory} {access : Access} {mv : Movement}
    {source dest : Wallet} {sourceAfter destAfter : Decimal} {id : TransferId}
    {createdAt : Instant} {outcome : CommitOutcome} (checked : mv.check = .ok ())
    (hsource : m.wallets.wallet? mv.source.id = some source)
    (hdest : m.wallets.wallet? mv.dest.id = some dest)
    (allowed : access.check source dest = .ok ())
    (debit : source.balanceAfter mv.debit = .ok sourceAfter)
    (credit : dest.balanceAfter mv.destAmount = .ok destAfter)
    (h : m.answer (.commitPosting (source.write sourceAfter) (dest.write destAfter)
      (mv.posting source dest sourceAfter destAfter id createdAt)) = .ok (outcome, m')) :
    (outcome = .versionConflict ∧ m.Writes (· = .conflict) m') ∨
      (∃ p, outcome = .duplicate p ∧ mv.ref.bind m.wallets.byRef? = some p ∧ m' = m) ∨
      (outcome = .committed ∧ ∃ table,
        m.wallets.Posts access mv (mv.posting source dest sourceAfter destAfter id createdAt)
          table ∧
        m' = { m.withWallets table with posted := m.posted + 1 }) := by
  simp only [answer, answering] at h
  cases hcommit : m.wallets.commit (source.write sourceAfter) (dest.write destAfter)
      (mv.posting source dest sourceAfter destAfter id createdAt) with
  | error cause => rw [hcommit] at h; cases h
  | ok r =>
    obtain ⟨outcome', table⟩ := r
    rw [hcommit] at h
    have hs : m.wallets.wallet? source.id = some source := by
      rw [WalletTable.wallet?_id hsource, hsource]
    have hd : m.wallets.wallet? dest.id = some dest := by
      rw [WalletTable.wallet?_id hdest, hdest]
    rcases WalletTable.commit_eq hs hd hcommit with
      ⟨rfl, hconflict⟩ | ⟨p, rfl, hearlier, rfl⟩ | ⟨rfl, hunused, rfl⟩
    · cases h
      exact .inl ⟨rfl, .single (.conflict hconflict) rfl⟩
    · cases h
      exact .inr (.inl ⟨p, rfl, hearlier, rfl⟩)
    · cases h
      exact .inr (.inr ⟨rfl, _, .made source dest sourceAfter destAfter id createdAt checked hsource
        hdest allowed debit credit hunused, rfl⟩)

namespace Ledger

variable {l l' : Ledger (Faulty Memory)} {t : Terms} {access : Access} {mv : Movement}

/-! ## 2. Waiting and posting -/

/-- Nothing happens but that pending conflicts are used up. -/
def Waits : Ledger (Faulty Memory) → Ledger (Faulty Memory) → Prop := Evolves (· = .conflict)

theorem Waits.memory (h : l.Waits l') :
    ∃ n, l'.memory = l.memory.withWallets { l.memory.wallets with conflicts := n } := by
  refine h.preserves
    (I := fun m => ∃ n, m = l.memory.withWallets { l.memory.wallets with conflicts := n })
    (fun m e m' he hc hm => ?_) ⟨l.memory.wallets.conflicts, rfl⟩
  obtain ⟨n, rfl⟩ := hm
  subst he
  cases hc with
  | conflict hconflict =>
    obtain ⟨k, -, rfl⟩ := WalletTable.takeConflict?_eq hconflict
    exact ⟨k, rfl⟩

theorem Waits.evolves {f : Effect → Prop} (hf : f .conflict) (h : l.Waits l') : l.Evolves f l' :=
  h.mono fun e (he : e = .conflict) => he ▸ hf

theorem Waits.byRef?_eq (h : l.Waits l') (ref : String) :
    l'.memory.wallets.byRef? ref = l.memory.wallets.byRef? ref := by
  obtain ⟨n, hn⟩ := h.memory
  rw [hn]
  rfl

/-- **One posting is made.** -/
structure Posted (l : Ledger (Faulty Memory)) (access : Access) (mv : Movement) (p : Posting)
    (l' : Ledger (Faulty Memory)) : Prop extends Follows l l' where
  made : ∃ table, l.memory.wallets.Posts access mv p table ∧
    l'.memory = { l.memory.withWallets table with posted := l.memory.posted + 1 }

/-- **How posting a movement ends in a receipt.** -/
inductive Receives (l : Ledger (Faulty Memory)) (access : Access) (mv : Movement) :
    Receipt → Ledger (Faulty Memory) → Prop
  /-- The movement was recorded before. -/
  | replayed (p : Posting) (l' : Ledger (Faulty Memory))
      (earlier : mv.ref.bind l.memory.wallets.byRef? = some p) (same : mv.isRecordedBy p = true)
      (waits : l.Waits l') : Receives l access mv p.receipt l'
  /-- The movement is recorded now. -/
  | made (p : Posting) (l₁ l' : Ledger (Faulty Memory)) (waits : l.Waits l₁)
      (posted : l₁.Posted access mv p l') : Receives l access mv p.receipt l'

/-- **How posting a movement stops.** -/
inductive Fails (l : Ledger (Faulty Memory)) (access : Access) (mv : Movement) :
    Ledger (Faulty Memory) → Prop
  /-- Nothing is posted. -/
  | refused (l' : Ledger (Faulty Memory)) (waits : l.Waits l') : Fails l access mv l'
  /-- The posting is made, and its failure is reported. -/
  | struck (p : Posting) (l₁ l' : Ledger (Faulty Memory)) (fault : l.CanFail .after)
      (waits : l.Waits l₁) (posted : l₁.Posted access mv p l') : Fails l access mv l'

theorem Posted.still {p : Posting} {l₁ : Ledger (Faulty Memory)} (h : l.Posted access mv p l₁)
    (hl : l₁.Still l') : l.Posted access mv p l' :=
  ⟨h.toFollows.trans hl.toFollows, by rw [hl.memory]; exact h.made⟩

/-- A posting that was found is answered only if the movement is the one it records. -/
theorem Receives.of_replay {p : Posting} {r : Receipt}
    (earlier : mv.ref.bind l.memory.wallets.byRef? = some p) (h : mv.replay p = .ok r)
    (waits : l.Waits l') : Receives l access mv r l' := by
  unfold Movement.replay at h
  split_ifs at h with same
  cases h
  exact .replayed p l' earlier same waits

theorem Receives.after_waits {r : Receipt} {l₁ : Ledger (Faulty Memory)} (hw : l.Waits l₁)
    (h : Receives l₁ access mv r l') : Receives l access mv r l' := by
  cases h with
  | replayed p _ earlier same waits =>
    refine .replayed p l' ?_ same (hw.trans waits)
    cases href : mv.ref with
    | none => rw [href] at earlier; exact earlier
    | some ref => rw [href, Option.bind_some, hw.byRef?_eq] at earlier; exact earlier
  | made p l₂ _ waits posted => exact .made p l₂ l' (hw.trans waits) posted

theorem Fails.after_waits {l₁ : Ledger (Faulty Memory)} (hw : l.Waits l₁)
    (h : Fails l₁ access mv l') : Fails l access mv l' := by
  cases h with
  | refused _ waits => exact .refused l' (hw.trans waits)
  | struck p l₂ _ fault waits posted =>
    exact .struck p l₂ l' (hw.modes _ fault) (hw.trans waits) posted

/-- What failed was not posted, if no fault hides what was done. -/
theorem Fails.waits (h : Fails l access mv l') (hl : l.Harmless) : l.Waits l' := by
  cases h with
  | refused _ waits => exact waits
  | struck _ _ _ fault _ _ => exact absurd fault hl

theorem Still.waits (h : l.Still l') : l.Waits l' := .of_still h

theorem Still.fails (h : l.Still l') : l.Fails access mv l' := .refused l' h.waits

/-! ## 3. The engine -/

/-- The wallet with a number, as it is in the table. -/
theorem within_loadWallet (id : Int) :
    Within Still (loadWallet id) (fun w _ => l.memory.wallets.wallet? id = some w) l := by
  unfold loadWallet
  refine (within_find (c := .findWalletById id) rfl rfl).bind fun found l' _ hfound => ?_
  exact within_orRefuse fun w hw => hfound w hw

theorem within_earlierPosting (mv : Movement) :
    Within Still (earlierPosting mv)
      (fun found _ => ∀ p, found = some p → mv.ref.bind l.memory.wallets.byRef? = some p) l := by
  unfold earlierPosting
  cases href : mv.ref with
  | none => exact within_pure fun p hp => nomatch hp
  | some ref => exact within_find (c := .findPosting ref) rfl rfl

/-- **One attempt.** -/
theorem ends_tryPost (checked : mv.check = .ok ()) :
    (tryPost t access mv).Ends
      (fun o l' => (∀ r, o = some r → Receives l access mv r l') ∧ (o = none → l.Waits l'))
      (fun _ l' => Fails l access mv l') l := by
  unfold tryPost
  have stopped : ∀ (_ : Stop) l', l.Still l' → l.Fails access mv l' := fun _ _ h => h.fails
  refine (Still.refl l).next (within_loadWallet _) stopped fun source l₁ h₁ hsource => ?_
  refine h₁.next (within_loadWallet _) stopped fun dest l₂ h₂ hdest => ?_
  rw [h₁.memory] at hdest
  refine h₂.next still_ofExcept stopped fun _ l₃ h₃ allowed => ?_
  refine h₃.next still_ofExcept stopped fun sourceAfter l₄ h₄ debit => ?_
  refine h₄.next still_ofExcept stopped fun destAfter l₅ h₅ credit => ?_
  refine h₅.next within_fresh stopped fun ids l₆ h₆ _ => ?_
  refine h₆.next within_now stopped fun createdAt l₇ still _ => ?_
  -- From here on the memory is the one that both wallets were read from.
  have hsource₇ : l₇.memory.wallets.wallet? mv.source.id = some source := by
    rw [still.memory, hsource]
  have hdest₇ : l₇.memory.wallets.wallet? mv.dest.id = some dest := by rw [still.memory, hdest]
  have hanswer : ∀ outcome m', l₇.memory.answer (.commitPosting (source.write sourceAfter)
      (dest.write destAfter)
      (mv.posting source dest sourceAfter destAfter ids.transfer createdAt)) =
        .ok (outcome, m') → _ := fun outcome m' =>
    Memory.answer_commit checked hsource₇ hdest₇ allowed debit credit
  rw [ends_bind]
  refine ends_ask (fun outcome l₈ hl ha => ?_) (fun outcome l₈ hl _ hnothing => ?_)
    (fun _ _ h => (still.trans h).fails) fun _ outcome l₈ hl hafter ha => ?_
  -- The answer arrives: wait, repeat the earlier receipt, or hand out the new one.
  · rcases hanswer _ _ ha with ⟨rfl, hw⟩ | ⟨p, rfl, hearlier, hm⟩ | ⟨rfl, table, hposts, hm⟩
    · exact ⟨fun r hr => (by cases hr), fun _ => still.waits.trans ⟨hl, hw⟩⟩
    · have hstill := still.trans ⟨hl, hm⟩
      rw [still.memory] at hearlier
      refine (ends_map _).2 ((ends_ofExcept _).2 ⟨fun r hr => ⟨fun r' hr' => ?_, nofun⟩, fun _ _ =>
        hstill.fails⟩)
      cases hr'
      exact .of_replay hearlier hr hstill.waits
    · refine (ends_bind _).2 (ends_count t mv.category fun l₉ h₉ => ⟨fun r hr => ?_, nofun⟩)
      cases hr
      have hposted : l₇.Posted access mv _ l₈ := ⟨hl, table, hposts, hm⟩
      exact .made _ l₇ l₉ still.waits (hposted.still h₉)
  · cases hnothing
    exact ⟨fun r hr => (by cases hr), fun _ => (still.trans hl).waits⟩
  -- The answer is lost, but what the commit did stays done.
  · rcases hanswer _ _ ha with ⟨rfl, hw⟩ | ⟨p, rfl, hearlier, hm⟩ | ⟨rfl, table, hposts, hm⟩
    · exact .refused l₈ (still.waits.trans ⟨hl, hw⟩)
    · exact (still.trans ⟨hl, hm⟩).fails
    · have hposted : l₇.Posted access mv _ l₈ := ⟨hl, table, hposts, hm⟩
      exact .struck _ l₇ l₈ (still.modes _ hafter) still.waits hposted

/-- **Trying again** keeps what every try keeps as long as it has no answer. -/
theorem ends_retry {α : Type} {I : Ledger (Faulty Memory) → Prop}
    {Q : α → Ledger (Faulty Memory) → Prop} {E : Stop → Ledger (Faulty Memory) → Prop}
    {a : Action (Ledger (Faulty Memory)) (Option α)} {exhausted : Error}
    (step : ∀ l, I l → a.Ends
      (fun o l' => (∀ v, o = some v → Q v l') ∧ (o = none → I l')) E l)
    (hE : ∀ l, I l → E (.refused exhausted) l) (attempts : Nat) :
    ∀ l, I l → (retry exhausted a attempts).Ends Q E l := by
  -- Induction on the attempts that are left, for every ledger that the tries before may leave.
  induction attempts with
  | zero => exact hE
  | succ n ih =>
    intro l hl
    unfold retry
    refine (ends_bind _).2 (Ends.mono (step l hl) (fun o l' h => ?_) fun _ _ => id)
    cases o with
    | none => exact ih l' (h.2 rfl)
    | some v => exact h.1 v rfl

/-- **Posting a movement,** in all its endings. -/
theorem ends_post :
    (post t access mv).Ends (fun r l' => Receives l access mv r l')
      (fun _ l' => Fails l access mv l') l := by
  unfold post
  have stopped : ∀ (_ : Stop) l', l.Still l' → l.Fails access mv l' := fun _ _ h => h.fails
  refine (Still.refl l).next still_ofExcept stopped fun _ l₁ h₁ checked => ?_
  refine h₁.next still_ofExcept stopped fun _ l₂ h₂ _ => ?_
  refine h₂.next (within_earlierPosting mv) stopped fun found l₃ h₃ hfound => ?_
  rw [h₂.memory] at hfound
  cases found with
  | some p =>
    exact (ends_ofExcept _).2
      ⟨fun r hr => .of_replay (hfound p rfl) hr h₃.waits, fun _ _ => h₃.fails⟩
  | none =>
    -- Every try starts where `l` was but for the conflicts that the tries before used up.
    refine ends_retry (I := l.Waits) (fun l₄ h₄ => ?_) (fun l₄ h₄ => .refused l₄ h₄) _ l₃ h₃.waits
    refine Ends.mono (ends_tryPost checked) (fun o l₅ h => ?_) fun _ _ h => h.after_waits h₄
    exact ⟨fun r hr => (h.1 r hr).after_waits h₄, fun ho => Evolves.trans h₄ (h.2 ho)⟩

/-- **Posting moves a ledger** as waiting and one posting do. -/
theorem within_post_of {R : Ledger (Faulty Memory) → Ledger (Faulty Memory) → Prop}
    [IsTrans _ R] (hwaits : ∀ l l', Waits l l' → R l l')
    (hposted : ∀ l p l', Posted l access mv p l' → R l l') :
    Within R (post t access mv) (fun _ _ => True) l := by
  refine Ends.mono ends_post (fun _ l' h => ⟨?_, trivial⟩) fun _ l' h => ?_
  · cases h with
    | replayed _ _ _ _ waits => exact hwaits l l' waits
    | made p l₁ _ waits posted => exact trans_of R (hwaits l l₁ waits) (hposted l₁ p l' posted)
  · cases h with
    | refused _ waits => exact hwaits l l' waits
    | struck p l₁ _ _ waits posted => exact trans_of R (hwaits l l₁ waits) (hposted l₁ p l' posted)

end Ledger

end WalletLedger
