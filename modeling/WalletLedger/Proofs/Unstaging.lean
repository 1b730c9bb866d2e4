/-
Returning what was set aside for a request.

A request sets funds aside and then stores its row. If the row cannot be stored, the funds go back
under a reference that is made of the identifier of the posting, and the caller is refused.

One call may fail (`OneFault.lean`). If it is the call that stores the row, no other can fail any
more, so the return goes through (`succeeds_unstage`): the wallets are those that the funds were
moved between, nobody is to wait, and what was not rounded can be taken back. The two postings add
nothing to any wallet. If it is a call before that, nothing was set aside. Either way a request that
is refused stores no row and leaves every balance as it was (`OnTime.ends_requestWithdrawal`),
provided that the identifier it was given is new.
-/
import WalletLedger.Proofs.Advance
import WalletLedger.Proofs.Decisions
import WalletLedger.Proofs.Lifecycle
import WalletLedger.Proofs.OneFault

set_option autoImplicit false

namespace WalletLedger

open WalletLedger.Action

namespace Ledger

variable {l l₁ l' : Ledger (Faulty Memory)}

/-! ## 1. Nothing done -/

/-- **Nothing was posted, and no row was written.** -/
structure Unmoved (l l' : Ledger (Faulty Memory)) : Prop where
  log : l'.memory.wallets.log = l.memory.wallets.log
  rows : l'.memory.withdrawals = l.memory.withdrawals

theorem Unmoved.trans {l'' : Ledger (Faulty Memory)} (h : l.Unmoved l') (h' : l'.Unmoved l'') :
    l.Unmoved l'' :=
  ⟨h'.log.trans h.log, h'.rows.trans h.rows⟩

theorem Unmoved.of_memory (h : l'.memory = l.memory) : l.Unmoved l' := by
  constructor <;> rw [h]

theorem Evolves.unmoved (h : l.Evolves Effect.Quiet l') : l.Unmoved l' :=
  ⟨h.log_of_quiet.1, h.withdrawals_of_quiet⟩

theorem Receives.rows {access : Access} {mv : Movement} {r : Receipt}
    (h : l.Receives access mv r l') : l'.memory.withdrawals = l.memory.withdrawals := by
  cases h with
  | replayed _ _ _ _ waits => exact waits.quiet.withdrawals_of_quiet
  | made _ _ _ waits posted => exact posted.withdrawals.trans waits.quiet.withdrawals_of_quiet

end Ledger

/-! ## 2. Postings without a reference -/

/-- **A commit without a reference** is made, and then nobody is to wait; or it is told to wait, and
the next identifier stays. -/
theorem Memory.answer_commit_unnamed {m m' : Memory} {debit credit : BalanceWrite} {p : Posting}
    {outcome : CommitOutcome} {x y : Wallet} (hp : p.ref = none)
    (hx : m.wallets.wallet? debit.walletId = some x)
    (hy : m.wallets.wallet? credit.walletId = some y)
    (h : m.answer (.commitPosting debit credit p) = .ok (outcome, m')) :
    (outcome = .committed ∧ m'.wallets.conflicts = 0) ∨
      (outcome = .versionConflict ∧ m'.fresh.transfer = m.fresh.transfer) := by
  simp only [answer, answering] at h
  rcases WalletTable.commit_cases debit credit p hx hy with
    ⟨n, -, hcommit⟩ | ⟨earlier, hearlier, -⟩ | ⟨-, hcommit⟩ | ⟨hzero, -, -, hcommit⟩
  · rw [hcommit] at h
    cases h
    exact .inr ⟨rfl, rfl⟩
  · rw [hp] at hearlier
    cases hearlier
  · rw [hcommit] at h
    cases h
    exact .inr ⟨rfl, rfl⟩
  · rw [hcommit] at h
    cases h
    exact .inl ⟨rfl, hzero⟩

namespace Ledger

variable {l l₁ l' : Ledger (Faulty Memory)} {t : Terms} {method : String} {access : Access}
  {mv : Movement}

/-- One attempt without a reference, as far as the next identifier goes. -/
theorem ends_tryPost_unnamed (hmv : mv.ref = none) :
    (tryPost t access mv).Ends
      (fun o l' => (∀ r, o = some r → r.transferId = l.memory.fresh.transfer ∧
          l'.memory.wallets.conflicts = 0) ∧
        (o = none → l'.memory.fresh.transfer = l.memory.fresh.transfer))
      (fun _ _ => True) l := by
  have stopped : ∀ (_ : Stop) l', l.Still l' → True := fun _ _ _ => trivial
  unfold tryPost
  refine (Still.refl l).next (within_loadWallet _) stopped fun source l₁ h₁ hsource => ?_
  refine h₁.next (within_loadWallet _) stopped fun dest l₂ h₂ hdest => ?_
  refine h₂.next still_ofExcept stopped fun _ l₃ h₃ _ => ?_
  refine h₃.next still_ofExcept stopped fun sourceAfter l₄ h₄ _ => ?_
  refine h₄.next still_ofExcept stopped fun destAfter l₅ h₅ _ => ?_
  refine h₅.next within_fresh stopped fun ids l₆ h₆ hids => ?_
  refine h₆.next within_now stopped fun createdAt l₇ h₇ _ => ?_
  rw [h₁.memory] at hdest
  rw [h₅.memory] at hids
  rw [ends_bind]
  refine ends_ask (fun outcome l₈ _ ha => ?_) (fun outcome l₈ h₈ _ hnothing => ?_)
    (fun _ _ _ => trivial) fun _ _ _ _ _ _ => trivial
  · rw [h₇.memory] at ha
    have hs : l.memory.wallets.wallet? source.id = some source := by
      rw [WalletTable.wallet?_id hsource, hsource]
    have hd : l.memory.wallets.wallet? dest.id = some dest := by
      rw [WalletTable.wallet?_id hdest, hdest]
    rcases Memory.answer_commit_unnamed hmv hs hd ha with ⟨rfl, hzero⟩ | ⟨rfl, hfresh⟩
    · refine (ends_bind _).2 (ends_count t mv.category fun l₉ h₉ => ⟨fun r hr => ?_, nofun⟩)
      cases hr
      exact ⟨congrArg FreshIds.transfer hids, by rw [h₉.memory, hzero]⟩
    · exact ⟨nofun, fun _ => hfresh⟩
  · cases hnothing
    exact ⟨nofun, fun _ => by rw [h₈.memory, h₇.memory]⟩

/-- **A posting without a reference** has the next identifier, and nobody is to wait afterwards. -/
theorem ends_post_unnamed (hmv : mv.ref = none) :
    (post t access mv).Ends
      (fun r l' => r.transferId = l.memory.fresh.transfer ∧ l'.memory.wallets.conflicts = 0)
      (fun _ _ => True) l := by
  have stopped : ∀ (_ : Stop) l', l.Still l' → True := fun _ _ _ => trivial
  unfold post
  refine (Still.refl l).next still_ofExcept stopped fun _ l₁ h₁ _ => ?_
  refine h₁.next still_ofExcept stopped fun _ l₂ h₂ _ => ?_
  refine h₂.next (within_earlierPosting mv) stopped fun found l₃ h₃ hfound => ?_
  cases found with
  | some p =>
    have hfound := hfound p rfl
    rw [hmv] at hfound
    cases hfound
  | none =>
    refine ends_retry (I := fun l' => l'.memory.fresh.transfer = l.memory.fresh.transfer)
      (fun l₄ h₄ => ?_) (fun _ _ => trivial) _ l₃ (by rw [h₃.memory])
    refine Ends.mono (ends_tryPost_unnamed hmv) (fun o l₅ h => ?_) fun _ _ => id
    exact ⟨fun r hr => by rw [← h₄]; exact h.1 r hr, fun ho => (h.2 ho).trans h₄⟩

/-! ## 3. Returning -/

end Ledger

/-- **The identifier that comes next is new:** no row has it, and no reference to a return. -/
structure Memory.OffersNewId (m : Memory) : Prop where
  row : m.withdrawals.byRequest? m.fresh.transfer = none
  ref : m.wallets.byRef? ("withdraw:orphan:" ++ m.fresh.transfer.text) = none

instance (m : Memory) : Decidable m.OffersNewId :=
  decidable_of_iff (m.withdrawals.byRequest? m.fresh.transfer = none ∧
      m.wallets.byRef? ("withdraw:orphan:" ++ m.fresh.transfer.text) = none)
    ⟨fun h => ⟨h.1, h.2⟩, fun h => ⟨h.row, h.ref⟩⟩

namespace Ledger

variable {l l₁ l' : Ledger (Faulty Memory)} {t : Terms} {method : String}

/-- Getting ready uses no identifier up. -/
theorem Evolves.offersNewId (h : l.Evolves Effect.Quiet l') (hl : l.memory.OffersNewId) :
    l'.memory.OffersNewId := by
  have hposted : l'.memory.posted = l.memory.posted := by
    refine h.preserves (I := fun m => m.posted = l.memory.posted) (fun m e m' he hc hm => ?_) rfl
    cases hc <;> first | exact hm | cases he
  have hfresh : l'.memory.fresh.transfer = l.memory.fresh.transfer := by
    rw [Memory.fresh, Memory.fresh, h.ids, hposted]
  refine ⟨?_, ?_⟩
  · rw [hfresh, h.withdrawals_of_quiet]
    exact hl.row
  · rw [hfresh]
    exact (h.byRef?_of_quiet (some _)).trans hl.ref

section Returning

variable {c : WithdrawalRequest} {owner : Owner} {currency : Currency} {source cashout : Wallet}
  {amount : Amount} {policy : WithdrawalPolicy} {net : Decimal} {p : Posting}
  {l₂ l₃ : Ledger (Faulty Memory)}

/-- A reference that a posting does not bear is as unused as it was. -/
theorem Posted.byRef?_eq_none {access : Access} {mv : Movement} (h : l.Posted access mv p l')
    (hl : l.memory.Sound) {ref : String} (hne : mv.ref ≠ some ref)
    (hunused : l.memory.wallets.byRef? ref = none) : l'.memory.wallets.byRef? ref = none := by
  obtain ⟨table, hposts, hm⟩ := h.made
  rw [show l'.memory.wallets = table by rw [hm]; rfl, Option.eq_none_iff_forall_ne_some]
  intro q hq
  obtain ⟨q, hmem, href⟩ := (hposts.sound hl.wallets).exists_byRef?_iff.1 ⟨q, hq⟩
  rw [hposts.log, List.mem_append, List.mem_singleton] at hmem
  rcases hmem with hmem | rfl
  · rw [hl.wallets.byRef?_of_mem hmem href] at hunused
    cases hunused
  · exact hne (h.ref.symm.trans href)

/-- **What was set aside can be taken back,** if it was not rounded. -/
theorem Granted.fits_back (hl : l.memory.Sound)
    (h : l.Granted c owner currency source cashout amount policy net l₁) (waits : l₁.Waits l₂)
    (posted : l₂.Posted .custody
      (.ofAmount source cashout amount .withdrawRequest c.description none) p l₃)
    (hexact : p.IsExact) :
    ∃ x y, l₃.memory.Knows c.uuid amount.currency .main x ∧ x.id = source.id ∧
      l₃.memory.wallets.wallet? cashout.id = some y ∧
      ∀ category description ref,
        (Movement.ofAmount y x amount category description ref).Fits .custody := by
  have hsymbol : amount.currency = currency.symbol :=
    congrArg Amount.currency (checkedAmount_currency h.checked)
  have hknows : l.memory.Knows c.uuid amount.currency .main source :=
    ⟨owner, h.asker, hsymbol ▸ h.from_main⟩
  have hsource := waits.quiet.knows (h.moved.knows hknows)
  obtain ⟨asker, hasker, hid⟩ := h.moved.account h.asker
  have hfound : l₁.memory.Knows c.uuid currency.symbol .cashout cashout :=
    ⟨asker, hasker, hid ▸ h.found hl⟩
  have hcashout := (waits.quiet.knows hfound).wallet?
  have hsound := (waits.quiet.sound (h.moved.sound hl)).wallets
  have hnonneg : ∀ w, l₂.memory.wallets.wallet? w.id = some w → w.balance.isNegative = false :=
    fun w hw => hsound.balances w (WalletTable.mem_of_wallet? hw)
  obtain ⟨table, hposts, hm⟩ := posted.made
  have hwallets : l₃.memory.wallets = table := by rw [hm]; rfl
  have hkept : table.owners = l₂.memory.wallets.owners ∧ table.keys = l₂.memory.wallets.keys := by
    cases hposts with
    | made => exact ⟨rfl, rfl⟩
  rw [← hwallets] at hposts hkept
  obtain ⟨x, y, hx, hy, hfits⟩ := hposts.fits_back hsource.wallet? hcashout
    (hnonneg _ hsource.wallet?) (hnonneg _ hcashout) hexact
  exact ⟨x, y, hsource.of_wallet? hkept.1 hkept.2 hx, WalletTable.wallet?_id hx, hy, hfits⟩

/-- **Returning goes through,** if everything it needs is there. -/
theorem succeeds_unstage {m : Memory} {uuid : String} {x y : Wallet} {cashoutId : Int}
    {staged : Receipt} (hx : m.Knows uuid amount.currency .main x)
    (hy : m.wallets.wallet? cashoutId = some y)
    (hfits : ∀ category description ref,
      (Movement.ofAmount y x amount category description ref).Fits .custody)
    (hunused : m.wallets.byRef? staged.orphanRef = none) (hzero : m.wallets.conflicts = 0)
    (ht : 0 < t.maxAttempts) :
    Succeeds (unstage t uuid amount cashoutId staged) (fun _ _ => True) m := by
  obtain ⟨o, ho, hmain⟩ := hx
  have hy' : m.wallets.wallet? y.id = some y := by rw [WalletTable.wallet?_id hy, hy]
  unfold unstage
  refine (reads_requireOwner ho).bind ((reads_loadWallet hy).bind ?_)
  refine (reads_requireWallet hmain).bind ?_
  exact succeeds_post ⟨hfits _ _ _, hy', Memory.Knows.wallet? ⟨o, ho, hmain⟩, hunused, hzero⟩ ht

/-- **The posting of a return,** if there is a receipt for it. -/
theorem ends_unstage_posts {uuid : String} {x : Wallet} {cashoutId : Int} {staged : Receipt}
    (hx : l.memory.Knows uuid amount.currency .main x)
    (hunused : l.memory.wallets.byRef? staged.orphanRef = none) :
    (unstage t uuid amount cashoutId staged).Ends
      (fun _ l' => ∃ q, l'.memory.wallets.log = l.memory.wallets.log ++ [q] ∧
        ∀ id, q.delta id = (if cashoutId = id then -amount.value.toRat else 0) +
          if x.id = id then amount.value.toRat else 0)
      (fun _ _ => True) l := by
  have stopped : ∀ (_ : Stop) l', l.Still l' → True := fun _ _ _ => trivial
  obtain ⟨o, ho, hmain⟩ := hx
  unfold unstage
  refine (Still.refl l).next (requireOwner_finds uuid) stopped fun owner l₁ h₁ howner => ?_
  refine h₁.next (within_loadWallet cashoutId) stopped fun cashout l₂ h₂ hcashout => ?_
  refine h₂.next (within_requireWallet owner amount.currency .main) stopped
    fun main l₃ h₃ hfound => ?_
  obtain rfl : o = owner := Option.some.inj (ho.symm.trans howner)
  rw [h₂.memory, hmain] at hfound
  obtain rfl : x = main := Option.some.inj hfound
  refine Ends.mono ends_post (fun r l₄ hreceives => ?_) fun _ _ _ => trivial
  cases hreceives with
  | replayed p _ earlier _ _ =>
    rw [h₃.memory] at earlier
    exact absurd (hunused.symm.trans earlier) (Option.some_ne_none p).symm
  | made q l₅ _ waits posted =>
    obtain ⟨table, hposts, -⟩ := posted.made
    refine ⟨q, ?_, fun id => ?_⟩
    · rw [posted.log, waits.quiet.log_of_quiet.1, h₃.memory]
    · rw [hposts.delta, ← WalletTable.wallet?_id hcashout]
      rfl

/-- **Returning after the call that failed:** the amount is taken from the cashout wallet and given
to the main wallet, whatever happened before. -/
theorem Struck.ends_unstage {uuid : String} {x y : Wallet} {cashoutId : Int} {staged : Receipt}
    (h : l.Struck method) (hx : l.memory.Knows uuid amount.currency .main x)
    (hy : l.memory.wallets.wallet? cashoutId = some y)
    (hfits : ∀ category description ref,
      (Movement.ofAmount y x amount category description ref).Fits .custody)
    (hunused : l.memory.wallets.byRef? staged.orphanRef = none)
    (hzero : l.memory.wallets.conflicts = 0) (ht : 0 < t.maxAttempts) :
    (unstage t uuid amount cashoutId staged).Ends
      (fun _ l' => l'.memory.withdrawals = l.memory.withdrawals ∧
        ∃ q, l'.memory.wallets.log = l.memory.wallets.log ++ [q] ∧
          ∀ id, q.delta id = (if cashoutId = id then -amount.value.toRat else 0) +
            if x.id = id then amount.value.toRat else 0)
      (fun _ _ => False) l := by
  have hsucceeds := succeeds_unstage hx hy hfits hunused hzero ht
  refine Ends.mono (((hsucceeds.ends_struck (.unstage _ _ _ _) h).and
    (ends_unstage_posts hx hunused)).and (sameRows_unstage uuid amount cashoutId staged))
    (fun _ _ hdone => ⟨hdone.2.1, hdone.1.2⟩) fun _ _ hstop => hstop.1.1

/-! ## 4. Requests -/

/-- **What a request that was refused leaves behind:** no row, and no posting or two that cancel
each other out. -/
structure Restores (l l' : Ledger (Faulty Memory)) : Prop where
  rows : l'.memory.withdrawals = l.memory.withdrawals
  log : l'.memory.wallets.log = l.memory.wallets.log ∨
    ∃ p q, l'.memory.wallets.log = l.memory.wallets.log ++ [p, q] ∧
      ∀ id, p.delta id + q.delta id = 0

theorem Unmoved.restores (h : l.Unmoved l') : l.Restores l' := ⟨h.rows, .inl h.log⟩

theorem Unmoved.then_restores (h : l.Unmoved l₁) (h' : l₁.Restores l') : l.Restores l' :=
  ⟨h'.rows.trans h.rows, h.log ▸ h'.log⟩

/-- **Funds were set aside,** and nothing else is different. The row can be stored, and the funds
can be returned if they were not rounded. -/
structure Staged (t : Terms) (owner : Owner) (source cashout : Wallet) (amount : Amount)
    (p : Posting) (l l' : Ledger (Faulty Memory)) : Prop where
  rows : l'.memory.withdrawals = l.memory.withdrawals
  log : l'.memory.wallets.log = l.memory.wallets.log ++ [p]
  delta : ∀ id, p.delta id = (if source.id = id then -amount.value.toRat else 0) +
    if cashout.id = id then amount.value.toRat else 0
  new : l'.memory.withdrawals.byRequest? p.receipt.transferId = none
  unused : l'.memory.wallets.byRef? p.receipt.orphanRef = none
  unhurried : l'.memory.wallets.conflicts = 0
  tried : 0 < t.maxAttempts
  back : p.IsExact → ∃ x y, l'.memory.Knows owner.uuid amount.currency .main x ∧
    x.id = source.id ∧ l'.memory.wallets.wallet? cashout.id = some y ∧
    ∀ category description ref,
      (Movement.ofAmount y x amount category description ref).Fits .custody

theorem Staged.of_memory (h : Staged t owner source cashout amount p l₁ l₂)
    (hm : l₃.memory = l₂.memory) : Staged t owner source cashout amount p l₁ l₃ := by
  refine ⟨?_, ?_, h.delta, ?_, ?_, ?_, h.tried, ?_⟩ <;> rw [hm]
  exacts [h.rows, h.log, h.new, h.unused, h.unhurried, h.back]

/-- **Setting funds aside,** where one call fails. -/
theorem OnTime.ends_setAside (ht : l₁.OnTime method) (hl : l.memory.Sound)
    (h : l.Granted c owner currency source cashout amount policy net l₁)
    (hnew : l₁.memory.OffersNewId) :
    (post t .custody (.ofAmount source cashout amount .withdrawRequest c.description none)).Ends
      (fun r l₂ => l₂.OnTime method ∧
        ∃ p, r = p.receipt ∧ Staged t owner source cashout amount p l₁ l₂)
      (fun _ l₂ => l₁.Unmoved l₂) l₁ := by
  refine Ends.mono (ht.and (Early.post _ _)
    ((ends_post.and (ends_post_unnamed rfl)).and (ends_post_tried rfl)))
    (fun r l₂ hdone => ?_) fun _ l₂ hstop => (hstop.1.1.1.waits ht.harmless).quiet.unmoved
  obtain ⟨⟨⟨hreceives, hid, hzero⟩, htried⟩, ht₂⟩ := hdone
  refine ⟨ht₂, ?_⟩
  cases hreceives with
  | replayed p _ earlier _ _ => cases earlier
  | made p l₀ _ waits posted =>
    obtain ⟨table, hposts, -⟩ := posted.made
    have hrows := posted.withdrawals.trans waits.quiet.withdrawals_of_quiet
    refine ⟨p, rfl, hrows, ?_, fun id => hposts.delta id, ?_, ?_, hzero, htried, fun hexact => ?_⟩
    · rw [posted.log, waits.quiet.log_of_quiet.1]
    · rw [hrows, hid]
      exact hnew.row
    · refine posted.byRef?_eq_none (waits.quiet.sound (h.moved.sound hl)) nofun ?_
      rw [Receipt.orphanRef, hid]
      exact (waits.quiet.byRef?_of_quiet (some _)).trans hnew.ref
    · rw [(hasOwner_of_owner? h.asker).2]
      exact h.fits_back hl waits posted hexact

/-- **Returning the funds after the row could not be stored.** -/
theorem Staged.ends_return (h : Staged t owner source cashout amount p l₁ l)
    (hs : l.Struck method) (cause : Error) :
    (do let _ ← (unstage t owner.uuid amount cashout.id p.receipt).attempt; refuse cause :
        Action _ WithdrawalOutcome).Ends
      (fun _ _ => True) (fun _ l' => l₁.PostsExactly l' → l₁.Restores l') l := by
  rw [ends_bind]
  refine (Early.unstage _ _ _ _).refuses.ends_attempt ?_
  by_cases hexact : p.IsExact
  · obtain ⟨x, y, hx, hxid, hy, hfits⟩ := h.back hexact
    refine Ends.mono (hs.ends_unstage hx hy hfits h.unused h.unhurried h.tried)
      (fun _ l' hback _ => ?_) fun _ _ => False.elim
    obtain ⟨hrows, q, hlog, hq⟩ := hback
    refine ⟨hrows.trans h.rows, .inr ⟨p, q, ?_, fun id => ?_⟩⟩
    · rw [hlog, h.log, List.append_assoc, List.singleton_append]
    · rw [h.delta, hq, hxid]
      split_ifs <;> ring
  -- The posting stays in the log, whatever becomes of its return.
  · have hrounded : ∀ l', l.Turns .zero l' → l₁.PostsExactly l' → l₁.Restores l' := by
      rintro l' ⟨ps, hps⟩ hposts
      have hlog : l'.memory.wallets.log = l₁.memory.wallets.log ++ p :: ps := by
        rw [hps.log, h.log, List.append_assoc, List.singleton_append]
      exact absurd (hposts.of_log hlog p List.mem_cons_self) hexact
    exact Ends.mono (bearsRequests_turns.unstage _ _ _ _) (fun _ l' h' => hrounded l' h'.1)
      fun _ l' h' _ => hrounded l' h'

/-- **Setting funds aside and storing the row,** where one call fails. -/
theorem OnTime.ends_stage (ht : l₁.OnTime method) (hl : l.memory.Sound)
    (h : l.Granted c owner currency source cashout amount policy net l₁)
    (hnew : l₁.memory.OffersNewId) (fee : Decimal) :
    (stage t c owner currency source cashout amount net fee).Ends (fun _ _ => True)
      (fun _ l' => l₁.PostsExactly l' → l₁.Restores l') l₁ := by
  unfold stage
  rw [ends_bind]
  refine Ends.mono (ht.ends_setAside hl h hnew) (fun r l₂ hdone => ?_)
    fun _ l₂ hstop _ => hstop.restores
  obtain ⟨ht₂, p, rfl, hstaged⟩ := hdone
  rw [ends_bind]
  refine ht₂.ends_now fun now l₃ ht₃ hm₃ => ?_
  have hstaged := hstaged.of_memory hm₃
  rw [ends_bind, ends_attempt]
  refine ht₃.ends_ask (fun _ _ _ _ => trivial) (fun _ _ _ _ ha => ?_) fun _ l₄ _ hs hm => ?_
  -- The identifier is new, so the memory has no reason to refuse the row.
  · have hnone := hstaged.new
    simp only [Memory.answer, WithdrawalTable.insert, WithdrawalRequest.draft, hnone] at ha
    cases ha
  · exact ⟨fun cause _ => (hstaged.of_memory hm).ends_return hs cause, by rintro ⟨⟩⟩

theorem Early.grant (c : WithdrawalRequest) : Early True (Ledger.grant c) := by
  unfold Ledger.grant requirePolicy
  refine (Early.requireActive _).bind fun currency => (Early.requireOwner _).bind fun owner => ?_
  refine (Early.require _ _).bind fun _ => (Early.ofExcept _).bind fun amount => ?_
  refine ((Early.peek _ fun _ _ => rfl).bind fun _ => .orRefuse _ _).bind fun policy => ?_
  refine (Early.requireWallet _ _ _).bind fun source => (Early.orAbort trivial _).bind fun _ => ?_
  refine (Early.require _ _).bind fun _ => (Early.require _ _).bind fun _ => ?_
  refine (Early.orAbort trivial _).bind fun net => ?_
  exact (Early.findOrCreateWallet _ _ _).bind fun cashout => .pure _

/-- **A request,** where one call fails. -/
theorem OnTime.ends_requestWithdrawal (ht : l.OnTime method) (hl : l.memory.Sound)
    (hnew : l.memory.OffersNewId) (c : WithdrawalRequest) :
    (requestWithdrawal t c).Ends (fun _ _ => True)
      (fun _ l' => l.PostsExactly l' → l.Restores l') l := by
  rw [requestWithdrawal_eq, ends_bind]
  refine Ends.mono (ht.and (.grant c) (ends_grant c)) (fun g l₁ hg => ?_)
    fun _ l₁ hstop _ => hstop.1.unmoved.restores
  obtain ⟨hgranted, ht₁⟩ := hg
  have h₁ := hgranted.moved.unmoved
  refine Ends.mono (ht₁.ends_stage hl hgranted (hgranted.moved.offersNewId hnew) _)
    (fun _ _ => id) fun _ l₂ hstop hexact => h₁.then_restores (hstop ?_)
  rwa [PostsExactly, h₁.log]

end Returning

end Ledger

end WalletLedger
