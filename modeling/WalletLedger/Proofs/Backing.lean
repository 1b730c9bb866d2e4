/-
Open rows are backed by the cashout wallet that holds their funds.

All requests of one owner in one currency share one cashout wallet, so what is paid for one row is
taken from what stands there for the others. The invariant is therefore about the sum: what the
open rows stage in a wallet is at most what the wallet holds.

Between the calls of one service the two sides move apart, always in the same direction. Funds reach
the wallet before their row is stored; a row is claimed before its funds leave; a row that is put
back is put back only if nothing was posted for it. So the invariant is stated with what is to
spare (`Memory.Backed`), which is zero between operations: a claim sets free what the row staged, a
posting takes no more than was set free, and putting the row back uses up what nothing took.

Two things are assumed of the decimals. A request's amount without the fee is exact, or the row
would stage another amount than was moved; and the balances that postings record are exact. That a
row's staged amount is exact follows: the amount that was moved is a decimal that holds it
(`Decimal.add?_of_toRat`).
-/
import WalletLedger.Proofs.Decimal
import WalletLedger.Proofs.Runs
import Mathlib.Algebra.Notation.Lemmas

set_option autoImplicit false

namespace WalletLedger

open WalletLedger.Action

/-! ## 1. What open rows stage -/

instance (w : Withdrawal) : Decidable w.IsOpen := inferInstanceAs (Decidable (_ ∨ _))

/-- What a row stages in a wallet while it is open. -/
def Withdrawal.stagedIn (x : Int) (w : Withdrawal) : ℚ :=
  if w.walletId = x ∧ w.IsOpen then w.amount.toRat + w.appliedFee.toRat else 0

/-- **What all open rows stage in a wallet,** as an exact sum. -/
def WithdrawalTable.stagedIn (x : Int) (t : WithdrawalTable) : ℚ :=
  (t.rows.map (·.stagedIn x)).sum

/-- **An open row is a request's,** and one decimal holds what it stages. -/
structure Withdrawal.Regular (w : Withdrawal) : Prop where
  type : w.type = .onChain
  staged : ∃ s, w.staged? = some s ∧ s.toRat = w.amount.toRat + w.appliedFee.toRat ∧ 0 ≤ s.toRat

namespace Withdrawal

variable {v w : Withdrawal} {x : Int}

theorem stagedIn_of_closed (h : ¬w.IsOpen) : w.stagedIn x = 0 := by
  unfold stagedIn
  exact if_neg fun hw => h hw.2

theorem Regular.stagedIn_nonneg (h : w.Regular) : 0 ≤ w.stagedIn x := by
  obtain ⟨s, -, hs, hnonneg⟩ := h.staged
  unfold stagedIn
  split_ifs
  · rwa [← hs]
  · exact le_rfl

theorem Regular.of_same (h : w.Regular) (hv : v.Same w) : v.Regular := by
  refine ⟨hv.type.trans h.type, ?_⟩
  rw [hv.staged?, hv.amount, hv.appliedFee]
  exact h.staged

/-- Two open states of a row stage the same. -/
theorem Same.stagedIn (h : v.Same w) (hopen : v.IsOpen ↔ w.IsOpen) :
    v.stagedIn x = w.stagedIn x := by
  unfold Withdrawal.stagedIn
  rw [h.walletId, h.amount, h.appliedFee]
  simp only [hopen]

end Withdrawal

/-- Replacing a row changes the sum by what it stages before and after. -/
theorem WithdrawalTable.stagedIn_replace {t : WithdrawalTable} (hnodup : (t.rows.map (·.id)).Nodup)
    {u v : Withdrawal} (hu : t.find? v.id = some u) (x : Int) :
    (t.replace v).stagedIn x = t.stagedIn x - u.stagedIn x + v.stagedIn x := by
  have hid := find?_id hu
  have hsum := sum_map_update Withdrawal.id (·.stagedIn x) hnodup (mem_of_find? hu) fun _ => v
  rw [hid] at hsum
  exact hsum

/-- The balances that a posting records are exact. -/
def Posting.IsExact (p : Posting) : Prop :=
  p.source.balanceAfter.toRat = p.source.balanceBefore.toRat - p.source.amount.value.toRat ∧
    p.dest.balanceAfter.toRat = p.dest.balanceBefore.toRat + p.dest.amount.value.toRat

instance (p : Posting) : Decidable p.IsExact := inferInstanceAs (Decidable (_ ∧ _))

/-! ## 2. The invariant -/

/-- **A wallet is backed:** if it is a cashout wallet, it holds what the open rows stage in it, and
something to spare. -/
structure Memory.Backed (x : Int) (spare : ℚ) (m : Memory) : Prop where
  sound : m.Sound
  regular : ∀ w ∈ m.withdrawals.rows, w.IsOpen → w.Regular
  covered : (∀ p ∈ m.wallets.log, p.IsExact) → ∀ w, m.wallets.wallet? x = some w →
    w.kind = .cashout → m.withdrawals.stagedIn x + spare ≤ w.balance.toRat

namespace Memory.Backed

variable {x : Int} {spare : ℚ} {m m' : Memory}

theorem weaken (h : m.Backed x spare) {less : ℚ} (hle : less ≤ spare) : m.Backed x less := by
  refine ⟨h.sound, h.regular, fun hexact w hw hkind => ?_⟩
  have := h.covered hexact w hw hkind
  linarith

/-- Only the wallets, the log and the rows matter. -/
theorem congr (h : m.Backed x spare) (hsound : m'.Sound)
    (hwallets : m'.wallets.wallets = m.wallets.wallets) (hlog : m'.wallets.log = m.wallets.log)
    (hrows : m'.withdrawals = m.withdrawals) : m'.Backed x spare := by
  refine ⟨hsound, hrows ▸ h.regular, fun hexact w hw hkind => ?_⟩
  rw [hlog] at hexact
  rw [WalletTable.wallet?, hwallets] at hw
  rw [hrows]
  exact h.covered hexact w hw hkind

/-- No open row stages anything in a wallet that is not there. -/
theorem stagedIn_eq_zero (h : m.Backed x spare) (hx : m.wallets.wallet? x = none) :
    m.withdrawals.stagedIn x = 0 := by
  refine List.sum_eq_zero fun q hq => ?_
  obtain ⟨w, hw, rfl⟩ := List.mem_map.1 hq
  refine if_neg ?_
  rintro ⟨hid, hopen⟩
  obtain ⟨y, ⟨z, hz, -⟩, hy, -⟩ := h.sound.held w hw (h.regular w hw hopen).type
  rw [hy, hid, hx] at hz
  cases hz

/-- **Replacing a row** uses up what it stages more, and sets free what it stages less. -/
theorem replace (h : m.Backed x spare) {u v : Withdrawal}
    (hu : m.withdrawals.find? v.id = some u) (hsame : v.Same u) (hv : v.IsOpen → v.Regular) :
    (m.withWithdrawals (m.withdrawals.replace v)).Backed x
      (spare + u.stagedIn x - v.stagedIn x) := by
  refine ⟨(Change.rows ⟨u, hu, hsame⟩).sound h.sound, fun w hw hopen => ?_,
    fun hexact w hw hkind => ?_⟩
  · rcases Memory.mem_replace hw with hmem | ⟨rfl, -⟩
    · exact h.regular w hmem hopen
    · exact hv hopen
  · have hcovered := h.covered hexact w hw hkind
    show (m.withdrawals.replace v).stagedIn x + _ ≤ _
    rw [WithdrawalTable.stagedIn_replace h.sound.rowIds hu]
    linarith

/-- Storing a row uses up what it stages. -/
theorem insert (h : m.Backed x spare) {d : WithdrawalDraft} {now : Instant} {w : Withdrawal}
    {t : WithdrawalTable} (enters : m.Enters d) (hw : m.withdrawals.insert d now = .ok (w, t))
    (hreg : w.IsOpen → w.Regular) :
    (m.withWithdrawals t).Backed x (spare - w.stagedIn x) := by
  have hsound := (Change.row enters hw).sound h.sound
  obtain ⟨-, -, rfl⟩ := WithdrawalTable.insert_eq hw
  refine ⟨hsound, fun v hv hopen => ?_, fun hexact v hv hkind => ?_⟩
  · rcases List.mem_append.1 hv with hmem | hmem
    · exact h.regular v hmem hopen
    · rw [List.mem_singleton.1 hmem] at hopen ⊢
      exact hreg hopen
  · have hcovered := h.covered hexact v hv hkind
    simp only [Memory.withWithdrawals, WithdrawalTable.stagedIn, List.map_append,
      List.map_singleton, List.sum_append, List.sum_singleton] at hcovered ⊢
    linarith

/-- Of a wallet that is no cashout wallet nothing is asked. -/
theorem of_kind (h : m.Backed x spare) {w : Wallet} (hw : m.HasWallet w) (hid : w.id = x)
    (hkind : w.kind ≠ .cashout) (other : ℚ) : m.Backed x other := by
  refine ⟨h.sound, h.regular, fun _ v hv hcashout => absurd ?_ hkind⟩
  obtain ⟨y, hy, hsame⟩ := hw
  rw [hid, hv] at hy
  cases hy
  exact hsame.kind.trans hcashout

end Memory.Backed

/-- The effects that have no part in it: no balance of the wallet is edited, no cashout wallet is
posted to, and no row is opened or changed. -/
def Effect.Spares (x : Int) : Effect → Prop
  | .edit id => id ≠ x
  | .transfer access _ => access = .generic
  | .movement access _ => access = .generic
  | .row w => w.type = .manually
  | .rows => False
  | _ => True

theorem WalletKind.isGeneric_iff (k : WalletKind) : k.isGeneric = true ↔ k ≠ .cashout := by
  cases k <;> decide

/-- Without custody neither wallet is a cashout wallet, and any two others will do. -/
theorem Access.check_generic_iff {source dest : Wallet} :
    Access.generic.check source dest = .ok () ↔
      source.kind ≠ .cashout ∧ dest.kind ≠ .cashout := by
  rw [← WalletKind.isGeneric_iff, ← WalletKind.isGeneric_iff, ← Bool.and_eq_true, check]
  split_ifs with hboth
  · exact iff_of_true rfl hboth
  · exact iff_of_false nofun hboth

/-- A movement between generic wallets leaves the cashout wallets alone. -/
theorem WalletTable.Posts.cashout_of_generic {t t' : WalletTable} {mv : Movement} {p : Posting}
    (h : t.Posts .generic mv p t') {x : Int} {w : Wallet} (hw : t'.wallet? x = some w)
    (hkind : w.kind = .cashout) : ∃ v, t.wallet? x = some v ∧ v.kind = .cashout ∧
      w.balance = v.balance := by
  obtain ⟨v, hv, hsame, hcases⟩ := h.of_wallet? hw
  have hvkind := hsame.kind.trans hkind
  refine ⟨v, hv, hvkind, ?_⟩
  cases h with
  | made source dest _ _ _ _ _ hsource hdest allowed =>
    obtain ⟨hs, hd⟩ := Access.check_generic_iff.1 allowed
    -- A cashout wallet is neither the source nor the destination.
    rcases hcases with ⟨rfl, -⟩ | ⟨rfl, -⟩ | ⟨-, -, heq⟩
    · rw [hsource] at hv
      cases hv
      exact absurd hvkind hs
    · rw [hdest] at hv
      cases hv
      exact absurd hvkind hd
    · exact heq

theorem Memory.Backed.generic {x : Int} {spare : ℚ} {m : Memory} (hm : m.Backed x spare)
    {mv : Movement} {p : Posting} {t : WalletTable} (h : m.wallets.Posts .generic mv p t)
    {m' : Memory} (hsound : m'.Sound) (hwallets : m'.wallets = t)
    (hrows : m'.withdrawals = m.withdrawals) : m'.Backed x spare := by
  refine ⟨hsound, hrows ▸ hm.regular, fun hexact w hw hkind => ?_⟩
  rw [hwallets] at hw hexact
  obtain ⟨v, hv, hvkind, hbalance⟩ := h.cashout_of_generic hw hkind
  rw [hrows, hbalance]
  refine hm.covered (fun q hq => hexact q ?_) v hv hvkind
  rw [h.log]
  exact List.mem_append_left _ hq

/-- **Every write that has no part in it keeps a wallet backed.** -/
theorem Change.backed {x : Int} {m m' : Memory} {e : Effect} (he : e.Spares x) (h : Change m e m')
    (hm : m.Backed x 0) : m'.Backed x 0 := by
  have hsound := h.sound hm.sound
  have hwallets := h.wallets
  have hlog := h.log
  cases h with
  | @wallet owner initial kind v _ _ h =>
    obtain ⟨-, hneg, -, hv, rfl⟩ := WalletTable.createWallet_eq h
    refine ⟨hsound, hm.regular, fun hexact w hw hkind => ?_⟩
    simp only [Memory.withWallets, WalletTable.wallet?, List.find?_append,
      Option.or_eq_some_iff] at hw
    rcases hw with hw | ⟨hnone, hw⟩
    · exact hm.covered hexact w hw hkind
    -- A wallet that was not there before has nothing staged in it, whatever it is opened with.
    · have hwv : w = v := List.mem_singleton.1 (List.mem_of_find?_eq_some hw)
      rw [hwv, hv]
      show m.withdrawals.stagedIn x + 0 ≤ initial.value.toRat
      rw [hm.stagedIn_eq_zero hnone, add_zero]
      exact (Decimal.isNegative_eq_false_iff _).1 hneg
  | @edit v _ balance held h =>
    refine ⟨hsound, hm.regular, fun hexact w hw hkind => ?_⟩
    have hne : x ≠ (v.write balance).walletId := Ne.symm he
    rw [Memory.withWallets, WalletTable.wallet?_write_of_ne hne] at hw
    exact hm.covered hexact w hw hkind
  | transfer h _ _ =>
    cases he
    exact hm.generic h hsound rfl rfl
  | movement h =>
    cases he
    exact hm.generic h hsound rfl rfl
  | @row d now v _ enters h =>
    obtain ⟨-, hv, -⟩ := WithdrawalTable.insert_eq h
    have hclosed : ¬v.IsOpen := by
      cases enters with
      | requested _ _ _ _ _ _ _ _ _ _ _ type =>
        rw [hv] at he
        exact absurd (type.symm.trans he) (by decide)
      | manually _ _ status _ =>
        have hdone : v.status = .done := by
          rw [hv]
          exact status
        unfold Withdrawal.IsOpen
        rw [hdone]
        decide
    have hinsert := hm.insert enters h fun hopen => absurd hopen hclosed
    rw [Withdrawal.stagedIn_of_closed hclosed, sub_zero] at hinsert
    exact hinsert
  | rows => exact he.elim
  | _ => exact hm.congr hsound (hwallets id) (hlog id).1 rfl

/-! ## 3. Moving funds in and out -/

namespace Ledger

variable {l l' : Ledger (Faulty Memory)} {t : Terms} {x : Int} {spare : ℚ}

theorem Still.backed (h : l.Still l') (hl : l.memory.Backed x spare) :
    l'.memory.Backed x spare := h.memory ▸ hl

/-- Waiting leaves a wallet backed, whatever there is to spare. -/
theorem Waits.backed (h : l.Waits l') (hl : l.memory.Backed x spare) :
    l'.memory.Backed x spare := by
  have hsound := Evolves.sound h hl.sound
  obtain ⟨n, hn⟩ := h.memory
  rw [hn] at hsound ⊢
  exact hl.congr hsound rfl rfl rfl

/-- **A posting takes its amount from what there is to spare in the source,** and adds it to what
there is in the destination. -/
theorem Posted.backed {access : Access} {mv : Movement} {p : Posting}
    (h : l.Posted access mv p l') (hl : l.memory.Backed x spare) :
    l'.memory.Backed x (spare - (if mv.source.id = x then mv.sourceAmount.value.toRat else 0) +
      if mv.dest.id = x then mv.destAmount.value.toRat else 0) := by
  obtain ⟨table, hposts, hm⟩ := h.made
  have hsound : l'.memory.wallets.Sound := by
    rw [hm]
    exact hposts.sound hl.sound.wallets
  have hwallets : l'.memory.wallets = table := by rw [hm]; rfl
  have hrows : l'.memory.withdrawals = l.memory.withdrawals := by rw [hm]; rfl
  refine ⟨?_, hrows ▸ hl.regular, fun hexact w hw hkind => ?_⟩
  · refine hl.sound.withWallets hsound hrows fun y hy => ?_
    obtain ⟨z, hz, hyz⟩ := hy
    obtain ⟨u, hu, hzu⟩ := hposts.same_of_wallet? hz
    exact ⟨u, hwallets ▸ hu, hyz.trans hzu⟩
  · rw [hwallets] at hw hexact
    rw [hposts.log] at hexact
    obtain ⟨v, hv, hsame, hcases⟩ := hposts.of_wallet? hw
    have hcovered := hl.covered (fun q hq => hexact q (List.mem_append_left _ hq)) v hv
      (hsame.kind.trans hkind)
    obtain ⟨hsource, hdest⟩ := hexact p (List.mem_append_right _ (List.mem_singleton_self p))
    have hamounts : p.source.amount = mv.sourceAmount ∧ p.dest.amount = mv.destAmount := by
      cases hposts with
      | made => exact ⟨rfl, rfl⟩
    rw [hamounts.1] at hsource
    rw [hamounts.2] at hdest
    have hne : mv.source.id ≠ mv.dest.id := by
      cases hposts with
      | made _ _ _ _ _ _ checked => exact Movement.check_ne checked
    rw [hrows]
    -- The wallet is the source, the destination, or neither of them.
    rcases hcases with ⟨rfl, hbefore, hafter⟩ | ⟨rfl, hid, hbefore, hafter⟩ | ⟨hs, hd, hbalance⟩
    · rw [hafter, hsource, ← hbefore, if_pos rfl, if_neg hne.symm]
      linarith
    · rw [hafter, hdest, ← hbefore, if_neg hne, if_pos rfl]
      linarith
    · rw [hbalance, if_neg (Ne.symm hs), if_neg (Ne.symm hd)]
      linarith

/-! ## 4. Decisions -/

/-- The status that a decision gives to a row is not open. -/
theorem not_isOpen_of_decided {v : Withdrawal} {d : Decision} (h : v.status = d.status) :
    ¬v.IsOpen := by
  unfold Withdrawal.IsOpen
  rw [h]
  cases d <;> simp [Decision.status]

/-- **Between the claim and the posting** a row's funds are to spare. -/
structure Claimed (l : Ledger (Faulty Memory)) (x : Int) (w : Withdrawal) : Prop where
  harmless : l.Harmless
  backed : l.memory.Backed x (w.stagedIn x)
  claimed : ∃ v, l.memory.withdrawals.find? w.id = some v ∧ v.Same w ∧ ¬v.IsOpen

theorem Claimed.waits {w : Withdrawal} (h : l.Claimed x w) (hl : l.Waits l') : l'.Claimed x w := by
  refine ⟨hl.harmless h.harmless, hl.backed h.backed, ?_⟩
  rw [(hl.evolves (f := Effect.Quiet) .conflict).withdrawals_of_quiet]
  exact h.claimed

/-- Giving up what there is to spare. -/
theorem Claimed.unspent {w : Withdrawal} (h : l.Claimed x w) (hw : w.Regular) :
    l.memory.Backed x 0 :=
  h.backed.weaken hw.stagedIn_nonneg

/-- **Putting the row back** uses up what there is to spare. -/
theorem Claimed.ends_revert {w : Withdrawal} (h : l.Claimed x w) (hw : w.Regular)
    (current : WithdrawalStatus) :
    (ask (.revert current w)).Ends (fun _ l' => l'.memory.Backed x 0)
      (fun _ l' => l'.memory.Backed x 0) l := by
  refine Ends.mono (Ledger.ends_revert h.harmless current w) (fun _ l' hl => ?_) fun _ l' hl =>
    hl.backed (h.unspent hw)
  rcases hl with hstill | ⟨-, hm⟩
  · exact hstill.backed (h.unspent hw)
  · obtain ⟨v, hv, hsame, hclosed⟩ := h.claimed
    have hback := h.backed.replace hv hsame.symm fun _ => hw
    rw [Withdrawal.stagedIn_of_closed hclosed, add_zero, sub_self] at hback
    rw [hm]
    exact hback

/-- **Posting for a claimed row,** or putting it back, leaves the wallet backed. -/
theorem Claimed.ends_postOrRevert {w : Withdrawal} (h : l.Claimed x w) (hw : w.Regular)
    {status : WithdrawalStatus} {mv : Movement} {staged : Decimal}
    (hstaged : w.staged? = some staged) (hid : mv.source.id = w.walletId) (hopen : w.IsOpen)
    (hsource : mv.sourceAmount.value = staged) (hdest : mv.destAmount = mv.sourceAmount) :
    (postOrRevert t w status mv).Ends
      (fun _ l' => l'.Harmless ∧ l'.memory.Backed x 0) (fun _ l' => l'.memory.Backed x 0) l := by
  have hvalue : staged.toRat = w.amount.toRat + w.appliedFee.toRat ∧ 0 ≤ staged.toRat := by
    obtain ⟨s, hs, hsum, hnonneg⟩ := hw.staged
    rw [hstaged] at hs
    cases hs
    exact ⟨hsum, hnonneg⟩
  refine Ledger.ends_postOrRevert h.harmless (fun r l₁ hreceived => ?_) (fun p l₁ waits _ => ?_)
    (fun cause l₁ waits => (h.waits waits).ends_revert hw status) fun l₁ waits =>
      (h.waits waits).unspent hw
  · cases hreceived with
    | replayed p _ _ _ waits =>
      have h₁ := h.waits waits
      exact ⟨h₁.harmless, h₁.unspent hw⟩
    | made p l₂ _ waits posted =>
      -- The posting takes out of the cashout wallet what the claimed row staged there.
      have h₂ := h.waits waits
      refine ⟨posted.harmless h₂.harmless, (posted.backed h₂.backed).weaken ?_⟩
      rw [hid, hdest, hsource, hvalue.1, Withdrawal.stagedIn]
      simp only [hopen, and_true, sub_self, zero_add]
      split_ifs
      · rw [← hvalue.1]
        exact hvalue.2
      · exact le_rfl
  · have h₁ := h.waits waits
    exact ⟨h₁.harmless, h₁.unspent hw⟩

/-- **Claiming a row and paying** keeps the wallet backed, however it ends. -/
theorem ends_transitionWithLeg_backed (hl : l.Harmless) (hb : l.memory.Backed x 0) {d : Decision}
    {w : Withdrawal} (hrow : l.memory.withdrawals.find? w.id = some w) (hopen : w.IsOpen)
    {cashout dest : Wallet} (hid : cashout.id = w.walletId) (update : WithdrawalUpdate)
    (category : Category) (description : Option String) (lost : Error) :
    (transitionWithLeg t w d.status update cashout dest category description lost).Ends
      (fun _ l' => l'.memory.Backed x 0) (fun _ l' => l'.memory.Backed x 0) l := by
  have hw : w.Regular := hb.regular w (WithdrawalTable.mem_of_find? hrow) hopen
  refine ends_transitionWithLeg hl hrow (fun _ l' h => h.backed hb) fun v l₁ hfollows hsame hstatus
    hm => ?_
  have hclosed := not_isOpen_of_decided hstatus
  have hclaimed : l₁.Claimed x w := by
    refine ⟨hfollows.harmless hl, ?_, v, ?_, hsame, hclosed⟩
    -- The row in the table is closed, so what it staged while it was open is to spare.
    · have hreplaced := hb.replace (by rw [hsame.id, hrow]) hsame fun hv => absurd hv hclosed
      rw [Withdrawal.stagedIn_of_closed hclosed, zero_add, sub_zero] at hreplaced
      rw [hm]
      exact hreplaced
    · rw [hm]
      exact WithdrawalTable.find?_replaced hrow hsame.id
  refine ⟨fun _ => hclaimed.unspent hw, fun staged hstaged => ?_⟩
  refine Ends.mono (hclaimed.ends_postOrRevert hw hstaged hid hopen rfl rfl)
    (fun posted l₂ h₂ => ?_) fun _ _ => id
  refine Ends.mono (ends_setFinal h₂.1 w.id posted.transferId) (fun _ l₃ hfinal => ?_)
    fun _ l₃ h₃ => h₃.backed h₂.2
  -- Telling the row its final posting leaves open what is open and closed what is closed.
  obtain ⟨u, hu, -, hm₃⟩ := hfinal
  rw [hm₃]
  have hsame' : Withdrawal.Same { u with finalTransaction := some posted.transferId } u :=
    ⟨rfl, rfl, rfl, rfl, rfl, rfl, rfl, rfl⟩
  have hreplaced := h₂.2.replace (by rw [hsame'.id, WithdrawalTable.find?_id hu, hu]) hsame'
    fun hu' => (h₂.2.regular u (WithdrawalTable.mem_of_find? hu) hu').of_same hsame'
  rw [hsame'.stagedIn Iff.rfl, zero_add, sub_self] at hreplaced
  exact hreplaced

/-- Getting ready has no part in the backing. -/
theorem Evolves.backed_of_quiet (h : l.Evolves Effect.Quiet l') (hl : l.memory.Backed x 0) :
    l'.memory.Backed x 0 := by
  refine h.preserves (fun m e m' he hc hm => hc.backed ?_ hm) hl
  rcases he with _ | _ | _ <;> trivial

theorem ends_decision_backed (hl : l.Harmless) (hb : l.memory.Backed x 0) (d : Decision) :
    (d.run t).Ends (fun _ l' => l'.memory.Backed x 0) (fun _ l' => l'.memory.Backed x 0) l := by
  refine ends_decision d (fun _ l' h => h.backed_of_quiet hb) fun w cashout dest l₁ h => ?_
  have hrow : l₁.memory.withdrawals.find? w.id = some w := by
    rw [h.moved.withdrawals_of_quiet, WithdrawalTable.find?_id h.row, h.row]
  exact ends_transitionWithLeg_backed (h.moved.harmless hl) (h.moved.backed_of_quiet hb) hrow
    h.isOpen (WalletTable.wallet?_id h.cashout) _ _ _ _

/-- Taking a row up leaves it open. -/
theorem ends_processWithdrawal (hl : l.Harmless) (hb : l.memory.Backed x 0) (id : Int) :
    (processWithdrawal id).Ends (fun _ l' => l'.memory.Backed x 0)
      (fun _ l' => l'.memory.Backed x 0) l := by
  unfold processWithdrawal
  have still : ∀ (_ : Stop) l', l.Still l' → l'.memory.Backed x 0 := fun _ _ h => h.backed hb
  refine (Still.refl l).next (within_requireWithdrawal id) still fun w l₁ h₁ hw => ?_
  refine h₁.next still_require still fun _ l₂ h₂ hstatus => ?_
  refine h₂.next within_now still fun now l₃ h₃ _ => ?_
  have hrow : l₃.memory.withdrawals.find? w.id = some w := by
    rw [h₃.memory, WithdrawalTable.find?_id hw, hw]
  have hb₃ := h₃.backed hb
  rw [ends_bind]
  refine Ends.mono (ends_transition (h₃.harmless hl) hrow .processing .none now)
    (fun o l₄ ho => ?_) fun _ l₄ h₄ => h₄.backed hb₃
  rw [ends_bind, ends_orRefuse]
  rcases ho with ⟨rfl, hstill⟩ | ⟨v, rfl, hsame, hv, -, hm⟩
  · refine ⟨fun v hv => ?_, fun _ => hstill.backed hb₃⟩
    cases hv
  · have hopen : w.IsOpen := Withdrawal.isOpen_of_status (by simp [hstatus])
    have hreplaced := hb₃.replace (by rw [hsame.id, hrow]) hsame fun _ =>
      (hb₃.regular w (WithdrawalTable.mem_of_find? hrow) hopen).of_same hsame
    rw [hsame.stagedIn (iff_of_true (.inr hv) hopen), zero_add, sub_self] at hreplaced
    rw [← hm] at hreplaced
    exact ⟨fun _ _ => hreplaced, fun hnone => by cases hnone⟩

/-! ## 5. Requests -/

/-- **Between the first posting of a request and its row** the amount is to spare. -/
structure SetAside (l : Ledger (Faulty Memory)) (x cashoutId : Int) (amount : Decimal) : Prop where
  harmless : l.Harmless
  nonneg : 0 ≤ amount.toRat
  backed : l.memory.Backed x (if cashoutId = x then amount.toRat else 0)

theorem SetAside.still {cashoutId : Int} {amount : Decimal} (h : l.SetAside x cashoutId amount)
    (hl : l.Still l') : l'.SetAside x cashoutId amount :=
  ⟨hl.harmless h.harmless, h.nonneg, hl.backed h.backed⟩

theorem SetAside.waits {cashoutId : Int} {amount : Decimal} (h : l.SetAside x cashoutId amount)
    (hl : l.Waits l') : l'.SetAside x cashoutId amount :=
  ⟨hl.harmless h.harmless, h.nonneg, hl.backed h.backed⟩

theorem SetAside.unspent {cashoutId : Int} {amount : Decimal} (h : l.SetAside x cashoutId amount) :
    l.memory.Backed x 0 :=
  h.backed.weaken (ite_nonneg h.nonneg le_rfl)

/-- **Returning the funds** takes no more than was set aside. -/
theorem SetAside.ends_unstage {cashoutId : Int} {amount : Amount}
    (h : l.SetAside x cashoutId amount.value) (ownerUuid : String) (staged : Receipt) :
    (unstage t ownerUuid amount cashoutId staged).Ends
      (fun _ l' => l'.memory.Backed x 0) (fun _ l' => l'.memory.Backed x 0) l := by
  unfold unstage
  have still : ∀ (_ : Stop) l', l.Still l' → l'.memory.Backed x 0 := fun _ _ hl =>
    (h.still hl).unspent
  refine (Still.refl l).next (within_requireOwner ownerUuid) still fun owner l₁ h₁ _ => ?_
  refine h₁.next (within_loadWallet cashoutId) still fun cashout l₂ h₂ hcashout => ?_
  refine h₂.next (within_requireWallet owner amount.currency .main) still fun main l₃ h₃ _ => ?_
  have h₃ := h.still h₃
  have hid : cashout.id = cashoutId := WalletTable.wallet?_id hcashout
  refine Ends.mono ends_post (fun r l₄ hreceived => ?_) fun stop l₄ hfails => ?_
  · cases hreceived with
    | replayed p _ _ _ waits => exact (h₃.waits waits).unspent
    | made p l₅ _ waits posted =>
      refine (posted.backed (h₃.waits waits).backed).weaken ?_
      show 0 ≤ _ - (if cashout.id = x then amount.value.toRat else 0) + _
      rw [hid, sub_self, zero_add]
      exact ite_nonneg h.nonneg le_rfl
  · exact (h₃.waits (hfails.waits h₃.harmless)).unspent

/-- **What is stored for a request** is a row that stages what was set aside. -/
theorem Granted.regular {c : WithdrawalRequest} {owner : Owner} {currency : Currency}
    {source cashout : Wallet} {amount : Amount} {policy : WithdrawalPolicy} {net : Decimal}
    {l₁ : Ledger (Faulty Memory)}
    (h : l.Granted c owner currency source cashout amount policy net l₁)
    (hexact : c.amount.AddsExactly policy.fee.neg) (hnonneg : 0 ≤ amount.value.toRat)
    {w : Withdrawal} {staged : Receipt}
    (hw : w.toWithdrawalDraft = c.draft owner currency cashout net policy.fee staged) :
    w.Regular ∧ w.stagedIn x = if cashout.id = x then amount.value.toRat else 0 := by
  have hvalue : amount.value = c.amount := congrArg Amount.value (checkedAmount_currency h.checked)
  have hrest := h.rest
  rw [hvalue] at hrest
  -- The net amount was not rounded, so it adds up with the fee to the amount again.
  have hnet := hexact net hrest
  rw [Decimal.toRat_neg, ← hvalue] at hnet
  have hsum : net.toRat + policy.fee.toRat = amount.value.toRat := by linarith
  obtain ⟨s, hs, hsval⟩ := Decimal.add?_of_toRat hsum
  have hamount : w.amount = net := by rw [hw]; rfl
  have hfee : w.appliedFee = policy.fee := by rw [hw]; rfl
  have hid : w.walletId = cashout.id := by rw [hw]; rfl
  have hstatus : w.status = .created := by rw [hw]; rfl
  refine ⟨⟨by rw [hw]; rfl, s, ?_, ?_, ?_⟩, ?_⟩
  · rw [Withdrawal.staged?, hamount, hfee, hs]
  · rw [hamount, hfee, hsval, hsum]
  · rw [hsval]
    exact hnonneg
  · have hopen : w.IsOpen := .inl hstatus
    rw [Withdrawal.stagedIn, hid, hamount, hfee, hsum]
    simp only [hopen, and_true]

/-- Returning the funds and refusing the request. -/
theorem SetAside.ends_refused {cashoutId : Int} {amount : Amount}
    (h : l.SetAside x cashoutId amount.value) (ownerUuid : String) (staged : Receipt)
    (cause : Error) :
    (do let _ ← (unstage t ownerUuid amount cashoutId staged).attempt; refuse cause :
      Action _ WithdrawalOutcome).Ends
      (fun _ l' => l'.memory.Backed x 0) (fun _ l' => l'.memory.Backed x 0) l := by
  rw [ends_bind, ends_attempt]
  exact Ends.mono (h.ends_unstage ownerUuid staged) (fun _ _ h' => (ends_refuse cause).2 h')
    fun _ _ h' => ⟨fun _ _ => (ends_refuse cause).2 h', fun _ => h'⟩

section

variable {c : WithdrawalRequest} {owner : Owner} {currency : Currency} {source cashout : Wallet}
  {amount : Amount} {policy : WithdrawalPolicy} {net : Decimal} {l₁ l₂ : Ledger (Faulty Memory)}
  {staged : Receipt}

/-- **Setting funds aside** is a posting of its own, as it bears no reference. -/
theorem Granted.setAside (hl : l.Harmless) (hb : l.memory.Backed x 0)
    (h : l.Granted c owner currency source cashout amount policy net l₁)
    (hreceived : l₁.Receives .custody
      (.ofAmount source cashout amount .withdrawRequest c.description none) staged l₂)
    (hmoved : l₁.Evolves (fun _ => True) l₂) : l₂.SetAside x cashout.id amount.value := by
  have hb₁ := h.moved.backed_of_quiet hb
  have hl₁ := h.moved.harmless hl
  cases hreceived with
  -- Without a reference no earlier posting is found.
  | replayed p _ earlier => cases earlier
  | made p l₃ _ waits posted =>
    have hposted := posted.backed (waits.backed hb₁)
    have hnonneg : 0 ≤ amount.value.toRat := by
      obtain ⟨table, hposts, -⟩ := posted.made
      cases hposts with
      | made _ _ _ _ _ _ checked =>
        exact ((Decimal.isPositive_iff _).1 (Movement.check_pos checked)).le
    refine ⟨posted.harmless (waits.harmless hl₁), hnonneg, ?_⟩
    by_cases hsource : source.id = x
    · -- The source is the owner's main wallet, of which nothing is asked.
      obtain ⟨hmem, hkey⟩ := hb.sound.wallets.key_of_find? h.from_main
      have hkind : source.kind = .main := congrArg WalletKey.kind hkey
      have hheld : l₂.memory.HasWallet source :=
        hmoved.hasWallet (h.moved.hasWallet
          ⟨source, hb.sound.wallets.wallet?_of_mem hmem, .refl source⟩)
      exact hposted.of_kind hheld hsource (by rw [hkind]; decide) _
    · have hspare : l₂.memory.Backed x (0 - (if source.id = x then amount.value.toRat else 0) +
          if cashout.id = x then amount.value.toRat else 0) := hposted
      rw [if_neg hsource, sub_zero, zero_add] at hspare
      exact hspare

/-- **Setting funds aside, storing the row, or returning the funds** keeps a wallet backed. -/
theorem Granted.ends_stage (hl : l.Harmless) (hb : l.memory.Backed x 0)
    (hexact : c.amount.AddsExactly policy.fee.neg)
    (h : l.Granted c owner currency source cashout amount policy net l₁) :
    (stage t c owner currency source cashout amount net policy.fee).Ends
      (fun _ l' => l'.memory.Backed x 0) (fun _ l' => l'.memory.Backed x 0) l₁ := by
  have hserved : l₁.Served
      (.ofAmount source cashout amount .withdrawRequest c.description none) :=
    served_ofAmount h.vouches _ _ _ _ _
  unfold stage
  rw [ends_bind]
  refine Ends.mono ends_post (fun staged l₂ hreceived => ?_) fun stop l₂ hfails => ?_
  · have hmoved : l₁.Evolves (fun _ => True) l₂ :=
      hreceived.evolves ⟨fun _ _ => trivial, fun _ _ => trivial⟩ hserved
    have haside := h.setAside hl hb hreceived hmoved
    refine within_now.and_then (fun now l₃ h₃ _ => ?_) fun _ l₃ h₃ => (haside.still h₃).unspent
    have haside₃ := haside.still h₃
    have henters : l₃.memory.Enters (c.draft owner currency cashout net policy.fee staged) :=
      h.enters hb.sound (hmoved.trans (.of_still h₃)) staged
    rw [ends_bind, ends_attempt]
    refine ends_ask (fun w l₄ _ ha => ?_) (fun _ _ _ _ hnothing => by cases hnothing)
      (fun stop l₄ h₄ => ⟨fun cause _ => (haside₃.still h₄).ends_refused owner.uuid staged cause,
        fun _ => (haside₃.still h₄).unspent⟩) fun _ _ _ _ hafter => absurd hafter haside₃.harmless
    obtain ⟨table, hinsert, hm⟩ := Memory.answering_eq ha
    obtain ⟨-, hw, -⟩ := WithdrawalTable.insert_eq hinsert
    have hdraft : w.toWithdrawalDraft = c.draft owner currency cashout net policy.fee staged := by
      rw [hw]
      rfl
    -- The row stages exactly what is to spare.
    obtain ⟨hregular, hstaged⟩ := h.regular (x := x) hexact haside.nonneg hdraft
    have hbacked := haside₃.backed.insert henters hinsert fun _ => hregular
    rw [hstaged, sub_self] at hbacked
    rw [ends_pure, hm]
    exact hbacked
  · exact (hfails.waits (h.moved.harmless hl)).backed (h.moved.backed_of_quiet hb)

end

theorem ends_requestWithdrawal_backed (hl : l.Harmless) (hb : l.memory.Backed x 0)
    {c : WithdrawalRequest}
    (hexact : ∀ policy, l.policies.find? c.destSymbol c.destNetwork = some policy →
      c.amount.AddsExactly policy.fee.neg) :
    (requestWithdrawal t c).Ends
      (fun _ l' => l'.memory.Backed x 0) (fun _ l' => l'.memory.Backed x 0) l := by
  refine ends_requestWithdrawal c (fun _ l' h => h.backed_of_quiet hb) ?_
  intro owner currency source cashout amount policy net l₁ h
  exact h.ends_stage hl hb (hexact policy h.terms)

end Ledger

/-! ## 6. Runs -/

/-- **What is asked of an operation:** the balance of the wallet is not edited, no fault is armed
that strikes after a call, and the amount of a request without its fee is exact. -/
def Operation.Backs (x : Int) (policies : WithdrawalPolicies) : Operation → Prop
  | .mutateBalance id _ => id ≠ x
  | .arm faults => ∀ f ∈ faults, f.mode ≠ .after
  | .request c => ∀ policy, policies.find? c.destSymbol c.destNetwork = some policy →
    c.amount.AddsExactly policy.fee.neg
  | _ => True

theorem Effect.Moves.spares {x : Int} {refs : Option String → Prop} {e : Effect}
    (h : e.Moves .generic refs) : e.Spares x := by
  cases h with
  | quiet _ h => rcases h with _ | _ | _ <;> trivial
  | transfer => exact rfl

namespace Operation

variable {x : Int} {policies : WithdrawalPolicies} {t : Terms} {l : Ledger (Faulty Memory)}

/-- The operations of the withdrawal flow, which reach cashout wallets. -/
def IsCustodial : Operation → Prop
  | .request _ => True
  | .process _ => True
  | .decide _ => True
  | _ => False

/-- The others have no part in the backing. -/
theorem Backs.spares {op : Operation} (hop : op.Backs x policies) (hc : ¬op.IsCustodial)
    {e : Effect} (he : op.May policies e) : e.Spares x := by
  cases op with
  | createWallet =>
    obtain ⟨w, rfl, -⟩ := he
    trivial
  | mutateBalance =>
    rcases he with rfl | rfl
    · trivial
    · exact hop
  | transfer => exact Effect.Moves.spares he
  | deposit => exact Effect.Moves.spares he
  | depositManually => exact Effect.Moves.spares he
  | advance => exact he.elim (fun h => h ▸ trivial) Effect.Moves.spares
  | recover => exact he.elim (fun h => h ▸ trivial) Effect.Moves.spares
  | withdrawManually =>
    rcases he with he | ⟨w, rfl, -, -, htype⟩
    · exact he.spares
    · exact htype
  | request => exact absurd trivial hc
  | process => exact absurd trivial hc
  | decide => exact absurd trivial hc
  | quote => exact he.elim
  | setPolicy => exact he.elim
  | arm => exact he.elim
  | elapse => exact he.elim
  | _ => exact he ▸ trivial

/-- **One operation** keeps a wallet backed. -/
theorem Backs.backed_after {op : Operation} (hop : op.Backs x l.policies) (hl : l.Harmless)
    (hb : l.memory.Backed x 0) : (op.after t l).memory.Backed x 0 := by
  by_cases hc : op.IsCustodial
  · cases op with
    | request c => exact runIn_discard (Ledger.ends_requestWithdrawal_backed hl hb hop)
    | process id => exact runIn_discard (Ledger.ends_processWithdrawal hl hb id)
    | decide d => exact runIn_discard (Ledger.ends_decision_backed hl hb d)
    | _ => exact hc.elim
  · exact (op.writes_after hb.sound).preserves
      (fun m e m' he hchange hm => hchange.backed (hop.spares hc he) hm) hb

theorem Backs.harmless_after {op : Operation} (hop : op.Backs x l.policies) (hl : l.Harmless)
    (hsound : l.memory.Sound) : (op.after t l).Harmless := by
  by_cases ho : op.IsOrdinary
  · exact (op.evolves_after hsound ho).harmless hl
  · cases op with
    | setPolicy => exact hl
    | arm faults =>
      rintro ⟨fault, hfault, hmode⟩
      exact hop fault hfault hmode
    | _ => exact absurd trivial ho

end Operation

namespace Small

/-- The owner makes two requests, and an operator accepts the first; the first posting of that fails
without effect. -/
def payouts : List Operation := [
  .registerCurrency gold,
  .createOwner "system" "system" "system",
  .createOwner "ann" "Ann" "1",
  .createWallet "system" ⟨"GOLD", units 1000⟩ .main,
  .createWallet "ann" ⟨"GOLD", units 50⟩ .main,
  .setPolicy "GOLD" "net" ⟨true, units 1, units 5⟩,
  .request (request 20),
  .request (request 10),
  .arm [⟨"commit_posting", .before, 0, 1⟩],
  .decide (.accept (acceptance 1)),
  .decide (.accept (acceptance 1))]

end Small

namespace Ledger

variable {t : Terms}

/-- **Open rows stay backed.** Whatever is done in whatever order, and whatever conflicts and
failures without effect the calls meet: a cashout wallet whose balance nobody edits holds what the
open rows stage in it, after every operation, as long as no sum had to be rounded. -/
theorem staged_le_balance {ids : IdSource} {clock : Instant} {ops : List Operation} {x : Int}
    (hops : Along t (fun l op => op.Backs x l.policies) (initial ids clock) ops)
    (hexact : ∀ p ∈ (Operation.runAll t (initial ids clock) ops).memory.wallets.log, p.IsExact)
    {w : Wallet}
    (hw : (Operation.runAll t (initial ids clock) ops).memory.wallets.wallet? x = some w)
    (hkind : w.kind = .cashout) :
    (Operation.runAll t (initial ids clock) ops).memory.withdrawals.stagedIn x ≤
      w.balance.toRat := by
  have hstart : (initial ids clock).Harmless ∧ (initial ids clock).memory.Backed x 0 := by
    refine ⟨(sure_of_unarmed rfl) _, Memory.sound_empty ids, ?_, ?_⟩
    · exact fun v hv => absurd hv List.not_mem_nil
    · exact fun _ v hv => by cases hv
  have hend := hops.preserves (I := fun l => l.Harmless ∧ l.memory.Backed x 0)
    (fun l op hop h => ⟨hop.harmless_after h.1 h.2.sound, hop.backed_after h.1 h.2⟩) hstart
  have hcovered := hend.2.covered hexact w hw hkind
  rwa [add_zero] at hcovered

/-- Two requests, one of which is accepted at the second try; the other stays open. -/
theorem staged_le_balance_small :
    ∃ w, (Operation.runAll Small.terms (initial Small.ids 0)
        Small.payouts).memory.wallets.wallet? 3 = some w ∧
      (Operation.runAll Small.terms (initial Small.ids 0)
        Small.payouts).memory.withdrawals.stagedIn 3 = 10 ∧
      (Operation.runAll Small.terms (initial Small.ids 0)
        Small.payouts).memory.withdrawals.stagedIn 3 ≤ w.balance.toRat := by
  obtain ⟨w, hw⟩ := Option.isSome_iff_exists.1
    (by decide +kernel : ((Operation.runAll Small.terms (initial Small.ids 0)
      Small.payouts).memory.wallets.wallet? 3).isSome)
  have hkinds : ∀ v ∈ (Operation.runAll Small.terms (initial Small.ids 0)
      Small.payouts).memory.wallets.wallets, v.id = 3 → v.kind = .cashout := by decide +kernel
  have hexact : ∀ p ∈ (Operation.runAll Small.terms (initial Small.ids 0)
      Small.payouts).memory.wallets.log, p.IsExact := by decide +kernel
  have hnet : ∀ (l : Ledger (Faulty Memory)) (amount : Int), amount = 20 ∨ amount = 10 →
      l.policies.find? "GOLD" "net" = some ⟨true, Small.units 1, Small.units 5⟩ →
      (Operation.request (Small.request amount)).Backs 3 l.policies := by
    intro l amount hamount hl policy hpolicy
    have heq := hl.symm.trans hpolicy
    cases heq
    have hfee : (Small.units 1).neg.OnGrid 0 := Decimal.onGrid_of_scale_le (by decide)
    rcases hamount with rfl | rfl
    · have hasked : (Small.units 20).OnGrid 0 := Decimal.onGrid_of_scale_le (by decide)
      exact Decimal.addsExactly_of_onGrid (by decide) hasked hfee (by decide +kernel)
    · have hasked : (Small.units 10).OnGrid 0 := Decimal.onGrid_of_scale_le (by decide)
      exact Decimal.addsExactly_of_onGrid (by decide) hasked hfee (by decide +kernel)
  have harm : ∀ f ∈ ([⟨"commit_posting", .before, 0, 1⟩] : List Fault), f.mode ≠ .after := by decide
  have hkind := hkinds w (WalletTable.mem_of_wallet? hw) (WalletTable.wallet?_id hw)
  refine ⟨w, hw, by decide +kernel, staged_le_balance ?_ hexact hw hkind⟩
  refine ⟨trivial, trivial, trivial, trivial, trivial, trivial,
    hnet _ 20 (.inl rfl) (by decide +kernel), hnet _ 10 (.inr rfl) (by decide +kernel), harm,
    trivial, trivial, trivial⟩

end Ledger

end WalletLedger
