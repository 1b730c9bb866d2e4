/-
The funds of a currency are conserved.

The supply of a currency is the sum of the balances of all its wallets, as rational numbers. Two
things could move it: a posting that takes something else than it gives, and a sum that is rounded.
The first cannot happen because a service posts one amount on both sides. The second is excluded by
a grid. If every balance of the currency is a multiple of `10 ^ (-p)` and the whole supply fits a
coefficient at `p` digits, then so does every sum of two balances that a posting computes, whatever
scales its operands have got by then; and a difference that is refused for want of funds was never
written. The amounts that are moved lie on the grid as well: a checked amount because of the check,
and what a row stages because its parts do, on which no bound is needed (`OnGrid.of_add?`).

`Conserving` is the invariant, `Change.conserving` its preservation by every kind of write, and
`supply_runAll` the result for runs.
-/
import WalletLedger.Proofs.Decimal
import WalletLedger.Proofs.Runs
import Mathlib.Algebra.BigOperators.Group.List.Basic
import Mathlib.Algebra.Order.BigOperators.Group.List

set_option autoImplicit false

namespace WalletLedger

/-! ## 1. Sums over wallets -/

section Sums

variable {g : Wallet → ℚ} {ws : List Wallet}

/-- One of several parts that are not negative is at most their sum. -/
theorem le_sum_of_mem (hg : ∀ x ∈ ws, 0 ≤ g x) {w : Wallet} (hw : w ∈ ws) :
    g w ≤ (ws.map g).sum := by
  refine List.single_le_sum (fun q hq => ?_) _ (List.mem_map_of_mem hw)
  obtain ⟨x, hx, rfl⟩ := List.mem_map.1 hq
  exact hg x hx

end Sums

/-- What a wallet holds of a currency. -/
def Wallet.balanceIn (currency : String) (w : Wallet) : ℚ :=
  if w.currency = currency then w.balance.toRat else 0

/-- **The supply of a currency:** what all wallets hold of it, as an exact sum. -/
def WalletTable.supply (currency : String) (t : WalletTable) : ℚ :=
  (t.wallets.map (·.balanceIn currency)).sum

namespace WalletTable

variable {t t' : WalletTable} {currency : String}

/-- A write of another currency's wallet leaves the supply alone. -/
theorem supply_write (ht : t.Sound) {w : Wallet} {balance : Decimal}
    (hw : t.wallet? w.id = some w) :
    (t.write (w.write balance)).supply currency =
      t.supply currency - w.balanceIn currency +
        if w.currency = currency then balance.toRat else 0 :=
  sum_map_update Wallet.id _ ht.walletIds (mem_of_wallet? hw) _

theorem Sound.balance_nonneg (ht : t.Sound) {w : Wallet} (hw : w ∈ t.wallets) :
    0 ≤ w.balance.toRat :=
  (Decimal.isNegative_eq_false_iff _).1 (ht.balances w hw)

/-- No wallet holds more than there is. -/
theorem Sound.balance_le_supply (ht : t.Sound) {w : Wallet} (hw : w ∈ t.wallets)
    (hcurrency : w.currency = currency) : w.balance.toRat ≤ t.supply currency := by
  have hnonneg : ∀ x ∈ t.wallets, 0 ≤ x.balanceIn currency := by
    intro x hx
    unfold Wallet.balanceIn
    split_ifs
    · exact ht.balance_nonneg hx
    · exact le_rfl
  have hle := le_sum_of_mem hnonneg hw
  rw [Wallet.balanceIn, if_pos hcurrency] at hle
  exact hle

end WalletTable

/-! ## 2. The invariant -/

/-- **A currency on its grid:** all balances of the currency and all amounts of its rows are
multiples of `10 ^ (-p)`, and its supply is `total`. -/
structure Memory.Conserving (currency : String) (p : Nat) (total : ℚ) (m : Memory) : Prop where
  sound : m.Sound
  precision : m.HasPrecision currency p
  balances : ∀ w ∈ m.wallets.wallets, w.currency = currency → w.balance.OnGrid p
  amounts : ∀ w ∈ m.withdrawals.rows, w.currency = currency →
    w.amount.OnGrid p ∧ w.appliedFee.OnGrid p
  supply : m.wallets.supply currency = total

/-- The effects that the invariant stands: no balance is edited, no movement comes from outside, a
wallet is opened empty, and a row is stored with a fee on the grid. -/
def Effect.Conserves (currency : String) (p : Nat) : Effect → Prop
  | .wallet w => w.currency = currency → w.balance.toRat = 0
  | .edit _ => False
  | .movement _ _ => False
  | .row w => w.currency = currency → w.appliedFee.OnGrid p
  | _ => True

namespace Memory.Conserving

variable {currency : String} {p : Nat} {total : ℚ} {m m' : Memory}

/-- Whatever is moved of the currency is on the grid. -/
theorem onGrid_of_vouches (hm : m.Conserving currency p total) {a : Amount} (ha : m.Vouches a)
    (hcurrency : a.currency = currency) : a.value.OnGrid p := by
  rcases ha with ⟨q, ⟨c, hc, hcq⟩, hscale⟩ | ⟨w, ⟨x, hx, hsame⟩, hw, hstaged⟩
  -- The amount was checked against the precision of the currency, and that does not change.
  · obtain ⟨d, hd, hdp⟩ := hm.precision
    rw [hcurrency, hd] at hc
    cases hc
    rw [hdp] at hcq
    rw [← hcq] at hscale
    exact Decimal.onGrid_of_normalize hscale
  -- The amount is the sum of a row's amount and its fee.
  · have hxcurrency : x.currency = currency := by rw [← hsame.currency, hw, hcurrency]
    obtain ⟨hamount, hfee⟩ := hm.amounts x (WithdrawalTable.mem_of_find? hx) hxcurrency
    rw [hsame.staged?] at hstaged
    exact Decimal.OnGrid.of_add? hamount hfee hstaged

/-- **A write of a balance that is on the grid.** -/
theorem write (hm : m.Conserving currency p total) {w : Wallet} {balance : Decimal}
    (hw : m.wallets.wallet? w.id = some w) (hneg : balance.isNegative = false)
    (hgrid : w.currency = currency → balance.OnGrid p) :
    (m.withWallets (m.wallets.write (w.write balance))).Conserving currency p
      (total - w.balanceIn currency + if w.currency = currency then balance.toRat else 0) := by
  refine ⟨?_, hm.precision, fun x hx hcurrency => ?_, hm.amounts, ?_⟩
  · exact hm.sound.withWallets (hm.sound.wallets.write hneg) rfl fun x hx => by
      obtain ⟨y, hy, hxy⟩ := hx
      obtain ⟨z, hz, hyz⟩ := WalletTable.same_of_wallet?_write (b := w.write balance) hy
      exact ⟨z, hz, hxy.trans hyz⟩
  · rcases WalletTable.mem_write hx with hmem | ⟨y, hy, hid, rfl⟩
    · exact hm.balances x hmem hcurrency
    -- Numbers are unique, so the wallet that was written is the one that was read.
    · have hyw : y = w := by
        have hfound := hm.sound.wallets.wallet?_of_mem hy
        rw [hid] at hfound
        exact Option.some.inj (hfound.symm.trans hw)
      rw [hyw] at hcurrency
      exact hgrid hcurrency
  · show (m.wallets.write (w.write balance)).supply currency = _
    rw [WalletTable.supply_write hm.sound.wallets hw, hm.supply]

/-- **A sum that is written** is exact if it fits, and the supply grows by what was added. -/
theorem write_add (hp : p ≤ 28) (hm : m.Conserving currency p total) {w : Wallet}
    {a balance : Decimal} (hw : m.wallets.wallet? w.id = some w) (hcurrency : w.currency = currency)
    (ha : a.OnGrid p) (hsum : w.balance.add? a = some balance) (hneg : balance.isNegative = false)
    (hfits : |w.balance.toRat + a.toRat| * 10 ^ p < 2 ^ 96) :
    (m.withWallets (m.wallets.write (w.write balance))).Conserving currency p
      (total + a.toRat) := by
  have hgrid := hm.balances w (WalletTable.mem_of_wallet? hw) hcurrency
  obtain ⟨x, hx, hxval⟩ := Decimal.add?_exact hp hgrid ha hfits
  obtain rfl : x = balance := Option.some.inj (hx.symm.trans hsum)
  have hwritten := hm.write hw hneg fun _ => hgrid.of_add? ha hx
  have htotal : total - w.balance.toRat + (w.balance.toRat + a.toRat) = total + a.toRat := by ring
  rw [Wallet.balanceIn, if_pos hcurrency, if_pos hcurrency, hxval, htotal] at hwritten
  exact hwritten

/-- A write of another currency's wallet does not matter. -/
theorem write_other (hm : m.Conserving currency p total) {w : Wallet} {balance : Decimal}
    (hw : m.wallets.wallet? w.id = some w) (hcurrency : w.currency ≠ currency)
    (hneg : balance.isNegative = false) :
    (m.withWallets (m.wallets.write (w.write balance))).Conserving currency p total := by
  have hwritten := hm.write hw hneg fun h => absurd h hcurrency
  rw [Wallet.balanceIn, if_neg hcurrency, if_neg hcurrency, sub_zero, add_zero] at hwritten
  exact hwritten

/-- The log, the references and the counters have no part in it. -/
theorem append (hm : m.Conserving currency p total) {t : WalletTable} (q : Posting)
    (hunused : q.ref.bind t.byRef? = none) (posted : Nat)
    (ht : m.wallets = t) :
    ({ m.withWallets (t.append q) with posted } : Memory).Conserving currency p total := by
  subst ht
  refine ⟨?_, hm.precision, hm.balances, hm.amounts, hm.supply⟩
  exact hm.sound.withWallets (hm.sound.wallets.append hunused) rfl fun _ hx => hx

/-- **What a posting computes is exact.** If the source is debited the funds were there, and no
other wallet holds more than the rest of the supply. -/
theorem posting (hp : p ≤ 28) (htotal : total * 10 ^ p < 2 ^ 96)
    (hm : m.Conserving currency p total) {access : Access} {mv : Movement} {q : Posting}
    {t : WalletTable} (h : m.wallets.Posts access mv q t) (even : mv.destAmount = mv.sourceAmount)
    (vouched : m.Vouches mv.sourceAmount) :
    ({ m.withWallets t with posted := m.posted + 1 } : Memory).Conserving currency p total := by
  cases h with
  | made source dest sourceAfter destAfter id createdAt checked hsource hdest _ debit credit
      unused =>
    obtain ⟨hscur, hsum, hsneg⟩ := Wallet.balanceAfter_eq debit
    obtain ⟨hdcur, hdsum, hdneg⟩ := Wallet.balanceAfter_eq credit
    rw [even] at hdcur hdsum
    have hsource' : m.wallets.wallet? source.id = some source := by
      rw [WalletTable.wallet?_id hsource, hsource]
    have hne : dest.id ≠ source.id := by
      rw [WalletTable.wallet?_id hsource, WalletTable.wallet?_id hdest]
      exact (Movement.check_ne checked).symm
    have hdest' : (m.wallets.write (source.write sourceAfter)).wallet? dest.id = some dest := by
      rw [WalletTable.wallet?_write_of_ne hne, WalletTable.wallet?_id hdest, hdest]
    have hsmem := WalletTable.mem_of_wallet? hsource
    have hdmem := WalletTable.mem_of_wallet? hdest
    have hsame : dest.currency = source.currency := hdcur.symm.trans hscur
    by_cases hcurrency : source.currency = currency
    · have hagrid := hm.onGrid_of_vouches vouched (hscur.trans hcurrency)
      have hpos := (Decimal.isPositive_iff _).1 (Movement.check_pos checked)
      -- The source had at least what is taken from it, and at most the supply.
      have hsum : source.balance.add? mv.sourceAmount.value.neg = some sourceAfter := hsum
      have henough := Decimal.nonneg_of_add? hsum hsneg
      have hle := hm.sound.wallets.balance_le_supply hsmem hcurrency
      rw [hm.supply] at hle
      have hfirst := hm.write_add hp hsource' hcurrency hagrid.neg hsum hsneg (by
        rw [abs_of_nonneg henough, Decimal.toRat_neg]
        exact lt_of_le_of_lt (mul_le_mul_of_nonneg_right (by linarith) (ten_pow_pos p).le) htotal)
      rw [Decimal.toRat_neg] at hfirst
      -- The destination holds at most the rest of it.
      have hrest := hfirst.sound.wallets.balance_le_supply
        (WalletTable.mem_of_wallet? hdest') (hsame.trans hcurrency)
      rw [hfirst.supply] at hrest
      have hdnonneg := hm.sound.wallets.balance_nonneg hdmem
      have hsecond := hfirst.write_add hp hdest' (hsame.trans hcurrency) hagrid hdsum hdneg (by
        rw [abs_of_nonneg (by linarith)]
        exact lt_of_le_of_lt (mul_le_mul_of_nonneg_right (by linarith) (ten_pow_pos p).le) htotal)
      rw [neg_add_cancel_right] at hsecond
      exact hsecond.append _ unused _ rfl
    · -- Neither wallet is one of the currency.
      have hother : ¬dest.currency = currency := fun h => hcurrency (hsame.symm.trans h)
      exact ((hm.write_other hsource' hcurrency hsneg).write_other hdest' hother hdneg).append _
        unused _ rfl

/-- Only the wallets and the rows matter. -/
theorem congr (hm : m.Conserving currency p total) (hsound : m'.Sound)
    (hprecision : m'.HasPrecision currency p) (hwallets : m'.wallets.wallets = m.wallets.wallets)
    (hrows : m'.withdrawals.rows = m.withdrawals.rows) : m'.Conserving currency p total := by
  refine ⟨hsound, hprecision, hwallets ▸ hm.balances, hrows ▸ hm.amounts, ?_⟩
  rw [← hm.supply, WalletTable.supply, WalletTable.supply, hwallets]

/-- What is known of a row before it is stored puts its amount on the grid. -/
theorem onGrid_of_enters (hm : m.Conserving currency p total) {d : WithdrawalDraft}
    (h : m.Enters d) (hcurrency : d.currency = currency) (hfee : d.appliedFee.OnGrid p) :
    d.amount.OnGrid p := by
  cases h with
  | requested amount _ vouched same net =>
    have hamount := hm.onGrid_of_vouches vouched (same.symm.trans hcurrency)
    exact hamount.of_add? hfee.neg net
  | manually vouched => exact hm.onGrid_of_vouches vouched hcurrency

end Memory.Conserving

/-- **Every write keeps a currency on its grid,** the effects that are excluded apart. -/
theorem Change.conserving {currency : String} {p : Nat} {total : ℚ} {m m' : Memory} {e : Effect}
    (hp : p ≤ 28) (htotal : total * 10 ^ p < 2 ^ 96) (he : e.Conserves currency p)
    (h : Change m e m') (hm : m.Conserving currency p total) : m'.Conserving currency p total := by
  have hsound := h.sound hm.sound
  have hprecision := h.hasPrecision hm.precision
  have hwallets := h.wallets
  cases h with
  | @wallet owner initial kind w _ _ h =>
    obtain ⟨-, -, -, -, rfl⟩ := WalletTable.createWallet_eq h
    refine ⟨hsound, hprecision, fun x hx hcurrency => ?_, hm.amounts, ?_⟩
    · rcases List.mem_append.1 hx with hmem | hmem
      · exact hm.balances x hmem hcurrency
      · rw [List.mem_singleton.1 hmem] at hcurrency ⊢
        exact ⟨0, by rw [he hcurrency, zero_mul, Int.cast_zero]⟩
    · have hzero : w.balanceIn currency = 0 := by
        unfold Wallet.balanceIn
        split_ifs with hcurrency
        · exact he hcurrency
        · rfl
      simp only [Memory.withWallets, WalletTable.supply, List.map_append, List.map_singleton,
        List.sum_append, List.sum_singleton, hzero, add_zero]
      exact hm.supply
  | edit => exact he.elim
  | movement => exact he.elim
  | transfer h even vouched => exact hm.posting hp htotal h even vouched
  | row enters h =>
    obtain ⟨-, hw, rfl⟩ := WithdrawalTable.insert_eq h
    refine ⟨hsound, hprecision, hm.balances, fun x hx hcurrency => ?_, hm.supply⟩
    rcases List.mem_append.1 hx with hmem | hmem
    · exact hm.amounts x hmem hcurrency
    · rw [List.mem_singleton.1 hmem] at hcurrency ⊢
      have hfee := he hcurrency
      rw [hw] at hcurrency hfee ⊢
      exact ⟨hm.onGrid_of_enters enters hcurrency hfee, hfee⟩
  | rows held =>
    obtain ⟨y, hy, hsame⟩ := held
    refine ⟨hsound, hprecision, hm.balances, fun x hx hcurrency => ?_, hm.supply⟩
    rcases Memory.mem_replace hx with hmem | ⟨rfl, -⟩
    · exact hm.amounts x hmem hcurrency
    · rw [hsame.amount, hsame.appliedFee]
      exact hm.amounts y (WithdrawalTable.mem_of_find? hy) (hsame.currency ▸ hcurrency)
  | _ => exact hm.congr hsound hprecision (hwallets id) rfl

/-! ## 3. Runs -/

/-- **The operations that conserve a currency.** Wallets of it are opened empty, no balance is
edited, and the policy that a request for it meets has a fee on the grid. -/
def Operation.Conserves (currency : String) (p : Nat) (policies : WithdrawalPolicies) :
    Operation → Prop
  | .createWallet _ initial _ => initial.currency = currency → initial.value.toRat = 0
  | .mutateBalance _ _ => False
  | .request c => c.currency = currency → ∀ policy,
    policies.find? c.destSymbol c.destNetwork = some policy → policy.fee.OnGrid p
  | _ => True

theorem Effect.Moves.conserves {currency : String} {p : Nat} {access : Access}
    {refs : Option String → Prop} {e : Effect} (h : e.Moves access refs) :
    e.Conserves currency p := by
  cases h with
  | quiet _ h =>
    cases h with
    | conflict => trivial
    | owner => trivial
    | wallet w hw =>
      intro _
      rw [hw, Decimal.toRat_zero]
  | transfer q _ => trivial

/-- Such an operation has only effects that conserve the currency. -/
theorem Operation.Conserves.effect {currency : String} {p : Nat} {policies : WithdrawalPolicies}
    {op : Operation} (hop : op.Conserves currency p policies) {e : Effect}
    (he : op.May policies e) : e.Conserves currency p := by
  cases op with
  | createWallet uuid initial kind =>
    obtain ⟨w, rfl, hbalance, hcurrency⟩ := he
    intro hw
    rw [hbalance]
    exact hop (hcurrency.symm.trans hw)
  | mutateBalance => exact hop.elim
  | transfer => exact Effect.Moves.conserves he
  | deposit => exact Effect.Moves.conserves he
  | depositManually => exact Effect.Moves.conserves he
  | advance => exact he.elim (fun h => h ▸ trivial) Effect.Moves.conserves
  | recover => exact he.elim (fun h => h ▸ trivial) Effect.Moves.conserves
  | decide => exact he.elim (fun h => h ▸ trivial) Effect.Moves.conserves
  | request c =>
    rcases he with he | ⟨w, policy, rfl, hpolicy, hcurrency, hfee⟩
    · exact he.conserves
    · intro hw
      rw [hfee]
      exact hop (hcurrency.symm.trans hw) policy hpolicy
  | withdrawManually c =>
    rcases he with he | ⟨w, rfl, -, hfee, -⟩
    · exact he.conserves
    · intro _
      rw [hfee]
      exact Decimal.onGrid_zero p
  | quote => exact he.elim
  | setPolicy => exact he.elim
  | arm => exact he.elim
  | elapse => exact he.elim
  | _ => exact he ▸ trivial

namespace Ledger

variable {t : Terms} {l : Ledger (Faulty Memory)} {currency : String} {p : Nat}

/-- **Conservation.** Let the balances of a currency be multiples of `10 ^ (-p)`, where `p` is its
precision, and the amounts of rows that are there already as well, and let the supply fit a
coefficient at `p` digits. Then no run of operations moves the supply, in whatever order they come,
however each of them ends, and whatever conflicts and failures its calls meet. -/
theorem supply_runAll (hl : Reachable t l) (hp : p ≤ 28)
    (hprecision : l.memory.HasPrecision currency p)
    (hbalances : ∀ w ∈ l.memory.wallets.wallets, w.currency = currency → w.balance.OnGrid p)
    (hrows : ∀ w ∈ l.memory.withdrawals.rows, w.currency = currency →
      w.amount.OnGrid p ∧ w.appliedFee.OnGrid p)
    (hsupply : l.memory.wallets.supply currency * 10 ^ p < 2 ^ 96) {ops : List Operation}
    (hops : Along t (fun l op => op.Conserves currency p l.policies) l ops) :
    (Operation.runAll t l ops).memory.wallets.supply currency =
      l.memory.wallets.supply currency := by
  have hstart : l.memory.Conserving currency p (l.memory.wallets.supply currency) :=
    ⟨hl.sound, hprecision, hbalances, hrows, rfl⟩
  -- Each operation keeps the invariant, as each of its writes does.
  refine (hops.preserves (I := fun l' => l'.memory.Conserving currency p
    (l.memory.wallets.supply currency)) (fun l' op hop h => ?_) hstart).supply
  exact (op.writes_after h.sound).preserves
    (fun m e m' he hc hm => hc.conserving hp hsupply (hop.effect he) hm) h

/-- A run with a conflict, a transfer to a new owner, a row that could not be stored, whose funds
were returned, and a payout. -/
theorem supply_runAll_small :
    (Operation.runAll Small.terms Small.ledger [.inject 1,
      .transfer (Small.transfer "ann" "bob" 10 none), .arm [⟨"withdraw_insert", .before, 0, 1⟩],
      .request (Small.request 20), .request (Small.request 20),
      .decide (.accept (Small.acceptance 1))]).memory.wallets.supply
        "GOLD" = Small.ledger.memory.wallets.supply "GOLD" ∧
    Small.ledger.memory.wallets.supply "GOLD" = 1050 := by
  have hsupply : Small.ledger.memory.wallets.supply "GOLD" = 1050 := by decide +kernel
  have hscale : ∀ w ∈ Small.ledger.memory.wallets.wallets, w.balance.scale ≤ 2 := by decide +kernel
  have hrows : Small.ledger.memory.withdrawals.rows = [] := by decide +kernel
  refine ⟨supply_runAll (p := 2) Small.reachable (by decide) ?_ ?_ ?_ ?_ ?_, hsupply⟩
  · exact ⟨Small.gold, by decide +kernel, rfl⟩
  · exact fun w hw _ => Decimal.onGrid_of_scale_le (hscale w hw)
  · rw [hrows]
    exact fun w hw => absurd hw List.not_mem_nil
  · rw [hsupply]
    norm_num
  · have hfee : ∀ l : Ledger (Faulty Memory),
        l.policies.find? "GOLD" "net" = some ⟨true, Small.units 1, Small.units 5⟩ →
        (Operation.request (Small.request 20)).Conserves "GOLD" 2 l.policies := by
      intro l hl _ policy hpolicy
      have heq := hl.symm.trans hpolicy
      cases heq
      exact Decimal.onGrid_of_scale_le (by decide)
    exact ⟨trivial, trivial, trivial, hfee _ (by decide +kernel), hfee _ (by decide +kernel),
      trivial, trivial⟩

end Ledger

end WalletLedger
