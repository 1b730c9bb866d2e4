/-
What a refused request for a payout leaves behind.

A request looks up and checks all that it can before it writes anything, the amount against the
balance among it. Then it makes sure that the owner has a cashout wallet, and moves the amount there.
The two checks of the balance differ. The first allows for the fee on top of the balance, although
the fee is part of the amount that is moved; the second one is that of the engine, and it comes when
the wallet is open. So an amount above the balance, by no more than the fee, passes the first and is
refused by the second, and an owner who had no cashout wallet has an empty one then
(`Ledger.Overreaches`).

Nothing else that refuses a request leaves a trace: what refuses it before has only looked, and what
the engine refuses after a wallet was opened is refused for the balance alone
(`refused_traceless_iff`).

The runs here are over the memory itself, in which no call fails.
-/
import WalletLedger.Proofs.Delivery
import WalletLedger.Proofs.FailedTransfers

set_option autoImplicit false

namespace WalletLedger

open WalletLedger.Action

/-! ## 1. A posting that nobody hurries -/

/-- **Why a movement is refused,** the first reason that there is. -/
inductive Movement.Refuses (mv : Movement) (access : Access) : Error → Prop
  | malformed {cause : Error} (h : mv.check = .error cause) : Refuses mv access cause
  | access {cause : Error} (h : access.check mv.source mv.dest = .error cause) :
      Refuses mv access cause
  | debit {cause : Error} (h : mv.source.balanceAfter mv.debit = .error cause) :
      Refuses mv access cause
  | credit {cause : Error} (h : mv.dest.balanceAfter mv.destAmount = .error cause) :
      Refuses mv access cause

/-- A movement in order is not refused. -/
theorem Movement.Fits.not_refuses {mv : Movement} {access : Access} (h : mv.Fits access)
    (cause : Error) : ¬mv.Refuses access cause := by
  obtain ⟨a, debit⟩ := h.debit
  obtain ⟨b, credit⟩ := h.credit
  rintro (hr | hr | hr | hr)
  · rw [h.checked] at hr; cases hr
  · rw [h.allowed] at hr; cases hr
  · rw [debit] at hr; cases hr
  · rw [credit] at hr; cases hr

/-- **A movement that can be tried at once:** its wallets are as it describes them, it has no
reference, and nobody is to be told to wait. -/
structure Memory.Describes (m : Memory) (mv : Movement) : Prop where
  source : m.wallets.wallet? mv.source.id = some mv.source
  dest : m.wallets.wallet? mv.dest.id = some mv.dest
  unnamed : mv.ref = none
  unhurried : m.wallets.conflicts = 0

namespace Ledger

variable {l : Ledger Memory} {t : Terms} {access : Access} {mv : Movement}

/-- What a posting leaves behind that is made at once. -/
structure Made (l : Ledger Memory) (receipt : Receipt) (l' : Ledger Memory) : Prop where
  id : receipt.transferId = l.stores.fresh.transfer
  rows : l'.stores.withdrawals = l.stores.withdrawals

/-- **The first attempt decides.** -/
theorem ends_tryPost_described (hmv : l.stores.Describes mv)
    (checked : mv.check = .ok ()) (allowed : access.check mv.source mv.dest = .ok ()) :
    (tryPost t access mv).Ends
      (fun o l' => mv.Fits access ∧ ∃ receipt, o = some receipt ∧ l.Made receipt l')
      (fun stop l' => l' = l ∧ ∃ cause, stop = .refused cause ∧ mv.Refuses access cause) l := by
  have hload : ∀ {id : Int} {w : Wallet}, l.stores.wallets.wallet? id = some w →
      (loadWallet id : Action (Ledger Memory) Wallet).Answers w l := fun hw =>
    (answers_ask (c := .findWalletById _) rfl).bind (answers_orRefuse hw)
  unfold tryPost
  refine (hload hmv.source).ends_bind.2 ((hload hmv.dest).ends_bind.2 ?_)
  refine (answers_ofExcept allowed).ends_bind.2 ?_
  refine (ends_bind _).2 ((ends_ofExcept _).2 ⟨fun a debit => ?_, fun cause h =>
    ⟨rfl, cause, rfl, .debit h⟩⟩)
  refine (ends_bind _).2 ((ends_ofExcept _).2 ⟨fun b credit => ?_, fun cause h =>
    ⟨rfl, cause, rfl, .credit h⟩⟩)
  have hfits : mv.Fits access := ⟨checked, allowed, ⟨a, debit⟩, b, credit⟩
  let p := mv.posting mv.source mv.dest a b l.stores.fresh.transfer (l.clock + 1)
  have hfree : p.ref.bind l.stores.wallets.byRef? = none := by
    rw [show p.ref = none from hmv.unnamed]
    rfl
  have hcommit := Memory.answer_commit_free hmv.unhurried hmv.source hmv.dest hfree a b
  show (ask (.commitPosting (mv.source.write a) (mv.dest.write b) p) >>= _).Ends _ _
    { l with clock := l.clock + 1 }
  rw [ends_bind, Ends, runIn_ask, show ({ l with clock := l.clock + 1 } : Ledger Memory).stores.answer
    (.commitPosting (mv.source.write a) (mv.dest.write b) p) = _ from hcommit]
  show (count t mv.category >>= fun _ => pure (some p.receipt)).Ends _ _ _
  rw [ends_bind, Ends, runIn_count]
  exact ⟨hfits, p.receipt, rfl, rfl, rfl⟩

/-- **A posting that nobody hurries** is made if the movement is in order, and refused for what is
not. -/
theorem ends_post_described (hmv : l.stores.Describes mv) (ht : 0 < t.maxAttempts) :
    (post t access mv).Ends (fun receipt l' => mv.Fits access ∧ l.Made receipt l')
      (fun stop l' => l' = l ∧ ∃ cause, stop = .refused cause ∧ mv.Refuses access cause) l := by
  unfold post
  refine (ends_bind _).2 ((ends_ofExcept _).2 ⟨fun _ checked => ?_, fun cause h =>
    ⟨rfl, cause, rfl, .malformed h⟩⟩)
  refine (ends_bind _).2 ((ends_ofExcept _).2 ⟨fun _ allowed => ?_, fun cause h =>
    ⟨rfl, cause, rfl, .access h⟩⟩)
  have hearlier : (earlierPosting mv : Action (Ledger Memory) (Option Posting)).Answers none l := by
    rw [earlierPosting, hmv.unnamed]
    exact answers_pure none
  refine hearlier.ends_bind.2 ?_
  obtain ⟨n, hn⟩ := Nat.exists_eq_succ_of_ne_zero (Nat.ne_of_gt ht)
  show (retry _ (tryPost t access mv) t.maxAttempts).Ends _ _ l
  rw [hn, retry, ends_bind]
  refine Ends.mono (ends_tryPost_described hmv checked allowed) ?_ fun _ _ h => h
  rintro o l' ⟨hfits, receipt, rfl, hmade⟩
  exact ⟨hfits, hmade⟩

/-! ## 2. What is checked before anything is written -/

/-- What a request was found to be about. -/
structure Vetted where
  owner : Owner
  currency : Currency
  source : Wallet
  amount : Amount
  policy : WithdrawalPolicy
  net : Decimal

/-- **All that a request looks up and checks** before it makes sure of the cashout wallet. -/
def vet (c : WithdrawalRequest) : Action (Ledger Memory) Vetted := do
  let currency ← requireActive c.currency
  let owner ← requireOwner c.uuid
  require .forbidden owner.canWithdraw
  let amount ← ofExcept (currency.checkedAmount c.amount)
  let policy ← requirePolicy c.destSymbol c.destNetwork
  let source ← requireWallet owner currency.symbol .main
  let reach ← orAbort (source.balance.add? policy.fee)
  require .exceedsBalance (amount.value ≤ reach)
  require .belowMinimum (policy.minimum ≤ amount.value && policy.fee < amount.value)
  let net ← orAbort (amount.value.sub? policy.fee)
  return { owner, currency, source, amount, policy, net }

/-- The movement to the cashout wallet. -/
abbrev staging (c : WithdrawalRequest) (v : Vetted) (cashout : Wallet) : Movement :=
  .ofAmount v.source cashout v.amount .withdrawRequest c.description none

/-- Moving the funds to the cashout wallet and storing the row. -/
def stow (t : Terms) (c : WithdrawalRequest) (v : Vetted) (cashout : Wallet) :
    Action (Ledger Memory) WithdrawalOutcome := do
  let staged ← post t .custody (staging c v cashout)
  let draft := c.draft v.owner v.currency cashout v.net v.policy.fee staged
  match ← (ask (.insertWithdrawal draft (← now))).attempt with
  | .ok row => return ⟨row.id, row.status⟩
  | .error cause =>
    let _ ← (unstage t v.owner.uuid v.amount cashout.id staged).attempt
    refuse cause

theorem requestWithdrawal_eq_vet (c : WithdrawalRequest) :
    requestWithdrawal t c = vet c >>= fun v =>
      findOrCreateWallet v.owner v.currency.symbol .cashout >>= stow t c v := by
  simp only [vet, bind_assoc, pure_bind]
  rfl

/-- **A request that passes all checks** that are made before anything is written. -/
structure Clears (l : Ledger Memory) (c : WithdrawalRequest) (v : Vetted) : Prop where
  registered : l.stores.currencies.find? c.currency = some v.currency
  active : v.currency.isActive = true
  asker : l.stores.wallets.owner? c.uuid = some v.owner
  permitted : v.owner.canWithdraw = true
  checked : v.currency.checkedAmount c.amount = .ok v.amount
  terms : (l.policies.find? c.destSymbol c.destNetwork).filter (·.enabled) = some v.policy
  source : l.stores.wallets.find? ⟨v.owner.id, v.currency.symbol, .main⟩ = some v.source
  /-- The fee is allowed for here on top of the balance. -/
  reach : ∃ reach, v.source.balance.add? v.policy.fee = some reach ∧ v.amount.value ≤ reach
  minimum : v.policy.minimum ≤ v.amount.value
  above : v.policy.fee < v.amount.value
  net : v.amount.value.sub? v.policy.fee = some v.net

theorem answers_required {α : Type} {q : Call (Option α)} {o : Option α} {v : α} {cause : Error}
    (h : l.stores.answer q = .ok (o, l.stores)) (hv : o = some v) :
    (ask q >>= orRefuse cause).Answers v l :=
  (answers_ask h).bind (answers_orRefuse hv)

theorem answers_orAbort {α : Type} {o : Option α} {v : α} (h : o = some v) :
    (orAbort o : Action (Ledger Memory) α).Answers v l := by
  rw [h]
  exact answers_pure v

theorem looks_orAbort {α : Type} (o : Option α) : Looks (orAbort o) (fun v => o = some v) l :=
  (ends_orAbort o).2 ⟨fun _ hv => ⟨rfl, hv⟩, fun _ => rfl⟩

theorem looks_requirePolicy (symbol network : String) :
    Looks (requirePolicy symbol network)
      (fun policy => (l.policies.find? symbol network).filter (·.enabled) = some policy) l :=
  (ends_orRefuse _ _).2 ⟨fun _ hv => ⟨rfl, hv⟩, fun _ => rfl⟩

theorem looks_vet (c : WithdrawalRequest) : Looks (vet c) (l.Clears c) l := by
  have untouched : ∀ _ : Stop, l = l := fun _ => rfl
  unfold Looks vet
  refine (looks_requireActive _).next untouched fun currency hcurrency => ?_
  refine (looks_requireOwner _).next untouched fun owner howner => ?_
  refine (looks_require _ _).next untouched fun _ permitted => ?_
  refine (looks_ofExcept _).next untouched fun amount hamount => ?_
  refine (looks_requirePolicy _ _).next untouched fun policy hpolicy => ?_
  refine (looks_requireWallet _ _ _).next untouched fun source hsource => ?_
  refine (looks_orAbort _).next untouched fun reach hreach => ?_
  refine (looks_require _ _).next untouched fun _ hwithin => ?_
  refine (looks_require _ _).next untouched fun _ hterms => ?_
  refine (looks_orAbort _).next untouched fun net hnet => ?_
  rw [Bool.and_eq_true, decide_eq_true_iff, decide_eq_true_iff] at hterms
  exact ⟨rfl, hcurrency.1, hcurrency.2, howner, permitted, hamount, hpolicy, hsource,
    ⟨reach, hreach, of_decide_eq_true hwithin⟩, hterms.1, hterms.2, hnet⟩

theorem Clears.answers {c : WithdrawalRequest} {v : Vetted} (h : l.Clears c v) :
    (vet c).Answers v l := by
  obtain ⟨reach, hreach, hwithin⟩ := h.reach
  have hterms : (v.policy.minimum ≤ v.amount.value && v.policy.fee < v.amount.value) = true := by
    rw [Bool.and_eq_true, decide_eq_true_iff, decide_eq_true_iff]
    exact ⟨h.minimum, h.above⟩
  have hactive : (requireActive c.currency : Action (Ledger Memory) Currency).Answers v.currency l :=
    (answers_required (q := .findCurrency _) rfl h.registered).bind
      ((answers_require h.active).bind (answers_pure _))
  have hpolicy : (requirePolicy c.destSymbol c.destNetwork :
      Action (Ledger Memory) WithdrawalPolicy).Answers v.policy l := answers_orRefuse h.terms
  unfold vet
  refine hactive.bind ((answers_required (q := .findOwner _) rfl h.asker).bind ?_)
  refine (answers_require h.permitted).bind ((answers_ofExcept h.checked).bind ?_)
  refine hpolicy.bind ((answers_required (q := .findWallet _) rfl h.source).bind ?_)
  refine (answers_orAbort hreach).bind ((answers_require (decide_eq_true hwithin)).bind ?_)
  exact (answers_require hterms).bind ((answers_orAbort h.net).bind (answers_pure v))

/-! ## 3. Moving the funds -/

/-- **What is posted is stored:** under a new identifier the row is not refused. -/
theorem ends_stow {c : WithdrawalRequest} {v : Vetted} {cashout : Wallet}
    (hmv : l.stores.Describes (staging c v cashout))
    (hnew : l.stores.withdrawals.byRequest? l.stores.fresh.transfer = none)
    (ht : 0 < t.maxAttempts) :
    (stow t c v cashout).Ends (fun _ _ => (staging c v cashout).Fits .custody)
      (fun stop l' => l' = l ∧ ∃ cause, stop = .refused cause ∧
        (staging c v cashout).Refuses .custody cause) l := by
  unfold stow
  refine (ends_bind _).2 (Ends.mono (ends_post_described hmv ht) ?_ fun _ _ h => h)
  rintro staged l₁ ⟨hfits, hmade⟩
  have hfree : l₁.stores.withdrawals.byRequest? staged.transferId = none := by
    rw [hmade.rows, hmade.id]
    exact hnew
  refine (ends_bind _).2 ?_
  show (Action.attempt (ask (.insertWithdrawal _ (l₁.clock + 1))) >>= _).Ends _ _
    { l₁ with clock := l₁.clock + 1 }
  refine (ends_bind _).2 (ends_attempt.2 (ends_ask_memory (fun row m _ => hfits) fun cause h => ?_))
  change Memory.answering _ (l₁.stores.withdrawals.insert _ _) = .error cause at h
  rw [WithdrawalTable.insert, show l₁.stores.withdrawals.byRequest?
    (c.draft v.owner v.currency cashout v.net v.policy.fee staged).requestTransaction = none from
    hfree] at h
  cases h

end Ledger

/-! ## 4. Opening a wallet -/

namespace WalletTable

variable {t : WalletTable} {owner : Owner} {currency : String} {kind : WalletKind}

/-- The table with the wallet that is created for an owner who has none. -/
def opened (t : WalletTable) (owner : Owner) (currency : String) (kind : WalletKind) :
    WalletTable :=
  { t with
    wallets := t.wallets ++ [t.newWallet owner currency kind]
    keys := t.keys ++ [(⟨owner.id, currency, kind⟩, t.lastWalletId + 1)]
    lastWalletId := t.lastWalletId + 1 }

theorem Sound.wallet?_of_find? (h : t.Sound) {key : WalletKey} {w : Wallet}
    (hw : t.find? key = some w) : t.wallet? w.id = some w :=
  h.wallet?_of_mem (h.key_of_find? hw).1

/-- A wallet that is not there can be created. -/
theorem Sound.createWallet_missing (h : t.Sound)
    (missing : t.find? ⟨owner.id, currency, kind⟩ = none) :
    t.createWallet owner ⟨owner.id, currency, kind⟩ (.zero currency) =
      .ok (t.newWallet owner currency kind, t.opened owner currency kind) := by
  have hfree : t.keys.lookup ⟨owner.id, currency, kind⟩ = none := by
    cases hid : t.keys.lookup ⟨owner.id, currency, kind⟩ with
    | none => rfl
    | some id =>
      obtain ⟨w, hw, rfl, -⟩ := h.keyed _ id hid
      rw [find?, hid, Option.bind_some, h.wallet?_of_mem hw] at missing
      cases missing
  have hinitial : checkInitial ⟨owner.id, currency, kind⟩ (.zero currency) = .ok () := by
    show (if currency ≠ currency then _ else if Decimal.zero.isNegative = true then _ else _) = _
    rw [if_neg (not_not_intro rfl)]
    rfl
  rw [WalletTable.createWallet, hinitial]
  show (if (t.keys.lookup ⟨owner.id, currency, kind⟩).isSome then _ else _) = _
  rw [hfree]
  rfl

theorem Sound.opened (h : t.Sound) (ho : owner ∈ t.owners)
    (missing : t.find? ⟨owner.id, currency, kind⟩ = none) :
    (t.opened owner currency kind).Sound := by
  have hcreate := h.createWallet_missing missing
  exact h.createWallet ⟨owner, ho, rfl, rfl⟩ hcreate

end WalletTable

namespace Ledger

variable {l : Ledger Memory} {t : Terms} {owner : Owner} {currency : String} {kind : WalletKind}
  {c : WithdrawalRequest} {v : Vetted}

/-- The ledger with the wallet that is created for an owner who has none. -/
def opened (l : Ledger Memory) (owner : Owner) (currency : String) (kind : WalletKind) :
    Ledger Memory :=
  { l with stores := l.stores.withWallets (l.stores.wallets.opened owner currency kind) }

theorem runIn_findOrCreateWallet_missing (hl : l.stores.wallets.Sound)
    (missing : l.stores.wallets.find? ⟨owner.id, currency, kind⟩ = none) :
    (findOrCreateWallet owner currency kind).runIn l =
      (.ok (l.stores.wallets.newWallet owner currency kind), l.opened owner currency kind) := by
  have hcreate : l.stores.answer (.createWallet owner
      ⟨owner.id, (Amount.zero currency).currency, kind⟩ (.zero currency)) = _ :=
    congrArg (Memory.answering l.stores.withWallets) (hl.createWallet_missing missing)
  have hfind : (findWallet owner currency kind : Action (Ledger Memory) (Option Wallet)).Answers
      none l := answers_ask (c := .findWallet _) (by rw [← missing]; rfl)
  have hopen : (createWallet owner (.zero currency) kind).runIn l =
      (.ok (l.stores.wallets.newWallet owner currency kind), l.opened owner currency kind) := by
    unfold createWallet
    rw [runIn_ask, hcreate]
    rfl
  unfold findOrCreateWallet
  rw [runIn_bind, hfind]
  show (Action.attempt (createWallet owner (.zero currency) kind) >>= _).runIn l = _
  rw [runIn_bind, runIn_attempt_eq_ok.2 hopen]
  rfl

end Ledger

/-! ## 5. Funds that do not suffice -/

/-- A change that takes more than there is, is refused for that. -/
theorem Wallet.balanceAfter_short {w : Wallet} {change : Amount}
    (hcurrency : change.currency = w.currency) (hw : w.balance.isNegative = false)
    (hshort : w.balance.toRat + change.value.toRat < 0) :
    w.balanceAfter change = .error .insufficientFunds := by
  have hnonneg := (Decimal.isNegative_eq_false_iff _).1 hw
  have hrange : |w.balance.toRat + change.value.toRat| < 2 ^ 96 - 1 / 2 := by
    refine lt_of_le_of_lt ?_ change.value.abs_toRat_lt
    rw [abs_of_neg hshort, abs_of_neg (by linarith)]
    linarith
  obtain ⟨b, hb⟩ := Decimal.exists_add?_iff.2 hrange
  have hneg : b.isNegative = true := by
    refine Bool.not_eq_false _ ▸ fun hb' => ?_
    exact absurd (Decimal.nonneg_of_add? hb hb') (not_le.2 hshort)
  rw [Wallet.balanceAfter, if_neg (not_not_intro hcurrency), hb]
  simp only [hneg, if_true]

namespace Ledger

variable {l : Ledger Memory} {t : Terms} {c : WithdrawalRequest} {v : Vetted}

/-- **A request that overreaches:** it passes all checks, for more than the balance, and its owner
has no cashout wallet yet. -/
structure Overreaches (l : Ledger Memory) (c : WithdrawalRequest) (v : Vetted) : Prop
    extends l.Clears c v where
  short : v.source.balance < v.amount.value
  unopened : l.stores.wallets.find? ⟨v.owner.id, v.currency.symbol, .cashout⟩ = none

theorem Clears.amount (h : l.Clears c v) :
    v.amount.currency = v.currency.symbol ∧ 0 < v.amount.value.toRat := by
  obtain ⟨hamount, hpos, -⟩ := Currency.checkedAmount_eq_ok_iff.1 h.checked
  rw [hamount]
  exact ⟨rfl, hpos⟩

theorem Clears.mem_owners (h : l.Clears c v) : v.owner ∈ l.stores.wallets.owners :=
  List.mem_of_find?_eq_some h.asker

section Tables

variable {table : WalletTable} {cashout : Wallet}

/-- The movement is between two wallets of its currency. -/
theorem Clears.check_staging (h : l.Clears c v) (htable : table.Sound)
    (hsource : table.find? ⟨v.owner.id, v.currency.symbol, .main⟩ = some v.source)
    (hcashout : table.find? ⟨v.owner.id, v.currency.symbol, .cashout⟩ = some cashout) :
    (staging c v cashout).check = .ok () := by
  obtain ⟨hcurrency, hpos⟩ := h.amount
  have hskey := (htable.key_of_find? hsource).2
  have hdkey := (htable.key_of_find? hcashout).2
  refine Movement.check_ofAmount ((Decimal.isPositive_iff _).2 hpos) (fun hid => ?_)
    (hcurrency.trans (congrArg WalletKey.currency hskey).symm)
    (hcurrency.trans (congrArg WalletKey.currency hdkey).symm)
  -- One wallet is not of two kinds.
  have hsame := htable.wallet?_of_find? hcashout
  rw [← hid, htable.wallet?_of_find? hsource] at hsame
  cases hsame
  rw [hskey] at hdkey
  cases hdkey

theorem Clears.debit_short (h : l.Clears c v) (htable : table.Sound)
    (hsource : table.find? ⟨v.owner.id, v.currency.symbol, .main⟩ = some v.source)
    (short : v.source.balance < v.amount.value) :
    (staging c v cashout).source.balanceAfter (staging c v cashout).debit =
      .error .insufficientFunds := by
  obtain ⟨hmem, hkey⟩ := htable.key_of_find? hsource
  refine Wallet.balanceAfter_short (h.amount.1.trans (congrArg WalletKey.currency hkey).symm)
    (htable.balances _ hmem) ?_
  show v.source.balance.toRat + v.amount.value.neg.toRat < 0
  rw [Decimal.toRat_neg, ← sub_eq_add_neg, sub_neg]
  exact (Decimal.lt_iff _ _).1 short

theorem Clears.debit_covered (h : l.Clears c v) (htable : table.Sound)
    (hsource : table.find? ⟨v.owner.id, v.currency.symbol, .main⟩ = some v.source)
    (covered : ¬v.source.balance < v.amount.value) :
    ∃ b, (staging c v cashout).source.balanceAfter (staging c v cashout).debit = .ok b := by
  obtain ⟨hcurrency, hpos⟩ := h.amount
  rw [Decimal.lt_iff, not_lt] at covered
  have hsum : (staging c v cashout).source.balance.toRat + (staging c v cashout).debit.value.toRat =
      v.source.balance.toRat - v.amount.value.toRat := by
    show v.source.balance.toRat + v.amount.value.neg.toRat = _
    rw [Decimal.toRat_neg, sub_eq_add_neg]
  refine Wallet.exists_balanceAfter_of_range
    (hcurrency.trans (congrArg WalletKey.currency (htable.key_of_find? hsource).2).symm) ?_ ?_
  · rw [hsum]
    exact sub_nonneg.2 covered
  · rw [hsum]
    exact (sub_lt_self _ hpos).trans ((le_abs_self _).trans_lt v.source.balance.abs_toRat_lt)

/-- There is room for any amount in an empty wallet. -/
theorem Clears.credit_new (h : l.Clears c v)
    (hcashout : cashout = table.newWallet v.owner v.currency.symbol .cashout) :
    ∃ b, (staging c v cashout).dest.balanceAfter (staging c v cashout).destAmount = .ok b := by
  subst hcashout
  obtain ⟨hcurrency, hpos⟩ := h.amount
  have hsum : (table.newWallet v.owner v.currency.symbol .cashout).balance.toRat +
      v.amount.value.toRat = v.amount.value.toRat := by
    show Decimal.zero.toRat + _ = _
    rw [Decimal.toRat_zero, zero_add]
  exact Wallet.exists_balanceAfter_of_range hcurrency (hsum.symm ▸ hpos.le)
    (hsum.symm ▸ (le_abs_self _).trans_lt v.amount.value.abs_toRat_lt)

/-- **A movement for which there is room is refused for lack of funds** or not at all. -/
theorem Clears.refused (h : l.Clears c v) (htable : table.Sound)
    (hsource : table.find? ⟨v.owner.id, v.currency.symbol, .main⟩ = some v.source)
    (hcashout : table.find? ⟨v.owner.id, v.currency.symbol, .cashout⟩ = some cashout)
    (credit : ∃ b,
      (staging c v cashout).dest.balanceAfter (staging c v cashout).destAmount = .ok b)
    {cause : Error} (hrefuses : (staging c v cashout).Refuses .custody cause) :
    v.source.balance < v.amount.value ∧ cause = .insufficientFunds := by
  have checked := h.check_staging htable hsource hcashout
  by_cases short : v.source.balance < v.amount.value
  · have debit : (staging c v cashout).source.balanceAfter (staging c v cashout).debit =
        .error .insufficientFunds := h.debit_short htable hsource short
    refine ⟨short, ?_⟩
    cases hrefuses with
    | malformed hr => rw [checked] at hr; cases hr
    | access hr => cases hr
    | debit hr =>
      rw [debit] at hr
      cases hr
      rfl
    | credit hr =>
      obtain ⟨b, hb⟩ := credit
      rw [hb] at hr
      cases hr
  · have hfits : (staging c v cashout).Fits .custody :=
      ⟨checked, rfl, h.debit_covered htable hsource short, credit⟩
    exact absurd hrefuses (hfits.not_refuses cause)

end Tables

/-! ## 6. Refusals -/

variable {l₀ : Ledger (Faulty Memory)}

/-- What the funds are moved between when a wallet was opened for them. -/
theorem Clears.opened (h : l.Clears c v) (hl : l.stores.wallets.Sound)
    (unopened : l.stores.wallets.find? ⟨v.owner.id, v.currency.symbol, .cashout⟩ = none) :
    let table := l.stores.wallets.opened v.owner v.currency.symbol .cashout
    table.Sound ∧
      table.find? ⟨v.owner.id, v.currency.symbol, .main⟩ = some v.source ∧
      table.find? ⟨v.owner.id, v.currency.symbol, .cashout⟩ =
        some (l.stores.wallets.newWallet v.owner v.currency.symbol .cashout) := by
  intro table
  have hsound : table.Sound := hl.opened h.mem_owners unopened
  obtain ⟨hmem, hkey⟩ := hl.key_of_find? h.source
  refine ⟨hsound, ?_, ?_⟩
  · rw [← hkey]
    exact hsound.find?_key_of_mem (List.mem_append_left _ hmem)
  · exact hsound.find?_key_of_mem (List.mem_append_right _ (List.mem_singleton_self _))

/-- **Where nothing is in the way of a request** but the request itself: the tables are in order,
nobody is to be told to wait, the next posting has an identifier that no row refers to, and it is
tried at all. -/
structure Calm (t : Terms) (l : Ledger Memory) : Prop where
  sound : l.stores.Sound
  unhurried : l.stores.wallets.conflicts = 0
  unused : l.stores.withdrawals.byRequest? l.stores.fresh.transfer = none
  tried : 0 < t.maxAttempts

/-- **Once a wallet was opened** the balance alone can refuse the request. -/
theorem ends_stow_opened (hl : l.Calm t) (h : l.Clears c v)
    (unopened : l.stores.wallets.find? ⟨v.owner.id, v.currency.symbol, .cashout⟩ = none) :
    let l₁ := l.opened v.owner v.currency.symbol .cashout
    (stow t c v (l.stores.wallets.newWallet v.owner v.currency.symbol .cashout)).Ends
      (fun _ _ => ¬v.source.balance < v.amount.value)
      (fun stop l' => l' = l₁ ∧ v.source.balance < v.amount.value ∧
        stop = .refused .insufficientFunds) l₁ := by
  intro l₁
  obtain ⟨htable, hsource, hcashout⟩ := h.opened hl.sound.wallets unopened
  generalize hnew : l.stores.wallets.newWallet v.owner v.currency.symbol .cashout = cashout at *
  have hdescribes : l₁.stores.Describes (staging c v cashout) :=
    ⟨htable.wallet?_of_find? hsource, htable.wallet?_of_find? hcashout, rfl, hl.unhurried⟩
  refine Ends.mono (ends_stow hdescribes hl.unused hl.tried) (fun _ _ hfits short => ?_) ?_
  · obtain ⟨b, hb⟩ := hfits.debit
    rw [h.debit_short htable hsource short] at hb
    cases hb
  · rintro stop l' ⟨rfl, cause, rfl, hrefuses⟩
    obtain ⟨short, rfl⟩ := h.refused htable hsource hcashout (h.credit_new hnew.symm) hrefuses
    exact ⟨rfl, short, rfl⟩

theorem runIn_requestWithdrawal_overreaches (hl : l.Calm t) (h : l.Overreaches c v) :
    (requestWithdrawal t c).runIn l =
      (.error (.refused .insufficientFunds), l.opened v.owner v.currency.symbol .cashout) := by
  rw [requestWithdrawal_eq_vet, runIn_bind, h.toClears.answers]
  show (findOrCreateWallet _ _ _ >>= stow t c v).runIn l = _
  rw [runIn_bind, runIn_findOrCreateWallet_missing hl.sound.wallets h.unopened]
  show (stow t c v _).runIn _ = _
  have hends := ends_stow_opened hl h.toClears h.unopened
  generalize hrun : (stow t c v _).runIn (l.opened v.owner v.currency.symbol .cashout) = run
  obtain ⟨result, l'⟩ := run
  rw [Ends, hrun] at hends
  cases result with
  | ok outcome => exact absurd h.short hends
  | error stop => rw [hends.1, hends.2.2]

/-- A request that does not overreach leaves nothing behind when it is refused. -/
theorem ends_requestWithdrawal_refused (hl : l.Calm t) (h : ∀ v, ¬l.Overreaches c v) :
    (requestWithdrawal t c).Ends (fun _ _ => True) (fun _ l' => l' = l) l := by
  rw [requestWithdrawal_eq_vet]
  refine (looks_vet c).next (fun _ => rfl) fun v hclears => ?_
  cases hfound : l.stores.wallets.find? ⟨v.owner.id, v.currency.symbol, .cashout⟩ with
  | some cashout =>
    have hanswers : (findOrCreateWallet v.owner v.currency.symbol .cashout :
        Action (Ledger Memory) Wallet).Answers cashout l := by
      unfold findOrCreateWallet findWallet
      refine Answers.bind (v := some cashout) (answers_ask ?_) (answers_pure cashout)
      exact hfound ▸ rfl
    refine hanswers.ends_bind.2 ?_
    have hdescribes : l.stores.Describes (staging c v cashout) :=
      ⟨hl.sound.wallets.wallet?_of_find? hclears.source, hl.sound.wallets.wallet?_of_find? hfound,
        rfl, hl.unhurried⟩
    exact Ends.mono (ends_stow hdescribes hl.unused hl.tried) (fun _ _ _ => trivial)
      fun _ _ hstop => hstop.1
  | none =>
    rw [ends_bind, Ends, runIn_findOrCreateWallet_missing hl.sound.wallets hfound]
    exact Ends.mono (ends_stow_opened hl hclears hfound) (fun _ _ _ => trivial)
      fun _ _ hstop => absurd ⟨hclears, hstop.2.1, hfound⟩ (h v)

/-- **A request that is refused leaves no trace, unless it overreaches.** The tables of a reachable
state do not fail and nobody is to be told to wait. A refusal then leaves the ledger exactly as it
is, with its owners, wallets, rows, postings and counters, just if the request is not for more than
the balance, and for no more than the fee allows on top of it, by an owner without a cashout wallet.
If it is, it is refused for lack of funds, and the owner has an empty cashout wallet. -/
theorem refused_traceless_iff {l₀ : Ledger (Faulty Memory)} (h : l₀.Reachable t)
    (hstores : l.stores = l₀.memory) (unhurried : l.stores.wallets.conflicts = 0)
    (unused : l.stores.withdrawals.byRequest? l.stores.fresh.transfer = none)
    (tried : 0 < t.maxAttempts) (c : WithdrawalRequest) :
    ((∀ stop, ((requestWithdrawal t c).runIn l).1 = .error stop →
        ((requestWithdrawal t c).runIn l).2 = l) ↔ ∀ v, ¬l.Overreaches c v) ∧
      ∀ v, l.Overreaches c v → (requestWithdrawal t c).runIn l =
        (.error (.refused .insufficientFunds), l.opened v.owner v.currency.symbol .cashout) := by
  have hl : l.Calm t := ⟨hstores ▸ h.sound, unhurried, unused, tried⟩
  refine ⟨⟨fun htraceless v hover => ?_, fun hnone stop hstop => ?_⟩,
    fun v => runIn_requestWithdrawal_overreaches hl⟩
  · have hrun := runIn_requestWithdrawal_overreaches hl hover
    have hsame := htraceless _ (congrArg Prod.fst hrun)
    rw [hrun] at hsame
    have hwallets : l.stores.wallets.wallets ++
        [l.stores.wallets.newWallet v.owner v.currency.symbol .cashout] =
          l.stores.wallets.wallets := congrArg (·.stores.wallets.wallets) hsame
    exact List.cons_ne_nil _ _ (List.append_right_eq_self.1 hwallets)
  · exact (ends_requestWithdrawal_refused hl hnone).of_error hstop

end Ledger

namespace Small

/-- The small ledger over stores that do not fail. -/
def unfailing : Ledger Memory := { Ledger.start ledger.memory 0 with policies := ledger.policies }

end Small

open WalletLedger.Small in
/-- **One gold more than there is,** at a fee of one gold: the request is refused, and the cashout
wallet is there. -/
theorem Ledger.refused_with_trace :
    let after := (requestWithdrawal terms (request 51)).runIn unfailing
    after.1 = .error (.refused .insufficientFunds) ∧
      after.2.stores.wallets.wallets =
        unfailing.stores.wallets.wallets ++ [⟨4, 2, "ann", "GOLD", .cashout, .zero, 0⟩] := by
  constructor <;> decide +kernel

open WalletLedger.Small in
/-- One gold more than there is overreaches; two gold more are refused at the first check. -/
theorem Ledger.refused_traceless_small :
    ledger.Reachable terms ∧ unfailing.stores = ledger.memory ∧
      (∃ v, unfailing.Overreaches (request 51) v) ∧
      (requestWithdrawal terms (request 52)).runIn unfailing =
        (.error (.refused .exceedsBalance), unfailing) := by
  have htheorem := refused_traceless_iff (l := unfailing) reachable rfl (by decide +kernel)
    (by decide +kernel) (by decide)
  refine ⟨reachable, rfl, ?_, ?_⟩
  · by_contra hnone
    have hstop : ((requestWithdrawal terms (request 51)).runIn unfailing).1 =
        .error (.refused .insufficientFunds) := by decide +kernel
    have hsame := (htheorem (request 51)).1.2 (not_exists.1 hnone) _ hstop
    have hwallets : ((requestWithdrawal terms (request 51)).runIn unfailing).2.stores.wallets ≠
        unfailing.stores.wallets := by decide +kernel
    exact hwallets (congrArg (·.stores.wallets) hsame)
  · have hstop : ((requestWithdrawal terms (request 52)).runIn unfailing).1 =
        .error (.refused .exceedsBalance) := by decide +kernel
    refine Prod.ext hstop ((htheorem (request 52)).1.2 (fun v hover => ?_) _ hstop)
    have hrun := congrArg Prod.fst ((htheorem (request 52)).2 v hover)
    rw [hstop] at hrun
    cases hrun

end WalletLedger
