/-
Transfers that go through.

`Delivery.lean` says how a transfer ends, and that it is refused may have many reasons. Where no
call fails, three conditions rule all of them out: the currency takes the amount, the sender's
wallet holds it, and there is room for it in the receiver's wallet (`Sure.ends_transfer_funded`).
Nothing has to be known of the receiver, who is created on the way, and whose wallet is opened.

The conditions are about accounts, because a wallet that is not there has no number. An account
holds what its wallet holds, or nothing (`Memory.held`). To compare what an account holds at two
times, it is enough to look at the wallet that it has at the later one, since an account keeps its
wallet (`Evolves.held_eq`).
-/
import WalletLedger.Proofs.Exactness

set_option autoImplicit false

namespace WalletLedger

open WalletLedger.Action

/-! ## 1. Accounts -/

theorem WalletTable.Sound.holding_nonneg {t : WalletTable} (h : t.Sound) (id : Int) :
    0 ≤ t.holding id := by
  unfold holding
  cases hw : t.wallet? id with
  | none => exact le_rfl
  | some w => exact (Decimal.isNegative_eq_false_iff _).1 (h.balances w (mem_of_wallet? hw))

namespace Memory

variable {m : Memory} {account account' : String × WalletKind} {symbol symbol' : String} {id : Int}

/-- **What an account holds in a currency;** an account without a wallet holds nothing. -/
def held (m : Memory) (account : String × WalletKind) (symbol : String) : ℚ :=
  (((m.wallets.owner? account.1).bind fun o => m.wallets.find? ⟨o.id, symbol, account.2⟩).map
    fun w => w.balance.toRat).getD 0

theorem Knows.held {uuid : String} {kind : WalletKind} {w : Wallet}
    (h : m.Knows uuid symbol kind w) : m.held (uuid, kind) symbol = w.balance.toRat := by
  obtain ⟨o, ho, hw⟩ := h
  rw [Memory.held, ho, Option.bind_some, hw]
  rfl

/-- Whoever holds something has a wallet. -/
theorem knows_of_held_pos (h : 0 < m.held account symbol) :
    ∃ w, m.Knows account.1 symbol account.2 w := by
  unfold held at h
  cases ho : m.wallets.owner? account.1 with
  | none => simp [ho] at h
  | some o =>
    cases hw : m.wallets.find? ⟨o.id, symbol, account.2⟩ with
    | none => simp [ho, hw] at h
    | some w => exact ⟨w, o, ho, hw⟩

theorem Files.held (h : m.Files account symbol id) :
    m.held account symbol = m.wallets.holding id := by
  obtain ⟨w, hw, rfl⟩ := h
  rw [WalletTable.holding, hw.wallet?]
  exact hw.held

theorem held_eq_zero (h : ∀ id, ¬m.Files account symbol id) : m.held account symbol = 0 := by
  unfold Memory.held
  cases ho : m.wallets.owner? account.1 with
  | none => rfl
  | some o =>
    cases hw : m.wallets.find? ⟨o.id, symbol, account.2⟩ with
    | none => rw [Option.bind_some, hw]; rfl
    | some w => exact absurd ⟨w, ⟨o, ho, hw⟩, rfl⟩ (h w.id)

/-- The wallet of an account tells whose it is, and in which currency. -/
theorem Knows.wallet {uuid : String} {kind : WalletKind} {w : Wallet} (hm : m.Sound)
    (h : m.Knows uuid symbol kind w) :
    w.ownerUuid = uuid ∧ w.kind = kind ∧ w.currency = symbol := by
  obtain ⟨o, ho, hw⟩ := h
  obtain ⟨hmem, hkey⟩ := hm.wallets.key_of_find? hw
  obtain ⟨howner, rfl⟩ := Ledger.hasOwner_of_owner? ho
  exact ⟨hm.wallets.ownerUuid_eq hmem howner (congrArg WalletKey.ownerId hkey),
    congrArg WalletKey.kind hkey, congrArg WalletKey.currency hkey⟩

/-- So no two accounts share a wallet, and none has one wallet for two currencies. -/
theorem Files.inj (hm : m.Sound) (h : m.Files account symbol id)
    (h' : m.Files account' symbol' id) : account = account' ∧ symbol = symbol' := by
  obtain ⟨w, hw, rfl⟩ := h
  obtain ⟨x, hx, hid⟩ := h'
  obtain rfl : w = x := Option.some.inj (hw.wallet?.symm.trans (hid ▸ hx.wallet?))
  obtain ⟨huuid, hkind, hsymbol⟩ := hw.wallet hm
  obtain ⟨huuid', hkind', hsymbol'⟩ := hx.wallet hm
  exact ⟨Prod.ext (huuid.symm.trans huuid') (hkind.symm.trans hkind'),
    hsymbol.symm.trans hsymbol'⟩

/-- **Nothing stands in the way of a transfer:** the kinds and the amount are accepted, the sender
has the amount, and the receiver has room for it. -/
structure Funds (m : Memory) (r : TransferRequest) : Prop where
  kinds : (r.senderKind ≠ .cashout && r.receiverKind ≠ .cashout) = true
  currency : ∃ c, m.currencies.find? r.symbol = some c ∧ c.isActive = true ∧
    c.checkedAmount r.amount = .ok ⟨r.symbol, r.amount⟩
  apart : (r.senderUuid, r.senderKind) ≠ (r.receiverUuid, r.receiverKind)
  funded : r.amount.toRat ≤ m.held (r.senderUuid, r.senderKind) r.symbol
  room : m.held (r.receiverUuid, r.receiverKind) r.symbol + r.amount.toRat < 2 ^ 96 - 1 / 2

/-- The wallets of such a transfer, wherever they are found to hold what they hold. -/
theorem Funds.fits {r : TransferRequest} {m' : Memory} (h : m.Funds r) (hm' : m'.Sound)
    {source dest : Wallet} (hsource : m'.Knows r.senderUuid r.symbol r.senderKind source)
    (hdest : m'.Knows r.receiverUuid r.symbol r.receiverKind dest)
    (hsender : source.balance.toRat = m.held (r.senderUuid, r.senderKind) r.symbol)
    (hreceiver : dest.balance.toRat = m.held (r.receiverUuid, r.receiverKind) r.symbol) :
    (Movement.ofAmount source dest ⟨r.symbol, r.amount⟩ r.category r.description r.ref).Fits
      .generic := by
  obtain ⟨c, -, -, ha⟩ := h.currency
  obtain ⟨-, hpos, -⟩ := Currency.checkedAmount_eq_ok_iff.1 ha
  obtain ⟨-, hskind, hscur⟩ := hsource.wallet hm'
  obtain ⟨-, hdkind, hdcur⟩ := hdest.wallet hm'
  have hne : source.id ≠ dest.id := fun hid =>
    h.apart (Files.inj hm' ⟨source, hsource, rfl⟩ ⟨dest, hdest, hid.symm⟩).1
  have hnonneg := (Decimal.isNegative_eq_false_iff _).1
    (hm'.wallets.balances dest (WalletTable.mem_of_wallet? hdest.wallet?))
  have hdebit : source.balance.toRat + r.amount.neg.toRat =
      source.balance.toRat - r.amount.toRat := by
    rw [Decimal.toRat_neg, sub_eq_add_neg]
  refine ⟨?_, ?_, ?_, ?_⟩
  · exact Movement.check_ofAmount ((Decimal.isPositive_iff _).2 hpos) hne hscur.symm hdcur.symm
  · have hkinds := h.kinds
    rw [← hskind, ← hdkind] at hkinds
    simp only [ne_eq, Bool.and_eq_true, decide_eq_true_eq] at hkinds
    exact Access.check_generic_iff.2 hkinds
  · refine Wallet.exists_balanceAfter_of_range hscur.symm ?_ ?_
    · exact hdebit ▸ sub_nonneg.2 (hsender ▸ h.funded)
    · refine (hdebit.trans_le (sub_le_self _ hpos.le)).trans_lt ?_
      exact (le_abs_self _).trans_lt source.balance.abs_toRat_lt
  · refine Wallet.exists_balanceAfter_of_range hdcur.symm ?_ ?_
    · exact add_nonneg hnonneg hpos.le
    · exact hreceiver ▸ h.room

end Memory

namespace Ledger

variable {l l₁ l' : Ledger (Faulty Memory)} {t : Terms} {f : Effect → Prop}
  {account : String × WalletKind} {symbol : String} {id : Int}

/-- **A wallet is not passed on:** the wallet that an account has at last was its own before, or it
was not there. -/
theorem Evolves.held_eq (h : l.Evolves f l') (hl : l.memory.Sound)
    (hid : l'.memory.Files account symbol id) : l.memory.held account symbol = l.holding id := by
  by_cases hfiles : ∃ j, l.memory.Files account symbol j
  · obtain ⟨j, hj⟩ := hfiles
    obtain rfl := (h.files hj).eq hid
    exact hj.held
  · rw [Memory.held_eq_zero fun j hj => hfiles ⟨j, hj⟩, holding, WalletTable.holding]
    cases hx : l.memory.wallets.wallet? id with
    | none => rfl
    | some x =>
      -- The wallet was there, so its owner was there and had it.
      have hmem := WalletTable.mem_of_wallet? hx
      obtain rfl := WalletTable.wallet?_id hx
      obtain ⟨w, hw, hwid⟩ := hid
      obtain ⟨y, hy, hsame⟩ := h.hasWallet ⟨x, hx, .refl x⟩
      obtain rfl : w = y := Option.some.inj (hw.wallet?.symm.trans (hwid ▸ hy))
      obtain ⟨o', ho', hfind⟩ := hw
      obtain ⟨-, hkey⟩ := (h.sound hl).wallets.key_of_find? hfind
      obtain ⟨huuid, -, -⟩ := Memory.Knows.wallet (h.sound hl) ⟨o', ho', hfind⟩
      obtain ⟨o, ho⟩ : ∃ o, l.memory.wallets.owner? account.1 = some o := by
        obtain ⟨z, hz, -, hzuuid⟩ := hl.wallets.owned x hmem
        refine Option.isSome_iff_exists.1 (List.find?_isSome.2 ⟨z, hz, ?_⟩)
        exact beq_iff_eq.2 (hzuuid.trans (hsame.ownerUuid.trans huuid))
      obtain ⟨o'', ho'', hoid⟩ := h.account ho
      obtain rfl : o' = o'' := Option.some.inj (ho'.symm.trans ho'')
      refine absurd ⟨x.id, x, ⟨o, ho, ?_⟩, rfl⟩ hfiles
      rw [← hoid, ← hkey, ← hsame.key]
      exact hl.wallets.find?_key_of_mem hmem

/-- What holds of the wallet that an account has at last, if it has one, holds of the account. -/
theorem Evolves.held_rel {R : ℚ → ℚ → Prop} (h : l.Evolves f l') (hl : l.memory.Sound)
    (hzero : R 0 0)
    (hrel : ∀ id, l'.memory.Files account symbol id → R (l'.holding id) (l.holding id)) :
    R (l'.memory.held account symbol) (l.memory.held account symbol) := by
  by_cases hfiles : ∃ id, l'.memory.Files account symbol id
  · obtain ⟨id, hid⟩ := hfiles
    rw [hid.held, h.held_eq hl hid]
    exact hrel id hid
  · rw [Memory.held_eq_zero fun id hid => hfiles ⟨id, hid⟩,
      Memory.held_eq_zero fun id hid => hfiles ⟨id, h.files hid⟩]
    exact hzero

/-- Getting ready leaves all accounts as they are. -/
theorem Evolves.held_of_quiet (h : l.Evolves Effect.Quiet l') (hl : l.memory.Sound) :
    l'.memory.held account symbol = l.memory.held account symbol :=
  h.held_rel hl rfl fun id _ => h.holding_of_quiet id

/-! ## 2. Getting ready -/

section

variable {α : Type} {m : Memory} {uuid : String} {kind : WalletKind}

theorem Succeeds.attempt {a : Action (Ledger (Faulty Memory)) α} {Q : α → Memory → Prop}
    (ha : Succeeds a Q m) : Succeeds a.attempt (fun r m' => ∃ v, r = .ok v ∧ Q v m') m := by
  intro l hl hm
  rw [ends_attempt]
  exact Ends.mono (ha l hl hm) (fun v _ hv => ⟨hv.1, v, rfl, hv.2⟩) fun _ _ => False.elim

theorem succeeds_report (e : Event) : Succeeds (report e) (fun _ m' => m' = m) m :=
  fun _ hl hm => ⟨hl, hm⟩

/-- A call that the memory accepts. -/
theorem succeeds_ask_of_isOk {c : Call α} (h : (m.answer c).isOk = true) :
    Succeeds (ask c) (fun _ _ => True) m := by
  cases ha : m.answer c with
  | ok r => exact (succeeds_ask ha).mono fun _ _ _ => trivial
  | error cause =>
    rw [ha] at h
    cases h

theorem succeeds_findOrCreateOwner (uuid : String) :
    Succeeds (findOrCreateOwner uuid) (fun _ _ => True) m := by
  have hread : Reads (ask (.findOwner uuid)) (m.wallets.owner? uuid) m := succeeds_ask rfl
  unfold findOrCreateOwner
  refine hread.bind ?_
  cases ho : m.wallets.owner? uuid with
  | some o => exact succeeds_pure trivial
  | none =>
    have hcreate : Succeeds (createOwner uuid "not set" "1") (fun _ _ => True) m := by
      unfold createOwner
      refine (succeeds_ask_of_isOk ?_).bind fun o m₁ _ =>
        (succeeds_report _).bind fun _ _ _ => succeeds_pure trivial
      rw [Memory.answer, WalletTable.createOwner, ho]
      rfl
    refine hcreate.attempt.bind fun r m₁ hr => ?_
    obtain ⟨o, rfl, -⟩ := hr
    exact succeeds_pure trivial

/-- An index that is in order has no key without a wallet, so there is nothing in the way of a
wallet that is missing. -/
theorem succeeds_findOrCreateWallet (hm : m.Sound) (owner : Owner) (symbol : String)
    (kind : WalletKind) : Succeeds (findOrCreateWallet owner symbol kind) (fun _ _ => True) m := by
  have hread : Reads (findWallet owner symbol kind) (m.wallets.find? ⟨owner.id, symbol, kind⟩) m :=
    succeeds_ask rfl
  unfold findOrCreateWallet
  refine hread.bind ?_
  cases hw : m.wallets.find? ⟨owner.id, symbol, kind⟩ with
  | some w => exact succeeds_pure trivial
  | none =>
    have hfree : m.wallets.keys.lookup ⟨owner.id, symbol, kind⟩ = none := by
      rw [Option.eq_none_iff_forall_ne_some]
      intro id hid
      obtain ⟨w, hmem, rfl, -⟩ := hm.wallets.keyed _ _ hid
      rw [WalletTable.find?, hid, Option.bind_some, hm.wallets.wallet?_of_mem hmem] at hw
      cases hw
    have hcreate : Succeeds (createWallet owner (.zero symbol) kind) (fun _ _ => True) m := by
      unfold createWallet
      refine succeeds_ask_of_isOk ?_
      show (Memory.answering m.withWallets
        (m.wallets.createWallet owner ⟨owner.id, symbol, kind⟩ (.zero symbol))).isOk = true
      have hinitial :
          WalletTable.checkInitial ⟨owner.id, symbol, kind⟩ (.zero symbol) = .ok () := by
        simp [WalletTable.checkInitial, Amount.zero, Decimal.isNegative, Decimal.zero]
      rw [WalletTable.createWallet, hinitial, hfree]
      rfl
    refine hcreate.attempt.bind fun r m₁ hr => ?_
    obtain ⟨w, rfl, -⟩ := hr
    exact succeeds_pure trivial

end

/-! ## 3. Transfers that go through -/

section

variable {r : TransferRequest} {uuid : String}

theorem Sure.ends_findOrCreateOwner (h : l.Sure) (uuid : String) :
    (findOrCreateOwner uuid).Ends
      (fun o l' => l.Evolves Effect.Quiet l' ∧ l'.memory.wallets.owner? uuid = some o)
      (fun _ _ => False) l :=
  Ends.mono ((within_findOrCreateOwner .owner uuid).and ((succeeds_findOrCreateOwner uuid).ends h))
    (fun _ _ hdone => hdone.1) fun _ _ hstop => hstop.2

theorem Sure.ends_findOrCreateWallet (h : l.Sure) (hl : l.memory.Sound) {o : Owner}
    (ho : l.memory.wallets.owner? uuid = some o) (symbol : String) (kind : WalletKind) :
    (findOrCreateWallet o symbol kind).Ends
      (fun w l' => l.Evolves Effect.Quiet l' ∧ l'.memory.Knows uuid symbol kind w)
      (fun _ _ => False) l := by
  have hfinds := findOrCreateWallet_finds (f := Effect.Quiet) (l := l) symbol kind
    (fun w hw => .wallet w hw) (hasOwner_of_owner? ho).1
  refine Ends.mono (hfinds.and ((succeeds_findOrCreateWallet hl o symbol kind).ends h))
    (fun w l' hdone => ⟨hdone.1.1, ?_⟩) fun _ _ hstop => hstop.2
  obtain ⟨x, hx, hid⟩ := hdone.1.1.account ho
  exact ⟨x, hx, hid ▸ hdone.1.2 hl⟩

/-- **A transfer that is funded goes through,** if it is tried at all. -/
theorem Sure.ends_transfer_funded (h : l.Sure) (hl : l.memory.Sound)
    (unhurried : l.memory.wallets.conflicts = 0)
    (hnew : r.ref.bind l.memory.wallets.byRef? = none) (hr : l.memory.Funds r)
    (ht : 0 < t.maxAttempts) : (transfer t r).Ends (fun _ _ => True) (fun _ _ => False) l := by
  obtain ⟨c, hc, active, ha⟩ := hr.currency
  obtain ⟨-, hpos, -⟩ := Currency.checkedAmount_eq_ok_iff.1 ha
  obtain ⟨source, hsource⟩ := Memory.knows_of_held_pos (hpos.trans_le hr.funded)
  have hsymbol := CurrencyTable.find?_symbol hc
  obtain ⟨sender, hsender, hfound⟩ := id hsource
  unfold transfer
  refine (answers_require hr.kinds).ends_bind.2 ?_
  refine (h.answers_requireActive hc active).ends_bind.2 ?_
  refine (answers_ofExcept ha).ends_bind.2 ?_
  refine (h.answers_requireOwner hsender).ends_bind.2 ?_
  rw [hsymbol]
  refine (h.answers_requireWallet hfound).ends_bind.2 ?_
  rw [ends_bind]
  refine Ends.mono (h.ends_findOrCreateOwner _) (fun receiver l₁ hdone => ?_) fun _ _ => id
  obtain ⟨h₁, hreceiver⟩ := hdone
  rw [ends_bind]
  refine Ends.mono ((h₁.sure h).ends_findOrCreateWallet (h₁.sound hl) hreceiver r.symbol
    r.receiverKind) (fun dest l₂ hdone => ?_) fun _ _ => id
  obtain ⟨h₂, hdest⟩ := hdone
  have h₂ := h₁.trans h₂
  have hsource := h₂.knows hsource
  have hfits := hr.fits (h₂.sound hl) hsource hdest (hsource.held.symm.trans (h₂.held_of_quiet hl))
    (hdest.held.symm.trans (h₂.held_of_quiet hl))
  refine (succeeds_post ⟨hfits, hsource.wallet?, hdest.wallet?, ?_, ?_⟩ ht).ends (h₂.sure h)
  · exact (h₂.byRef?_of_quiet _).trans hnew
  · exact h₂.unhurried nofun unhurried

end

/-! ## 4. What a delivery does to accounts -/

namespace Delivered

variable {r : TransferRequest} {p : Posting}

theorem amount_pos (h : l.Delivered r p l') : 0 < r.amount.toRat := by
  obtain ⟨l₁, mv, hprepared, -⟩ := h
  obtain ⟨c, -, -, ha⟩ := hprepared.currency
  exact (Currency.checkedAmount_eq_ok_iff.1 ha).2.1

/-- The sender had the amount. -/
theorem funded (h : l.Delivered r p l') (hl : l.memory.Sound) :
    r.amount.toRat ≤ l.memory.held (r.senderUuid, r.senderKind) r.symbol := by
  rw [h.moved.held_eq hl (h.moves hl).source]
  exact h.carried.afforded

/-- What is left of the sender's funds is a rounded difference. -/
theorem taken (h : l.Delivered r p l') (hl : l.memory.Sound) :
    ∃ x y : Decimal, l.memory.held (r.senderUuid, r.senderKind) r.symbol = x.toRat ∧
      l'.memory.held (r.senderUuid, r.senderKind) r.symbol = y.toRat ∧
      x.add? r.amount.neg = some y := by
  have hsource := (h.moves hl).source
  obtain ⟨⟨x, y, hx, hy, hdebit⟩, -⟩ := h.sums
  exact ⟨x, y, (h.moved.held_eq hl hsource).trans hx, hsource.held.trans hy, hdebit⟩

/-- The receiver has the amount now. -/
theorem received (h : l.Delivered r p l') (hl : l.memory.Sound) :
    r.amount.toRat ≤ l'.memory.held (r.receiverUuid, r.receiverKind) r.symbol := by
  obtain ⟨-, x, y, hx, hy, hcredit⟩ := h.sums
  rw [(h.moves hl).dest.held, ← holding, hy]
  refine Decimal.le_add? hcredit h.amount_pos.le (le_add_of_nonneg_left ?_)
  rw [← hx]
  exact hl.wallets.holding_nonneg _

/-- Nobody but the receiver has more than before. -/
theorem held_le (h : l.Delivered r p l') (hl : l.memory.Sound) {account : String × WalletKind}
    (hne : account ≠ (r.receiverUuid, r.receiverKind)) (symbol : String) :
    l'.memory.held account symbol ≤ l.memory.held account symbol := by
  have hmoves := h.moves hl
  refine h.moved.held_rel hl le_rfl fun id hid => ?_
  have hdest : id ≠ p.dest.walletId := by
    rintro rfl
    exact hne (hid.inj (h.moved.sound hl) hmoves.dest).1
  by_cases hsource : id = p.source.walletId
  · obtain ⟨⟨x, y, hx, hy, hdebit⟩, -⟩ := h.sums
    have hafforded := h.carried.afforded
    rw [hx] at hafforded
    rw [hsource, hx, hy]
    refine Decimal.add?_le hdebit ?_ ?_
    · rw [Decimal.toRat_neg, ← sub_eq_add_neg]
      exact sub_nonneg.2 hafforded
    · rw [Decimal.toRat_neg, ← sub_eq_add_neg]
      exact sub_le_self _ h.amount_pos.le
  · exact (h.carried.others id hsource hdest).le

/-- In any other currency all accounts have what they had. -/
theorem held_of_symbol_ne (h : l.Delivered r p l') (hl : l.memory.Sound) {symbol : String}
    (hne : symbol ≠ r.symbol) : l'.memory.held account symbol = l.memory.held account symbol := by
  have hmoves := h.moves hl
  have hl' := h.moved.sound hl
  refine h.moved.held_rel hl rfl fun id hid => h.carried.others id ?_ ?_
  · rintro rfl
    exact hne (hid.inj hl' hmoves.source).2
  · rintro rfl
    exact hne (hid.inj hl' hmoves.dest).2

end Delivered

end Ledger

end WalletLedger
