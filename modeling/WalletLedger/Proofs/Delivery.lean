/-
Transfers that are carried out, and how they are taken back.

Where no call fails, a transfer with a new reference has two endings (`Sure.ends_transfer`). It is
delivered, that is, one posting between the wallets of its two owners is at the end of the log; or
it was refused, and nothing happened but that owners and empty wallets may have been created.

What was delivered can be returned (`Delivered.ends_return`). The posting shows that both wallets
are there, that the currency is active and that the amount passes its checks, and none of that
changes while something else is refused in between. The two sums of the return are the balances from
before the delivery. Decimals that hold them exist, so if the delivery was not rounded its return is
not either, and it overdraws nothing.
-/
import WalletLedger.Proofs.Backing
import WalletLedger.Proofs.Rounding
import WalletLedger.Proofs.Sure

set_option autoImplicit false

namespace WalletLedger

open WalletLedger.Action

/-! ## 1. Wallets by their owners -/

/-- **The number of the wallet of an account,** which is an owner's uuid and a kind. -/
def Memory.Files (m : Memory) (account : String × WalletKind) (symbol : String) (id : Int) : Prop :=
  ∃ w, m.Knows account.1 symbol account.2 w ∧ w.id = id

/-- An account has one wallet in a currency. -/
theorem Memory.Files.eq {m : Memory} {account : String × WalletKind} {symbol : String} {i j : Int}
    (hi : m.Files account symbol i) (hj : m.Files account symbol j) : i = j := by
  obtain ⟨w, ⟨o, ho, hw⟩, rfl⟩ := hi
  obtain ⟨x, ⟨o', ho', hx⟩, rfl⟩ := hj
  obtain rfl : o = o' := Option.some.inj (ho.symm.trans ho')
  rw [Option.some.inj (hw.symm.trans hx)]

theorem Change.files {m m' : Memory} {e : Effect} (h : Change m e m')
    {account : String × WalletKind} {symbol : String} {id : Int}
    (hid : m.Files account symbol id) : m'.Files account symbol id := by
  obtain ⟨w, ⟨o, ho, hw⟩, rfl⟩ := hid
  obtain ⟨x, hx, hxo⟩ := h.account ho
  obtain ⟨w', hw', hsame⟩ := h.find? hw
  exact ⟨w', ⟨x, hx, hxo ▸ hw'⟩, hsame.id.symm⟩

/-- A wallet that is known is in the table as it is known. -/
theorem Memory.Knows.wallet? {m : Memory} {uuid symbol : String} {kind : WalletKind} {w : Wallet}
    (h : m.Knows uuid symbol kind w) : m.wallets.wallet? w.id = some w := by
  obtain ⟨o, -, hw⟩ := h
  obtain ⟨id, -, hfound⟩ := Option.bind_eq_some_iff.1 hw
  rw [WalletTable.wallet?_id hfound, hfound]

/-- The wallet is still known when its balance was written. -/
theorem Memory.Knows.of_wallet? {m m' : Memory} {uuid symbol : String} {kind : WalletKind}
    {w w' : Wallet} (h : m.Knows uuid symbol kind w)
    (howners : m'.wallets.owners = m.wallets.owners) (hkeys : m'.wallets.keys = m.wallets.keys)
    (hw' : m'.wallets.wallet? w.id = some w') : m'.Knows uuid symbol kind w' := by
  obtain ⟨o, ho, hw⟩ := h
  refine ⟨o, by rw [WalletTable.owner?, howners]; exact ho, ?_⟩
  obtain ⟨id, hid, hfound⟩ := Option.bind_eq_some_iff.1 hw
  rw [WalletTable.find?, hkeys, hid, Option.bind_some, ← hw', WalletTable.wallet?_id hfound]

/-- **What a posting moved:** an amount from the wallet of one account to that of another. -/
structure Posting.Moves (p : Posting) (m : Memory) (sender receiver : String × WalletKind)
    (amount : Amount) (ref : Option String) : Prop where
  source : m.Files sender amount.currency p.source.walletId
  dest : m.Files receiver amount.currency p.dest.walletId
  taken : p.source.amount = amount
  given : p.dest.amount = amount
  ref : p.ref = ref

/-! ## 2. What getting ready and posting leave alone -/

theorem Change.currencies {m m' : Memory} {e : Effect} (h : Change m e m') (he : e ≠ .currency) :
    m'.currencies = m.currencies := by
  cases h with
  | currency => exact absurd rfl he
  | _ => rfl

/-- Nobody is told to wait unless somebody asks for it. -/
theorem Change.unhurried {m m' : Memory} {e : Effect} (h : Change m e m') (he : e ≠ .pending)
    (hm : m.wallets.conflicts = 0) : m'.wallets.conflicts = 0 := by
  cases h with
  | conflict h =>
    obtain ⟨n, hn, -⟩ := WalletTable.takeConflict?_eq h
    exact absurd (hn.symm.trans hm) (Nat.succ_ne_zero n)
  | pending => exact absurd rfl he
  | owner h =>
    obtain ⟨-, -, rfl⟩ := WalletTable.createOwner_eq h
    exact hm
  | flags h =>
    obtain rfl := WalletTable.setFlags_eq h
    exact hm
  | wallet _ h =>
    obtain ⟨-, -, -, -, rfl⟩ := WalletTable.createWallet_eq h
    exact hm
  | transfer h _ _ => cases h with | made => exact hm
  | movement h => cases h with | made => exact hm
  | _ => exact hm

theorem Effect.not_moves_reservation {access : Access} {refs : Option String → Prop} :
    ¬Effect.Moves access refs .reservation := by
  rintro ⟨_, ⟨⟩⟩

theorem Effect.not_moves_pending {access : Access} {refs : Option String → Prop} :
    ¬Effect.Moves access refs .pending := by
  rintro ⟨_, ⟨⟩⟩

namespace Ledger

variable {l l₁ l' : Ledger (Faulty Memory)} {t : Terms} {f : Effect → Prop}

theorem Evolves.files (h : l.Evolves f l') {account : String × WalletKind} {symbol : String}
    {id : Int} (hid : l.memory.Files account symbol id) : l'.memory.Files account symbol id :=
  h.preserves (fun _ _ _ _ hc => hc.files) hid

theorem Evolves.moves (h : l.Evolves f l') {p : Posting} {sender receiver : String × WalletKind}
    {amount : Amount} {ref : Option String} (hp : p.Moves l.memory sender receiver amount ref) :
    p.Moves l'.memory sender receiver amount ref :=
  ⟨h.files hp.source, h.files hp.dest, hp.taken, hp.given, hp.ref⟩

theorem Evolves.currencies (h : l.Evolves f l') (hf : ¬f .currency) :
    l'.memory.currencies = l.memory.currencies := by
  refine h.preserves (I := fun m => m.currencies = l.memory.currencies) (fun m e m' he hc hm => ?_)
    rfl
  exact (hc.currencies fun heq => hf (heq ▸ he)).trans hm

theorem Evolves.unhurried (h : l.Evolves f l') (hf : ¬f .pending)
    (hl : l.memory.wallets.conflicts = 0) : l'.memory.wallets.conflicts = 0 :=
  h.preserves (I := fun m => m.wallets.conflicts = 0)
    (fun _ _ _ he hc => hc.unhurried fun heq => hf (heq ▸ he)) hl

/-- A reference that is new stays new while nothing is posted. -/
theorem Evolves.byRef?_of_quiet (h : l.Evolves Effect.Quiet l') (ref : Option String) :
    ref.bind l'.memory.wallets.byRef? = ref.bind l.memory.wallets.byRef? := by
  obtain ⟨hlog, hrefs⟩ := h.log_of_quiet
  cases ref with
  | none => rfl
  | some ref =>
    rw [Option.bind_some, Option.bind_some, WalletTable.byRef?, WalletTable.byRef?, hlog, hrefs]

/-! ## 3. Delivering -/

theorem Prepared.trans {r : TransferRequest} {mv : Movement} (h : l.Prepared r mv l₁)
    (h' : l₁.Evolves Effect.Quiet l') : l.Prepared r mv l' :=
  ⟨h.moved.trans h', h.kinds, h.currency, h.movement, h'.knows h.source,
    fun hl => h'.knows (h.dest hl)⟩

theorem Prepared.sourceAmount {r : TransferRequest} {mv : Movement} (h : l.Prepared r mv l₁) :
    mv.sourceAmount = ⟨r.symbol, r.amount⟩ := by
  obtain ⟨c, hc, -, ha⟩ := h.currency
  rw [checkedAmount_currency ha, CurrencyTable.find?_symbol hc]

/-- **A transfer that was carried out:** everything was prepared, and one posting was made. -/
def Delivered (l : Ledger (Faulty Memory)) (r : TransferRequest) (p : Posting)
    (l' : Ledger (Faulty Memory)) : Prop :=
  ∃ l₁ mv, l.Prepared r mv l₁ ∧ l₁.Posted .generic mv p l'

section

variable {r : TransferRequest} {p : Posting}

theorem Delivered.log (h : l.Delivered r p l') :
    l'.memory.wallets.log = l.memory.wallets.log ++ [p] := by
  obtain ⟨l₁, mv, hprepared, hposted⟩ := h
  obtain ⟨table, hposts, hm⟩ := hposted.made
  rw [hm, ← hprepared.moved.log_of_quiet.1]
  exact hposts.log

theorem Delivered.ref (h : l.Delivered r p l') : p.ref = r.ref := by
  obtain ⟨l₁, mv, hprepared, hposted⟩ := h
  exact hposted.ref.trans hprepared.ref

theorem Delivered.evolves (h : l.Delivered r p l') (hf : Permits f .generic r.ref) :
    l.Evolves f l' := by
  have href := h.ref
  obtain ⟨l₁, mv, hprepared, hposted⟩ := h
  exact (hprepared.moved.mono hf.quiet).trans
    (hposted.evolves (hf.transfer p href) hprepared.served)

theorem Delivered.moved (h : l.Delivered r p l') :
    l.Evolves (Effect.Moves .generic fun _ => True) l' :=
  h.evolves (Operation.permits_of_moves (fun _ => id) trivial)

theorem Delivered.reservations (h : l.Delivered r p l') :
    l'.memory.reservations = l.memory.reservations :=
  (h.moved.reservations Effect.not_moves_reservation).1

/-- **The posting of a delivery** moves what was asked for. -/
theorem Delivered.moves (h : l.Delivered r p l') (hl : l.memory.Sound) :
    p.Moves l'.memory (r.senderUuid, r.senderKind) (r.receiverUuid, r.receiverKind)
      ⟨r.symbol, r.amount⟩ r.ref := by
  have href := h.ref
  obtain ⟨l₁, mv, hprepared, hposted⟩ := h
  have hevolves : l₁.Evolves (fun _ => True) l' := hposted.evolves trivial hprepared.served
  have hsource : l₁.memory.Files (r.senderUuid, r.senderKind) r.symbol mv.source.id :=
    ⟨mv.source, hprepared.source, rfl⟩
  have hdest : l₁.memory.Files (r.receiverUuid, r.receiverKind) r.symbol mv.dest.id :=
    ⟨mv.dest, hprepared.dest hl, rfl⟩
  have heven : mv.destAmount = ⟨r.symbol, r.amount⟩ :=
    hprepared.served.even.trans hprepared.sourceAmount
  obtain ⟨table, hposts, -⟩ := hposted.made
  cases hposts with
  | made source dest _ _ _ _ _ hs hd =>
    rw [← WalletTable.wallet?_id hs] at hsource
    rw [← WalletTable.wallet?_id hd] at hdest
    exact ⟨hevolves.files hsource, hevolves.files hdest, hprepared.sourceAmount, heven, href⟩

/-- **Without faults** a transfer with a new reference is delivered, or it is refused. -/
theorem Sure.ends_transfer (h : l.Sure) (hnew : r.ref.bind l.memory.wallets.byRef? = none) :
    (transfer t r).Ends (fun _ l' => 0 < t.maxAttempts ∧ ∃ p, l.Delivered r p l')
      (fun stop l' => (∃ cause, stop = .refused cause) ∧ l.Evolves Effect.Quiet l') l := by
  have hmain : (transfer t r).Ends (fun _ l' => 0 < t.maxAttempts ∧ ∃ p, l.Delivered r p l')
      (fun _ l' => l.Evolves Effect.Quiet l') l := by
    refine ends_transfer_prepared r (fun _ _ => id) fun mv l₁ hprepared => ?_
    have hunused : mv.ref.bind l₁.memory.wallets.byRef? = none := by
      rw [hprepared.ref, hprepared.moved.byRef?_of_quiet, hnew]
    refine Ends.mono (Ledger.ends_post.and (ends_post_tried hunused)) (fun receipt l₂ hdone => ?_)
      fun _ l₂ hfails => ?_
    · obtain ⟨hreceives, htried⟩ := hdone
      refine ⟨htried, ?_⟩
      cases hreceives with
      | replayed p _ earlier _ _ =>
        rw [hunused] at earlier
        cases earlier
      | made p l₃ _ waits posted => exact ⟨p, l₃, mv, hprepared.trans waits.quiet, posted⟩
    · have harmless : l₁.Harmless := fun hafter => h _ (hprepared.moved.modes _ hafter)
      exact hprepared.moved.trans (hfails.1.waits harmless).quiet
  exact Ends.mono (hmain.and ((Early.transfer r).refuses l)) (fun _ _ hdone => hdone.1)
    fun _ _ hstop => ⟨hstop.2, hstop.1⟩

end

end Ledger

/-! ## 4. Returning -/

/-- **A change is in order** if the exact sum is neither negative nor out of range. -/
theorem Wallet.exists_balanceAfter_of_range {w : Wallet} {change : Amount}
    (hcurrency : change.currency = w.currency)
    (hnonneg : 0 ≤ w.balance.toRat + change.value.toRat)
    (hrange : w.balance.toRat + change.value.toRat < 2 ^ 96 - 1 / 2) :
    ∃ b, w.balanceAfter change = .ok b := by
  obtain ⟨b, hb⟩ := Decimal.exists_add?_iff.2 ((abs_of_nonneg hnonneg).trans_lt hrange)
  have hneg : b.isNegative = false := by
    rw [Decimal.isNegative_eq_false_iff, ← Decimal.toRat_zero]
    rw [← Decimal.toRat_zero] at hnonneg
    exact Decimal.le_add? hb Decimal.toRat_zero.ge hnonneg
  refine ⟨b, ?_⟩
  rw [Wallet.balanceAfter, if_neg (not_not_intro hcurrency), hb]
  simp only [hneg, Bool.false_eq_true, if_false]

/-- A change that leads to a balance which is there is in order. -/
theorem Wallet.exists_balanceAfter {w : Wallet} {change : Amount} (balance : Decimal)
    (hcurrency : change.currency = w.currency)
    (hsum : w.balance.toRat + change.value.toRat = balance.toRat)
    (hbalance : balance.isNegative = false) : ∃ b, w.balanceAfter change = .ok b := by
  refine exists_balanceAfter_of_range hcurrency ?_ ?_
  · rw [hsum]
    exact (Decimal.isNegative_eq_false_iff _).1 hbalance
  · rw [hsum]
    exact (le_abs_self _).trans_lt balance.abs_toRat_lt

/-- A positive amount may move between two wallets of its currency. -/
theorem Movement.check_ofAmount {source dest : Wallet} {a : Amount} {category : Category}
    {description ref : Option String} (hpos : a.isPositive = true) (hne : source.id ≠ dest.id)
    (hsource : a.currency = source.currency) (hdest : a.currency = dest.currency) :
    (Movement.ofAmount source dest a category description ref).check = .ok () := by
  simp only [check, ofAmount, hpos, Bool.and_self, Bool.not_true, Bool.false_eq_true, if_false,
    if_neg hne, hsource, hdest.symm.trans hsource, ne_eq, not_true_eq_false]

/-- Who may send to whom may also be sent to by them. -/
theorem Access.check_comm (access : Access) (source dest : Wallet) :
    access.check source dest = access.check dest source := by
  cases access with
  | custody => rfl
  | generic => rw [Access.check, Access.check, Bool.and_comm]

/-- **A posting that was not rounded can be taken back:** the movement in the other direction,
between the wallets as the posting left them, is in order. -/
theorem WalletTable.Posts.fits_back {t t' : WalletTable} {access : Access} {source dest : Wallet}
    {a : Amount} {category : Category} {description ref : Option String} {p : Posting}
    (h : t.Posts access (.ofAmount source dest a category description ref) p t')
    (hsource : t.wallet? source.id = some source) (hdest : t.wallet? dest.id = some dest)
    (hs : source.balance.isNegative = false) (hd : dest.balance.isNegative = false)
    (hexact : p.IsExact) :
    ∃ x y, t'.wallet? source.id = some x ∧ t'.wallet? dest.id = some y ∧
      ∀ category description ref,
        (Movement.ofAmount y x a category description ref).Fits access := by
  cases h with
  | made source' dest' sourceAfter destAfter _ _ checked hs' hd' allowed debit credit =>
    obtain rfl : source = source' := Option.some.inj (hsource.symm.trans hs')
    obtain rfl : dest = dest' := Option.some.inj (hdest.symm.trans hd')
    have hne : source.id ≠ dest.id := Movement.check_ne checked
    have hscur : a.currency = source.currency := (Wallet.balanceAfter_eq debit).1
    have hdcur : a.currency = dest.currency := (Wallet.balanceAfter_eq credit).1
    obtain ⟨hsexact, hdexact⟩ := hexact
    have hdest' := (wallet?_write_of_ne (b := source.write sourceAfter) hne.symm).trans hdest
    refine ⟨_, _, (wallet?_write_of_ne hne).trans (wallet?_write_self hsource sourceAfter),
      wallet?_write_self hdest' destAfter, fun category description ref => ⟨?_, ?_, ?_, ?_⟩⟩
    · exact Movement.check_ofAmount (Movement.check_pos checked) hne.symm hdcur hscur
    · rw [Access.check_comm]
      exact allowed
    -- The receiver has what it was given on top of what it had, and the sender lacks just that.
    · refine Wallet.exists_balanceAfter dest.balance hdcur ?_ hd
      show destAfter.toRat + a.value.neg.toRat = dest.balance.toRat
      rw [Decimal.toRat_neg, (show destAfter.toRat = _ from hdexact)]
      exact add_neg_cancel_right _ _
    · refine Wallet.exists_balanceAfter source.balance hscur ?_ hs
      show sourceAfter.toRat + a.value.toRat = source.balance.toRat
      rw [(show sourceAfter.toRat = _ from hsexact)]
      exact sub_add_cancel _ _

/-- **The transfer in the other direction,** of the same amount. -/
structure TransferRequest.Returns (r' r : TransferRequest) : Prop where
  symbol : r'.symbol = r.symbol
  amount : r'.amount = r.amount
  senderUuid : r'.senderUuid = r.receiverUuid
  senderKind : r'.senderKind = r.receiverKind
  receiverUuid : r'.receiverUuid = r.senderUuid
  receiverKind : r'.receiverKind = r.senderKind

namespace Ledger

variable {l l₁ l' : Ledger (Faulty Memory)} {t : Terms} {r r' : TransferRequest} {p : Posting}

/-- A transfer for which everything is there is carried out. -/
theorem Prepared.succeeds_transfer {mv : Movement} (hprepared : l.Prepared r mv l)
    (hl : l.memory.Sound) (hmv : l.memory.Affords .generic mv) (ht : 0 < t.maxAttempts) :
    Succeeds (transfer t r) (fun _ _ => True) l.memory := by
  obtain ⟨c, hc, active, ha⟩ := hprepared.currency
  obtain ⟨sender, hsender, hsource⟩ := hprepared.source
  obtain ⟨receiver, hreceiver, hdest⟩ := hprepared.dest hl
  rw [hprepared.movement] at hmv
  rw [← CurrencyTable.find?_symbol hc] at hsource hdest
  unfold transfer
  refine (reads_require hprepared.kinds).bind ((reads_requireActive hc active).bind ?_)
  refine (reads_ofExcept ha).bind ((reads_requireOwner hsender).bind ?_)
  refine (reads_requireWallet hsource).bind ((reads_findOrCreateOwner hreceiver).bind ?_)
  exact (reads_findOrCreateWallet hdest).bind (succeeds_post hmv ht)

/-- Both wallets of a delivery, as it left them, and what may be moved between them. -/
theorem Delivered.fits_back (h : l.Delivered r p l') (hl : l.memory.Sound) (hexact : p.IsExact) :
    ∃ x y, l'.memory.Knows r.senderUuid r.symbol r.senderKind x ∧
      l'.memory.Knows r.receiverUuid r.symbol r.receiverKind y ∧
      ∀ category description ref,
        (Movement.ofAmount y x ⟨r.symbol, r.amount⟩ category description ref).Fits .generic := by
  obtain ⟨l₀, mv, hprepared, hposted⟩ := h
  obtain ⟨table, hposts, hm⟩ := hposted.made
  have hsource := hprepared.source
  have hdest := hprepared.dest hl
  have hsound := (hprepared.moved.sound hl).wallets
  have hnonneg : ∀ w, l₀.memory.wallets.wallet? w.id = some w → w.balance.isNegative = false :=
    fun w hw => hsound.balances w (WalletTable.mem_of_wallet? hw)
  have hwallets : l'.memory.wallets = table := by rw [hm]; rfl
  have hkept : table.owners = l₀.memory.wallets.owners ∧ table.keys = l₀.memory.wallets.keys := by
    cases hposts with
    | made => exact ⟨rfl, rfl⟩
  rw [← hwallets] at hposts hkept
  rw [hprepared.movement, hprepared.sourceAmount] at hposts
  obtain ⟨x, y, hx, hy, hfits⟩ := hposts.fits_back hsource.wallet? hdest.wallet?
    (hnonneg _ hsource.wallet?) (hnonneg _ hdest.wallet?) hexact
  exact ⟨x, y, hsource.of_wallet? hkept.1 hkept.2 hx, hdest.of_wallet? hkept.1 hkept.2 hy, hfits⟩

theorem Delivered.currency (h : l.Delivered r p l') :
    ∃ c, l'.memory.currencies.find? r.symbol = some c ∧ c.isActive = true ∧
      c.checkedAmount r.amount = .ok ⟨r.symbol, r.amount⟩ := by
  obtain ⟨l₀, mv, hprepared, hposted⟩ := h
  obtain ⟨table, -, hm⟩ := hposted.made
  have hcurrencies : l'.memory.currencies = l.memory.currencies := by
    rw [hm]
    exact hprepared.moved.currencies nofun
  rw [hcurrencies, ← hprepared.sourceAmount]
  exact hprepared.currency

/-- **What was delivered can be returned,** if it was not rounded, and whatever was refused in
between. -/
theorem Delivered.ends_return (hdelivered : l.Delivered r p l₁) (hl : l.memory.Sound)
    (hexact : p.IsExact) (hquiet : l₁.Evolves Effect.Quiet l') (h : l'.Sure)
    (unhurried : l'.memory.wallets.conflicts = 0) (hr : r'.Returns r)
    (hnew : r'.ref.bind l'.memory.wallets.byRef? = none) (ht : 0 < t.maxAttempts) :
    (transfer t r').Ends (fun _ _ => True) (fun _ _ => False) l' := by
  have hkinds : (r.senderKind ≠ .cashout && r.receiverKind ≠ .cashout) = true := by
    obtain ⟨_, _, hprepared, -⟩ := hdelivered
    exact hprepared.kinds
  have hsound : l'.memory.Sound := hquiet.sound (hdelivered.moved.sound hl)
  obtain ⟨x, y, hx, hy, hfits⟩ := hdelivered.fits_back hl hexact
  have hx := hquiet.knows hx
  have hy := hquiet.knows hy
  obtain ⟨hsymbol, hamount, hsender, hsenderKind, hreceiver, hreceiverKind⟩ := hr
  have hprepared : l'.Prepared r'
      (.ofAmount y x ⟨r.symbol, r.amount⟩ r'.category r'.description r'.ref) l' := by
    refine ⟨.refl l', ?_, ?_, rfl, ?_, fun _ => ?_⟩
    · rw [hsenderKind, hreceiverKind, Bool.and_comm]
      exact hkinds
    · rw [hquiet.currencies nofun, hsymbol, hamount]
      exact hdelivered.currency
    · rw [hsender, hsymbol, hsenderKind]
      exact hy
    · rw [hreceiver, hsymbol, hreceiverKind]
      exact hx
  exact (hprepared.succeeds_transfer hsound
    ⟨hfits _ _ _, hy.wallet?, hx.wallet?, hnew, unhurried⟩ ht).ends h

end Ledger

end WalletLedger
