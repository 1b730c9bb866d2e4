/-
What the services do to a ledger.

Each service is summed up by one lemma: it moves the ledger along `Evolves f` however it ends, and
if it has a value, something is known of the value that outlasts whatever comes next. The condition
on `f` says which effects the service may have, so the same lemma serves every restriction on runs.

A service that only reads is `Within Still`. A service that moves funds ends as the engine does,
after a preparation that creates at most owners and empty wallets (`Quiet`): `Transferred` and
`Stuck` say so for a transfer, and everything that is built on transfers ends in the same way.
-/
import WalletLedger.Proofs.Decimal
import WalletLedger.Proofs.Engine
import WalletLedger.Proofs.Tables

set_option autoImplicit false

namespace WalletLedger

open WalletLedger.Action

/-- The effects of getting ready to post. -/
inductive Effect.Quiet : Effect → Prop
  | conflict : Quiet .conflict
  | owner : Quiet .owner
  | wallet (w : Wallet) (empty : w.balance = .zero) : Quiet (.wallet w)

/-- **A wallet that is known** by the uuid of its owner, its currency and its kind. -/
def Memory.Knows (m : Memory) (uuid symbol : String) (kind : WalletKind) (w : Wallet) : Prop :=
  ∃ o, m.wallets.owner? uuid = some o ∧ m.wallets.find? ⟨o.id, symbol, kind⟩ = some w

/-- An owner keeps its number, whatever is written. -/
theorem Change.account {m m' : Memory} {e : Effect} (h : Change m e m') {uuid : String} {o : Owner}
    (ho : m.wallets.owner? uuid = some o) :
    ∃ x, m'.wallets.owner? uuid = some x ∧ x.id = o.id := by
  cases h with
  | conflict h =>
    obtain ⟨n, -, rfl⟩ := WalletTable.takeConflict?_eq h
    exact ⟨o, ho, rfl⟩
  | owner h =>
    obtain ⟨-, -, rfl⟩ := WalletTable.createOwner_eq h
    refine ⟨o, ?_, rfl⟩
    rw [WalletTable.owner?] at ho
    simp only [Memory.withWallets, WalletTable.owner?, List.find?_append, ho, Option.some_or]
  | @flags changed flags _ _ h =>
    obtain rfl := WalletTable.setFlags_eq h
    have hkeeps : ∀ x : Owner,
        ((if x.uuid = changed then { x with flags } else x).uuid == uuid) = (x.uuid == uuid) := by
      intro x
      split_ifs <;> rfl
    refine ⟨_, (find?_map_of_keeps hkeeps _).trans (congrArg _ ho), ?_⟩
    dsimp only
    split_ifs <;> rfl
  | wallet _ h =>
    obtain ⟨-, -, -, -, rfl⟩ := WalletTable.createWallet_eq h
    exact ⟨o, ho, rfl⟩
  | transfer h _ _ => cases h with | made => exact ⟨o, ho, rfl⟩
  | movement h => cases h with | made => exact ⟨o, ho, rfl⟩
  | _ => exact ⟨o, ho, rfl⟩

/-- A key keeps its place in the index. -/
theorem Change.keys {m m' : Memory} {e : Effect} (h : Change m e m') {key : WalletKey} {id : Int}
    (hid : m.wallets.keys.lookup key = some id) : m'.wallets.keys.lookup key = some id := by
  cases h with
  | conflict h =>
    obtain ⟨n, -, rfl⟩ := WalletTable.takeConflict?_eq h
    exact hid
  | owner h =>
    obtain ⟨-, -, rfl⟩ := WalletTable.createOwner_eq h
    exact hid
  | flags h =>
    obtain rfl := WalletTable.setFlags_eq h
    exact hid
  | wallet _ h =>
    obtain ⟨-, -, -, -, rfl⟩ := WalletTable.createWallet_eq h
    simp only [Memory.withWallets, List.lookup_append, hid, Option.some_or]
  | transfer h _ _ => cases h with | made => exact hid
  | movement h => cases h with | made => exact hid
  | _ => exact hid

/-- The wallet with a key keeps its identity. -/
theorem Change.find? {m m' : Memory} {e : Effect} (h : Change m e m') {key : WalletKey}
    {w : Wallet} (hw : m.wallets.find? key = some w) :
    ∃ x, m'.wallets.find? key = some x ∧ w.Same x := by
  obtain ⟨id, hid, hfound⟩ := Option.bind_eq_some_iff.1 hw
  obtain rfl := WalletTable.wallet?_id hfound
  obtain ⟨x, hx, hsame⟩ := h.hasWallet ⟨w, hfound, .refl w⟩
  exact ⟨x, by rw [WalletTable.find?, h.keys hid, Option.bind_some, hx], hsame⟩

/-- Getting ready leaves the wallets that are there as they are. -/
theorem Change.find?_of_quiet {m m' : Memory} {e : Effect} (h : Change m e m') (he : e.Quiet)
    {key : WalletKey} {w : Wallet} (hw : m.wallets.find? key = some w) :
    m'.wallets.find? key = some w := by
  obtain ⟨id, hid, hfound⟩ := Option.bind_eq_some_iff.1 hw
  rw [WalletTable.find?, h.keys hid, Option.bind_some]
  cases h with
  | wallet _ h =>
    obtain ⟨-, -, -, -, rfl⟩ := WalletTable.createWallet_eq h
    rw [WalletTable.wallet?] at hfound
    simp only [Memory.withWallets, WalletTable.wallet?, List.find?_append, hfound, Option.some_or]
  | conflict h =>
    obtain ⟨n, -, rfl⟩ := WalletTable.takeConflict?_eq h
    exact hfound
  | owner h =>
    obtain ⟨-, -, rfl⟩ := WalletTable.createOwner_eq h
    exact hfound
  | flags h =>
    obtain rfl := WalletTable.setFlags_eq h
    exact hfound
  | _ => cases he

/-- An amount passes the checks of a currency just if it is positive and on the currency's grid. -/
theorem Currency.checkedAmount_eq_ok_iff {c : Currency} {value : Decimal} {a : Amount} :
    c.checkedAmount value = .ok a ↔
      a = ⟨c.symbol, value⟩ ∧ 0 < value.toRat ∧ value.OnGrid c.precision := by
  rw [← Decimal.isPositive_iff, ← Decimal.scale_normalize_le_iff, checkedAmount]
  cases hpos : value.isPositive with
  | false => simp
  | true =>
    simp only [Bool.not_true, Bool.false_or, decide_eq_true_eq, true_and]
    split_ifs with hlt
    · simp only [false_iff, not_and, not_le]
      exact fun _ => hlt
    · rw [Except.ok.injEq]
      exact ⟨fun h => ⟨h.symm, not_lt.1 hlt⟩, fun h => h.1.symm⟩

namespace Ledger

variable {l l' : Ledger (Faulty Memory)} {t : Terms} {f : Effect → Prop}

theorem Evolves.account (h : l.Evolves f l') {uuid : String} {o : Owner}
    (ho : l.memory.wallets.owner? uuid = some o) :
    ∃ x, l'.memory.wallets.owner? uuid = some x ∧ x.id = o.id := by
  refine h.preserves (I := fun m => ∃ x, m.wallets.owner? uuid = some x ∧ x.id = o.id)
    (fun m e m' _ hc hm => ?_) ⟨o, ho, rfl⟩
  obtain ⟨x, hx, hid⟩ := hm
  obtain ⟨y, hy, hyid⟩ := hc.account hx
  exact ⟨y, hy, hyid.trans hid⟩

/-- Getting ready leaves what is known as it is. -/
theorem Evolves.knows (h : l.Evolves Effect.Quiet l') {uuid symbol : String} {kind : WalletKind}
    {w : Wallet} (hw : l.memory.Knows uuid symbol kind w) :
    l'.memory.Knows uuid symbol kind w := by
  refine h.preserves (I := fun m => m.Knows uuid symbol kind w) (fun m e m' he hc hm => ?_) hw
  obtain ⟨o, ho, hfind⟩ := hm
  obtain ⟨x, hx, hid⟩ := hc.account ho
  exact ⟨x, hx, hid ▸ hc.find?_of_quiet he hfind⟩

theorem Waits.quiet (h : l.Waits l') : l.Evolves Effect.Quiet l' := h.evolves .conflict

/-- Getting ready leaves the log alone. -/
theorem Evolves.log_of_quiet (h : l.Evolves Effect.Quiet l') :
    l'.memory.wallets.log = l.memory.wallets.log ∧
      l'.memory.wallets.refs = l.memory.wallets.refs := by
  refine h.log fun e he => ?_
  rcases he with _ | _ | _ <;> exact id

/-- Nor does it touch the rows of the withdrawals. -/
theorem Evolves.withdrawals_of_quiet (h : l.Evolves Effect.Quiet l') :
    l'.memory.withdrawals = l.memory.withdrawals :=
  h.withdrawals (fun _ => nofun) nofun

/-! ## 1. Owners -/

theorem hasOwner_of_owner? {m : Memory} {uuid : String} {o : Owner}
    (h : m.wallets.owner? uuid = some o) : m.HasOwner o ∧ o.uuid = uuid :=
  ⟨⟨o, List.mem_of_find?_eq_some h, rfl, rfl⟩, by simpa using List.find?_some h⟩

theorem within_findOwner (uuid : String) :
    Within Still (ask (.findOwner uuid))
      (fun found _ => ∀ o, found = some o → l.memory.HasOwner o ∧ o.uuid = uuid) l := by
  refine (within_find (c := .findOwner uuid) rfl rfl).mono fun found l' _ hfound o ho => ?_
  exact hasOwner_of_owner? (hfound o ho)

theorem requireOwner_finds (uuid : String) :
    Within Still (requireOwner uuid) (fun o _ => l.memory.wallets.owner? uuid = some o) l := by
  unfold requireOwner
  refine (within_find (c := .findOwner uuid) rfl rfl).bind fun found l' _ hfound => ?_
  exact within_orRefuse fun o ho => hfound o ho

theorem within_requireOwner (uuid : String) :
    Within Still (requireOwner uuid) (fun o _ => l.memory.HasOwner o ∧ o.uuid = uuid) l :=
  (requireOwner_finds uuid).mono fun _ _ _ ho => hasOwner_of_owner? ho

theorem within_createOwner (hf : f .owner) (uuid title level : String) :
    Within (Evolves f) (createOwner uuid title level)
      (fun o l' => l'.memory.wallets.owner? uuid = some o) l := by
  unfold createOwner
  have hcall : Within (Evolves f) (ask (.createOwner uuid title level Owner.defaultFlags))
      (fun o l' => l'.memory.wallets.owner? uuid = some o) l := by
    refine within_ask (Q := fun o m => m.wallets.owner? uuid = some o) (fun o m h => ?_) nofun
    obtain ⟨table, hcreate, rfl⟩ := Memory.answering_eq h
    refine ⟨.single (.owner hcreate) hf, ?_⟩
    obtain ⟨hnone, ho, rfl⟩ := WalletTable.createOwner_eq hcreate
    rw [WalletTable.owner?] at hnone
    simp only [Memory.withWallets, WalletTable.owner?, List.find?_append, hnone, Option.none_or]
    rw [ho]
    exact List.find?_cons_of_pos (by simp)
  refine hcall.bind fun o l₁ _ ho => ?_
  refine within_bind_still (within_report _) fun _ l₂ h₂ _ => ?_
  exact within_pure (h₂.memory ▸ ho)

theorem within_findOrCreateOwner (hf : f .owner) (uuid : String) :
    Within (Evolves f) (findOrCreateOwner uuid)
      (fun o l' => l'.memory.wallets.owner? uuid = some o) l := by
  unfold findOrCreateOwner
  refine within_bind_still (within_find (c := .findOwner uuid) rfl rfl) fun found l₁ h₁ hfound => ?_
  cases found with
  | some o => exact within_pure (h₁.memory ▸ hfound o rfl)
  | none =>
    refine (within_createOwner hf uuid "not set" "1").attempt.bind fun r l₂ _ hr => ?_
    cases r with
    | ok o => exact within_pure (hr o rfl)
    | error cause =>
      -- Somebody else may have been faster, so the owner is looked up once more.
      refine within_of_still ((requireOwner_finds uuid).mono fun o l₃ h₃ ho => ?_)
      exact h₃.memory ▸ ho

theorem within_setPermissions (hf : f .owner) (uuid : String) (trade withdraw deposit : Bool) :
    Within (Evolves f) (setPermissions uuid trade withdraw deposit) (fun _ _ => True) l := by
  unfold setPermissions
  refine within_ask (Q := fun _ _ => True) (fun o m h => ?_) nofun
  obtain ⟨table, hset, rfl⟩ := Memory.answering_eq h
  exact ⟨.single (.flags hset) hf, trivial⟩

/-! ## 2. Wallets -/

theorem within_findWallet (owner : Owner) (currency : String) (kind : WalletKind) :
    Within Still (findWallet owner currency kind)
      (fun found _ => ∀ w, found = some w →
        l.memory.wallets.find? ⟨owner.id, currency, kind⟩ = some w) l :=
  within_find (c := .findWallet ⟨owner.id, currency, kind⟩) rfl rfl

theorem within_requireWallet (owner : Owner) (currency : String) (kind : WalletKind) :
    Within Still (requireWallet owner currency kind)
      (fun w _ => l.memory.wallets.find? ⟨owner.id, currency, kind⟩ = some w) l := by
  unfold requireWallet
  refine (within_findWallet owner currency kind).bind fun found l' _ hfound => ?_
  exact within_orRefuse fun w hw => hfound w hw

/-- **The wallet of an owner:** its identity is what was asked for. -/
structure Serves (l : Ledger (Faulty Memory)) (owner : Owner) (currency : String)
    (kind : WalletKind) (w : Wallet) : Prop where
  held : l.memory.HasWallet w
  ownerId : w.ownerId = owner.id
  ownerUuid : w.ownerUuid = owner.uuid
  currency : w.currency = currency
  kind : w.kind = kind

theorem serves_of_find? (hl : l.memory.Sound) {owner : Owner} {currency : String}
    {kind : WalletKind} {w : Wallet} (ho : l.memory.HasOwner owner)
    (hw : l.memory.wallets.find? ⟨owner.id, currency, kind⟩ = some w) :
    l.Serves owner currency kind w := by
  obtain ⟨hmem, hkey⟩ := hl.wallets.key_of_find? hw
  have hid : w.ownerId = owner.id := congrArg WalletKey.ownerId hkey
  exact ⟨⟨w, hl.wallets.wallet?_of_mem hmem, .refl w⟩, hid, hl.wallets.ownerUuid_eq hmem ho hid,
    congrArg WalletKey.currency hkey, congrArg WalletKey.kind hkey⟩

theorem Serves.evolves {owner : Owner} {currency : String} {kind : WalletKind} {w : Wallet}
    (h : l.Serves owner currency kind w) (hl : l.Evolves f l') :
    l'.Serves owner currency kind w :=
  ⟨hl.hasWallet h.held, h.ownerId, h.ownerUuid, h.currency, h.kind⟩

theorem createWallet_finds {owner : Owner} {initial : Amount} {kind : WalletKind}
    (hf : ∀ w, w.balance = initial.value → w.currency = initial.currency → f (.wallet w))
    (ho : l.memory.HasOwner owner) :
    Within (Evolves f) (createWallet owner initial kind)
      (fun w l' => l.memory.Sound →
        l'.memory.wallets.find? ⟨owner.id, initial.currency, kind⟩ = some w) l := by
  unfold createWallet
  refine within_ask (Q := fun w m => l.memory.Sound →
    m.wallets.find? ⟨owner.id, initial.currency, kind⟩ = some w) (fun w m h => ?_) nofun
  obtain ⟨table, hcreate, rfl⟩ := Memory.answering_eq h
  have hchange := Change.wallet ho hcreate
  obtain ⟨-, -, -, hw, htable⟩ := WalletTable.createWallet_eq hcreate
  refine ⟨.single hchange (hf w (by rw [hw]) (by rw [hw])), fun hl => ?_⟩
  have hmem : w ∈ table.wallets := by
    rw [htable]
    exact List.mem_append_right _ (List.mem_singleton_self w)
  have hfind := (hchange.sound hl).wallets.find?_key_of_mem hmem
  rw [hw] at hfind ⊢
  exact hfind

/-- **The wallet of an owner, opened empty if need be.** -/
theorem findOrCreateWallet_finds {owner : Owner} (currency : String) (kind : WalletKind)
    (hf : ∀ w, w.balance = .zero → f (.wallet w)) (ho : l.memory.HasOwner owner) :
    Within (Evolves f) (findOrCreateWallet owner currency kind)
      (fun w l' => l.memory.Sound →
        l'.memory.wallets.find? ⟨owner.id, currency, kind⟩ = some w) l := by
  unfold findOrCreateWallet
  refine within_bind_still (within_findWallet owner currency kind) fun found l₁ h₁ hfound => ?_
  cases found with
  | some w => exact within_pure fun _ => h₁.memory ▸ hfound w rfl
  | none =>
    have ho₁ : l₁.memory.HasOwner owner := h₁.memory ▸ ho
    refine (createWallet_finds (fun w hw _ => hf w hw) ho₁).attempt.bind fun r l₂ h₂ hr => ?_
    cases r with
    | ok w => exact within_pure fun hl => hr w rfl (h₁.memory ▸ hl)
    | error cause =>
      -- The wallet exists by now, or it could not be opened.
      have hrequire : Within (Evolves f) (requireWallet owner currency kind)
          (fun w l' => l.memory.Sound →
            l'.memory.wallets.find? ⟨owner.id, currency, kind⟩ = some w) l₂ :=
        within_of_still ((within_requireWallet owner currency kind).mono
          fun w l₃ h₃ hw _ => h₃.memory ▸ hw)
      cases cause with
      | walletExists => exact hrequire
      | _ => exact within_refuse _

theorem within_createWallet {owner : Owner} {initial : Amount} {kind : WalletKind}
    (hf : ∀ w, w.balance = initial.value → w.currency = initial.currency → f (.wallet w))
    (ho : l.memory.HasOwner owner) :
    Within (Evolves f) (createWallet owner initial kind)
      (fun w l' => l.memory.Sound → l'.Serves owner initial.currency kind w) l :=
  (createWallet_finds hf ho).mono fun _ _ h hw hl =>
    serves_of_find? (h.sound hl) (h.hasOwner ho) (hw hl)

theorem within_findOrCreateWallet {owner : Owner} (currency : String) (kind : WalletKind)
    (hf : ∀ w, w.balance = .zero → f (.wallet w)) (ho : l.memory.HasOwner owner) :
    Within (Evolves f) (findOrCreateWallet owner currency kind)
      (fun w l' => l.memory.Sound → l'.Serves owner currency kind w) l :=
  (findOrCreateWallet_finds currency kind hf ho).mono fun _ _ h hw hl =>
    serves_of_find? (h.sound hl) (h.hasOwner ho) (hw hl)

/-- A write of one balance that was just read is told to wait, or it is made. -/
theorem compareAndSet_eq {table table' : WalletTable} {w : Wallet} {balance : Decimal}
    {o : Option Wallet} (hw : table.wallet? w.id = some w)
    (h : table.compareAndSet (w.write balance) = .ok (o, table')) :
    (o = none ∧ table.takeConflict? = some table') ∨
      (o ≠ none ∧ table' = table.write (w.write balance)) := by
  unfold WalletTable.compareAndSet at h
  cases hconflict : table.takeConflict? with
  | some t₁ =>
    rw [hconflict] at h
    cases h
    exact .inl ⟨rfl, rfl⟩
  | none =>
    simp only [hconflict, WalletTable.isCurrent_write hw, bind, Except.bind, if_true] at h
    cases h
    refine .inr ⟨?_, rfl⟩
    obtain ⟨x, hx, -⟩ := WalletTable.same_of_wallet?_write (b := w.write balance) hw
    exact fun hnone => nomatch hx.symm.trans hnone

/-- **One balance is changed by itself.** -/
structure Edited (l : Ledger (Faulty Memory)) (id : Int) (change : Amount)
    (l' : Ledger (Faulty Memory)) : Prop extends Follows l l' where
  made : ∃ w balance, l.memory.wallets.wallet? id = some w ∧ w.balanceAfter change = .ok balance ∧
    l'.memory = l.memory.withWallets (l.memory.wallets.write (w.write balance))

/-- One cycle of reading, computing and writing. -/
theorem ends_tryMutate {id : Int} {change : Amount} :
    (tryMutate id change).Ends
      (fun o l' => (o = none → l.Waits l') ∧ (o ≠ none → l.Edited id change l'))
      (fun _ l' => l.Waits l' ∨ l.Edited id change l') l := by
  have stopped : ∀ (_ : Stop) l', l.Still l' → l.Waits l' ∨ l.Edited id change l' :=
    fun _ _ h => .inl h.waits
  unfold tryMutate
  refine (Still.refl l).next (within_loadWallet id) stopped fun w l₁ h₁ hw => ?_
  refine h₁.next still_ofExcept stopped fun balance l₂ still hbalance => ?_
  obtain rfl := WalletTable.wallet?_id hw
  -- Nothing was written since the wallet was read, so the write meets the version it expects.
  have hw₂ : l₂.memory.wallets.wallet? w.id = some w := by rw [still.memory, hw]
  have hanswer : ∀ o l', l₂.Follows l' → l₂.memory.answer (.compareAndSet (w.write balance)) =
      .ok (o, l'.memory) → (o = none ∧ l.Waits l') ∨ (o ≠ none ∧ l.Edited w.id change l') := by
    intro o l' hl h
    obtain ⟨table, hset, hm⟩ := Memory.answering_eq h
    rcases compareAndSet_eq hw₂ hset with ⟨ho, hconflict⟩ | ⟨ho, rfl⟩
    · refine .inl ⟨ho, still.waits.trans ⟨hl, ?_⟩⟩
      rw [hm]
      exact .single (.conflict hconflict) rfl
    · refine .inr ⟨ho, still.toFollows.trans hl, w, balance, hw, hbalance, ?_⟩
      rw [hm, still.memory]
  refine ends_ask (fun o l' hl h => ?_) (fun o l' hl _ hnothing => ?_)
    (fun _ _ h => .inl (still.trans h).waits) fun _ o l' hl _ h => ?_
  · rcases hanswer o l' hl h with ⟨rfl, hwaits⟩ | ⟨ho, hedited⟩
    · exact ⟨fun _ => hwaits, fun ho => absurd rfl ho⟩
    · exact ⟨fun hnone => absurd hnone ho, fun _ => hedited⟩
  · cases hnothing
    exact ⟨fun _ => (still.trans hl).waits, fun ho => absurd rfl ho⟩
  · exact (hanswer o l' hl h).imp And.right And.right

/-- **Changing one balance by itself** writes it at most once. -/
theorem ends_mutateBalance (id : Int) (change : Amount) :
    (mutateBalance t id change).Ends
      (fun _ l' => ∃ l₁, l.Waits l₁ ∧ l₁.Edited id change l')
      (fun _ l' => l.Waits l' ∨ ∃ l₁, l.Waits l₁ ∧ l₁.Edited id change l') l := by
  unfold mutateBalance
  refine ends_retry (I := l.Waits) (fun l₁ h₁ => ?_) (fun _ h => .inl h) _ l (.refl l)
  refine Ends.mono ends_tryMutate (fun o l₂ h => ⟨fun v ho => ?_, fun ho => ?_⟩) fun _ l₂ h => ?_
  · exact ⟨l₁, h₁, h.2 (by rw [ho]; exact Option.some_ne_none v)⟩
  · exact Evolves.trans h₁ (h.1 ho)
  · exact h.imp (Evolves.trans h₁) fun hedited => ⟨l₁, h₁, hedited⟩

theorem Edited.evolves {id : Int} {change : Amount} (h : l.Edited id change l')
    (hf : f (.edit id)) : l.Evolves f l' := by
  obtain ⟨w, balance, hw, hbalance, hm⟩ := h.made
  obtain rfl := WalletTable.wallet?_id hw
  refine ⟨h.toFollows, ?_⟩
  rw [hm]
  exact .single (.edit hw hbalance) hf

theorem within_mutateBalance (hc : f .conflict) {id : Int} (hf : f (.edit id)) (change : Amount) :
    Within (Evolves f) (mutateBalance t id change) (fun _ _ => True) l := by
  have hedits : ∀ l', (∃ l₁, l.Waits l₁ ∧ l₁.Edited id change l') → l.Evolves f l' := by
    rintro l' ⟨l₁, h₁, hedited⟩
    exact (h₁.evolves hc).trans (hedited.evolves hf)
  exact Ends.mono (ends_mutateBalance id change) (fun _ l' h => ⟨hedits l' h, trivial⟩)
    fun _ l' h => h.elim (Waits.evolves hc) (hedits l')

/-! ## 3. Currencies and conversions -/

theorem within_requireCurrency (symbol : String) :
    Within Still (requireCurrency symbol)
      (fun c _ => l.memory.currencies.find? symbol = some c) l := by
  unfold requireCurrency
  refine (within_find (c := .findCurrency symbol) rfl rfl).bind fun found l' _ hfound => ?_
  exact within_orRefuse fun c hc => hfound c hc

theorem within_requireActive (symbol : String) :
    Within Still (requireActive symbol)
      (fun c _ => l.memory.currencies.find? symbol = some c ∧ c.isActive = true) l := by
  unfold requireActive
  refine (within_requireCurrency symbol).bind fun c l₁ _ hc => ?_
  exact still_require.bind fun _ l₂ _ h => within_pure ⟨hc, h⟩

/-- An amount that was checked is the one that was asked for. -/
theorem checkedAmount_currency {c : Currency} {value : Decimal} {a : Amount}
    (h : c.checkedAmount value = .ok a) : a = ⟨c.symbol, value⟩ :=
  (Currency.checkedAmount_eq_ok_iff.1 h).1

/-- An amount that was checked against its currency may be moved. -/
theorem vouches_of_checked {symbol : String} {c : Currency} {value : Decimal} {a : Amount}
    (hc : l.memory.currencies.find? symbol = some c) (ha : c.checkedAmount value = .ok a) :
    l.memory.Vouches a := by
  have hsymbol := CurrencyTable.find?_symbol hc
  obtain ⟨rfl, -, hgrid⟩ := Currency.checkedAmount_eq_ok_iff.1 ha
  exact .inl ⟨c.precision, ⟨c, hsymbol ▸ hc, rfl⟩, Decimal.scale_normalize_le_iff.2 hgrid⟩

theorem within_currentGraph : Within Still (currentGraph t) (fun _ _ => True) l := by
  unfold currentGraph
  refine (within_peek _).bind fun graph l₁ _ _ => ?_
  cases graph with
  | some g => exact within_pure trivial
  | none =>
    -- The graph is built anew from three lists, and none of them is changed.
    refine (within_read (c := .listCurrencies) rfl).bind fun _ l₂ _ _ => ?_
    refine (within_read (c := .listRates) rfl).bind fun _ l₃ _ _ => ?_
    refine (within_read (c := .listForbidden) rfl).bind fun _ l₄ _ _ => ?_
    exact (within_setGraph _).bind fun _ l₅ _ _ => within_pure trivial

/-- What an amount is converted to is the product of its value and the rate. -/
theorem convert_eq {a converted : Amount} {dest : String} {rate : Decimal}
    (h : a.convert dest rate = .ok converted) :
    ∃ product, a.value.mul? rate = some product ∧ converted = ⟨dest, product⟩ := by
  unfold Amount.convert at h
  split at h
  · rename_i product hproduct
    cases h
    exact ⟨product, hproduct, rfl⟩
  · cases h

/-- The route that is taken is the first one of some graph. -/
theorem within_firstRoute (source dest : String) :
    Within Still (firstRoute t source dest)
      (fun route _ => ∃ g : Graph, (g.routes source dest t.policy).head? = some route) l := by
  unfold firstRoute
  exact within_currentGraph.bind fun g l₁ _ _ => within_orRefuse fun _ hroute => ⟨g, hroute⟩

theorem within_quote (symbol : String) (value : Decimal) (dest : String) :
    Within Still (quote t symbol value dest) (fun _ _ => True) l := by
  unfold quote convert
  refine (within_requireActive dest).bind fun _ l₁ _ _ => ?_
  refine Within.bind (Q := fun _ _ => True) ?_ fun _ l₂ _ _ => within_pure trivial
  exact (within_firstRoute _ dest).bind fun _ l₃ _ _ => within_ofExcept fun _ _ => trivial

/-! ## 4. Transfers -/

/-- A movement as a service puts it together: within one currency, of an amount that was
checked. -/
structure Served (l : Ledger (Faulty Memory)) (mv : Movement) : Prop where
  even : mv.destAmount = mv.sourceAmount
  vouched : l.memory.Vouches mv.sourceAmount

/-- **A transfer with a receipt:** after a quiet preparation the engine gave one. -/
def Transferred (l : Ledger (Faulty Memory)) (ref : Option String) (r : Receipt)
    (l' : Ledger (Faulty Memory)) : Prop :=
  ∃ l₁ mv, l.Evolves Effect.Quiet l₁ ∧ l₁.Served mv ∧ mv.ref = ref ∧ Receives l₁ .generic mv r l'

/-- **A transfer without one:** after a quiet preparation the engine failed, or was not asked. -/
def Stuck (l : Ledger (Faulty Memory)) (ref : Option String) (l' : Ledger (Faulty Memory)) : Prop :=
  l.Evolves Effect.Quiet l' ∨
    ∃ l₁ mv, l.Evolves Effect.Quiet l₁ ∧ l₁.Served mv ∧ mv.ref = ref ∧ Fails l₁ .generic mv l'

/-- **A transfer that was prepared:** what was looked up and checked for it, and the movement that
came of it. -/
structure Prepared (l : Ledger (Faulty Memory)) (r : TransferRequest) (mv : Movement)
    (l₁ : Ledger (Faulty Memory)) : Prop where
  moved : l.Evolves Effect.Quiet l₁
  kinds : (r.senderKind ≠ .cashout && r.receiverKind ≠ .cashout) = true
  currency : ∃ c, l.memory.currencies.find? r.symbol = some c ∧ c.isActive = true ∧
    c.checkedAmount r.amount = .ok mv.sourceAmount
  movement : mv = .ofAmount mv.source mv.dest mv.sourceAmount r.category r.description r.ref
  source : l₁.memory.Knows r.senderUuid r.symbol r.senderKind mv.source
  dest : l.memory.Sound → l₁.memory.Knows r.receiverUuid r.symbol r.receiverKind mv.dest

theorem Prepared.served {r : TransferRequest} {mv : Movement} (h : l.Prepared r mv l') :
    l'.Served mv := by
  obtain ⟨c, hc, -, ha⟩ := h.currency
  exact ⟨by rw [h.movement]; rfl, h.moved.vouches (vouches_of_checked hc ha)⟩

theorem Prepared.ref {r : TransferRequest} {mv : Movement} (h : l.Prepared r mv l') :
    mv.ref = r.ref := by
  rw [h.movement]
  rfl

/-- **Moving funds between two owners comes down to posting,** once everything is prepared. -/
theorem ends_transfer_prepared (r : TransferRequest) {Q : Receipt → Ledger (Faulty Memory) → Prop}
    {E : Stop → Ledger (Faulty Memory) → Prop}
    (stopped : ∀ stop l', l.Evolves Effect.Quiet l' → E stop l')
    (prepared : ∀ mv l', l.Prepared r mv l' → (post t .generic mv).Ends Q E l') :
    (transfer t r).Ends Q E l := by
  have still : ∀ stop l', l.Still l' → E stop l' := fun _ _ h => stopped _ _ (.of_still h)
  unfold transfer
  refine (Still.refl l).next still_require still fun _ l₁ h₁ kinds => ?_
  refine h₁.next (within_requireActive r.symbol) still fun c l₂ h₂ hc => ?_
  rw [h₁.memory] at hc
  have hsymbol := CurrencyTable.find?_symbol hc.1
  refine h₂.next still_ofExcept still fun a l₃ h₃ ha => ?_
  refine h₃.next (requireOwner_finds _) still fun sender l₄ h₄ hsender => ?_
  refine h₄.next (within_requireWallet _ _ _) still fun source l₅ h₅ hsource => ?_
  rw [h₃.memory] at hsender
  rw [h₄.memory, hsymbol] at hsource
  have hknown : l.memory.Knows r.senderUuid r.symbol r.senderKind source :=
    ⟨sender, hsender, hsource⟩
  -- The receiver need not be there yet.
  have h₅ : l.Evolves Effect.Quiet l₅ := .of_still h₅
  refine (within_findOrCreateOwner .owner _).and_then (fun receiver l₆ h₆ hreceiver => ?_)
    fun _ _ h => stopped _ _ (h₅.trans h)
  have h₆ := h₅.trans h₆
  refine (findOrCreateWallet_finds _ _ (fun w hw => .wallet w hw)
    (hasOwner_of_owner? hreceiver).1).and_then (fun dest l₇ h₇ hdest => ?_)
    fun _ _ h => stopped _ _ (h₆.trans h)
  refine prepared _ l₇
    ⟨h₆.trans h₇, kinds, ⟨c, hc.1, hc.2, ha⟩, rfl, (h₆.trans h₇).knows hknown, fun hl => ?_⟩
  obtain ⟨o, ho, hid⟩ := h₇.account hreceiver
  refine ⟨o, ho, ?_⟩
  rw [hid, ← hsymbol]
  exact hdest (h₆.sound hl)

/-- **Moving funds between two owners.** -/
theorem ends_transfer (r : TransferRequest) :
    (transfer t r).Ends (fun receipt l' => l.Transferred r.ref receipt l')
      (fun _ l' => l.Stuck r.ref l') l :=
  ends_transfer_prepared r (fun _ _ h => .inl h) fun mv l₁ h =>
    Ends.mono ends_post (fun _ _ hr => ⟨l₁, mv, h.moved, h.served, h.ref, hr⟩)
      fun _ _ hf => .inr ⟨l₁, mv, h.moved, h.served, h.ref, hf⟩

theorem ends_deposit (symbol receiver : String) (kind : WalletKind) (amount : Decimal)
    (description ref : Option String) :
    (deposit t symbol receiver kind amount description ref).Ends
      (fun receipt l' => l.Transferred ref receipt l') (fun _ l' => l.Stuck ref l') l := by
  have stopped : ∀ (_ : Stop) l', l.Still l' → l.Stuck ref l' := fun _ _ h => .inl (.of_still h)
  unfold deposit
  refine (Still.refl l).next (within_findOwner receiver) stopped fun found l₁ h₁ _ => ?_
  refine h₁.next still_require stopped fun _ l₂ h₂ _ => ?_
  have h₂ : l.Evolves Effect.Quiet l₂ := .of_still h₂
  refine Ends.mono (ends_transfer _) (fun receipt l' h => ?_) fun _ l' h => ?_
  · obtain ⟨l₃, mv, h₃, hrest⟩ := h
    exact ⟨l₃, mv, h₂.trans h₃, hrest⟩
  · rcases h with h | ⟨l₃, mv, h₃, hrest⟩
    · exact .inl (h₂.trans h)
    · exact .inr ⟨l₃, mv, h₂.trans h₃, hrest⟩

/-- The effects that a service permits itself when it moves funds. -/
structure Permits (f : Effect → Prop) (access : Access) (ref : Option String) : Prop where
  quiet : ∀ e, Effect.Quiet e → f e
  transfer : ∀ p, p.ref = ref → f (.transfer access p)

theorem Posted.evolves {access : Access} {mv : Movement} {p : Posting}
    (h : l.Posted access mv p l') (hf : f (.transfer access p)) (hmv : l.Served mv) :
    l.Evolves f l' := by
  obtain ⟨table, hposts, hm⟩ := h.made
  refine ⟨h.toFollows, ?_⟩
  rw [hm]
  exact .single (.transfer hposts hmv.even hmv.vouched) hf

theorem Served.evolves {mv : Movement} (h : l.Served mv) (hl : l.Evolves f l') : l'.Served mv :=
  ⟨h.even, hl.vouches h.vouched⟩

/-- The record of a movement bears the movement's reference. -/
theorem Posted.ref {access : Access} {mv : Movement} {p : Posting}
    (h : l.Posted access mv p l') : p.ref = mv.ref := by
  obtain ⟨table, hposts, -⟩ := h.made
  cases hposts with
  | made => rfl

theorem Receives.evolves {access : Access} {mv : Movement} {r : Receipt}
    (h : Receives l access mv r l') (hf : Permits f access mv.ref) (hmv : l.Served mv) :
    l.Evolves f l' := by
  cases h with
  | replayed p _ _ _ waits => exact waits.evolves (hf.quiet _ .conflict)
  | made p l₁ _ waits posted =>
    have h₁ : l.Evolves f l₁ := waits.evolves (hf.quiet _ .conflict)
    exact h₁.trans (posted.evolves (hf.transfer p posted.ref) (hmv.evolves h₁))

theorem Fails.evolves {access : Access} {mv : Movement} (h : Fails l access mv l')
    (hf : Permits f access mv.ref) (hmv : l.Served mv) : l.Evolves f l' := by
  cases h with
  | refused _ waits => exact waits.evolves (hf.quiet _ .conflict)
  | struck p l₁ _ _ waits posted =>
    have h₁ : l.Evolves f l₁ := waits.evolves (hf.quiet _ .conflict)
    exact h₁.trans (posted.evolves (hf.transfer p posted.ref) (hmv.evolves h₁))

theorem Transferred.evolves {ref : Option String} {r : Receipt} (h : l.Transferred ref r l')
    (hf : Permits f .generic ref) : l.Evolves f l' := by
  obtain ⟨l₁, mv, h₁, hmv, rfl, hr⟩ := h
  exact (h₁.mono hf.quiet).trans (hr.evolves hf hmv)

theorem Stuck.evolves {ref : Option String} (h : l.Stuck ref l') (hf : Permits f .generic ref) :
    l.Evolves f l' := by
  rcases h with h | ⟨l₁, mv, h₁, hmv, rfl, hr⟩
  · exact h.mono hf.quiet
  · exact (h₁.mono hf.quiet).trans (hr.evolves hf hmv)

theorem within_transfer (r : TransferRequest) (hf : Permits f .generic r.ref) :
    Within (Evolves f) (transfer t r) (fun _ _ => True) l :=
  Ends.mono (ends_transfer r) (fun _ _ h => ⟨h.evolves hf, trivial⟩) fun _ _ h => h.evolves hf

end Ledger

end WalletLedger
