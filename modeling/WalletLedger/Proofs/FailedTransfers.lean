/-
What a failed transfer leaves behind.

A transfer looks up all that it needs before it writes anything. Then it makes sure that its
receiver has an account and a wallet, and posts. A posting that fails has written nothing, but an
account and a wallet that were opened for it stay; so these are all that a failed transfer leaves
behind, and it leaves them only where all but the posting was in order (`failed_transfer_opens`).

The runs here are over the memory itself, in which no call fails. Conflicts may be pending.
-/
import WalletLedger.Proofs.Retries
import WalletLedger.Proofs.Runs

set_option autoImplicit false

namespace WalletLedger

open WalletLedger.Action

/-! ## 1. What may be opened -/

namespace WalletTable

/-- The owner that is created for a receiver who is not known. -/
def newOwner (t : WalletTable) (uuid : String) : Owner where
  id := t.lastOwnerId + 1
  uuid
  title := "not set"
  level := "1"
  flags := Owner.defaultFlags

/-- The wallet that is created for a receiver who has none. -/
def newWallet (t : WalletTable) (owner : Owner) (currency : String) (kind : WalletKind) :
    Wallet where
  id := t.lastWalletId + 1
  ownerId := owner.id
  ownerUuid := owner.uuid
  currency
  kind
  balance := .zero
  version := 0

end WalletTable

namespace Ledger

variable {l l' : Ledger Memory} {r : TransferRequest} {α β : Type}

/-- **A request in order:** its currency can be moved in that amount, and its sender is known and
has a wallet to send from. Whether the funds suffice is not looked at. -/
structure InOrder (l : Ledger Memory) (r : TransferRequest) : Prop where
  kinds : r.senderKind ≠ .cashout ∧ r.receiverKind ≠ .cashout
  amount : ∃ currency amount, l.stores.currencies.find? r.symbol = some currency ∧
    currency.isActive = true ∧ currency.checkedAmount r.amount = .ok amount
  source : ∃ sender wallet, l.stores.wallets.owner? r.senderUuid = some sender ∧
    l.stores.wallets.find? ⟨sender.id, r.symbol, r.senderKind⟩ = some wallet

/-- **Nothing happens but that the receiver gets an account or a wallet,** and that only where the
request is in order. The clock, the pending conflicts and the events are left out. -/
structure OnlyOpens (l : Ledger Memory) (r : TransferRequest) (l' : Ledger Memory) : Prop where
  log : l'.stores.wallets.log = l.stores.wallets.log
  refs : l'.stores.wallets.refs = l.stores.wallets.refs
  counters : l'.counters = l.counters
  graph : l'.graph = l.graph
  policies : l'.policies = l.policies
  /-- The tables of currencies, rates, reservations and withdrawals, and the identifiers. -/
  others : l'.stores.withWallets l.stores.wallets = l.stores
  owners : l'.stores.wallets.owners = l.stores.wallets.owners ∨
    l.stores.wallets.owner? r.receiverUuid = none ∧
      l'.stores.wallets.owners =
        l.stores.wallets.owners ++ [l.stores.wallets.newOwner r.receiverUuid]
  wallets : l'.stores.wallets.wallets = l.stores.wallets.wallets ∧
      l'.stores.wallets.keys = l.stores.wallets.keys ∨
    ∃ receiver, l'.stores.wallets.owner? r.receiverUuid = some receiver ∧
      l.stores.wallets.find? ⟨receiver.id, r.symbol, r.receiverKind⟩ = none ∧
      l'.stores.wallets.wallets = l.stores.wallets.wallets ++
        [l.stores.wallets.newWallet receiver r.symbol r.receiverKind] ∧
      l'.stores.wallets.keys = l.stores.wallets.keys ++
        [(⟨receiver.id, r.symbol, r.receiverKind⟩, l.stores.wallets.lastWalletId + 1)]
  accepted : l'.stores.wallets.owners ≠ l.stores.wallets.owners ∨
    l'.stores.wallets.wallets ≠ l.stores.wallets.wallets → l.InOrder r

theorem OnlyOpens.refl : l.OnlyOpens r l where
  log := rfl
  refs := rfl
  counters := rfl
  graph := rfl
  policies := rfl
  others := rfl
  owners := .inl rfl
  wallets := .inl ⟨rfl, rfl⟩
  accepted h := h.elim (absurd rfl) (absurd rfl)

theorem OnlyOpens.busy (h : l.OnlyOpens r l') (n : Nat) (c : Instant) :
    l.OnlyOpens r (l'.busy n c) :=
  { h with }

/-! ## 2. Looking up -/

/-- **An action that only looks:** the ledger is the same afterwards. -/
def Looks (a : Action (Ledger Memory) α) (Q : α → Prop) (l : Ledger Memory) : Prop :=
  a.Ends (fun v l' => l' = l ∧ Q v) (fun _ l' => l' = l) l

theorem Looks.next {a : Action (Ledger Memory) α} {f : α → Action (Ledger Memory) β}
    {Q : α → Prop} {Q' : β → Ledger Memory → Prop} {E : Stop → Ledger Memory → Prop}
    (h : Looks a Q l) (hE : ∀ stop, E stop l) (hf : ∀ v, Q v → (f v).Ends Q' E l) :
    (a >>= f).Ends Q' E l := by
  refine (ends_bind f).2 (Ends.mono h ?_ ?_)
  · rintro v _ ⟨rfl, hv⟩
    exact hf v hv
  · rintro stop _ rfl
    exact hE stop

/-- The rule for calls. -/
theorem ends_ask_memory {c : Call α} {Q : α → Ledger Memory → Prop}
    {E : Stop → Ledger Memory → Prop}
    (answered : ∀ v m, l.stores.answer c = .ok (v, m) → Q v { l with stores := m })
    (refused : ∀ cause, l.stores.answer c = .error cause → E (.refused cause) l) :
    (ask c).Ends Q E l := by
  rw [Ends, runIn_ask]
  cases hanswer : l.stores.answer c with
  | ok x => exact answered _ _ hanswer
  | error cause => exact refused cause hanswer

/-- A call that only reads. -/
theorem answers_ask {c : Call α} {v : α} (h : l.stores.answer c = .ok (v, l.stores)) :
    (ask c).Answers v l := by
  rw [Answers, runIn_ask, h]

theorem looks_require (cause : Error) (b : Bool) : Looks (require cause b) (fun _ => b = true) l :=
  (ends_require cause b).2 ⟨fun hb => ⟨rfl, hb⟩, fun _ => rfl⟩

theorem looks_ofExcept (x : Except Error α) : Looks (ofExcept x) (fun v => x = .ok v) l :=
  (ends_ofExcept x).2 ⟨fun _ hv => ⟨rfl, hv⟩, fun _ _ => rfl⟩

/-- What is looked up must be there. -/
theorem looks_required {c : Call (Option α)} {o : Option α} {cause : Error}
    (h : l.stores.answer c = .ok (o, l.stores)) :
    Looks (ask c >>= orRefuse cause) (fun v => o = some v) l := by
  refine (answers_ask h).ends_bind.2 ?_
  exact (ends_orRefuse cause o).2 ⟨fun v hv => ⟨rfl, hv⟩, fun _ => rfl⟩

theorem looks_requireActive (symbol : String) :
    Looks (requireActive symbol)
      (fun c => l.stores.currencies.find? symbol = some c ∧ c.isActive = true) l := by
  unfold requireActive requireCurrency
  refine (looks_required (c := .findCurrency symbol) rfl).next (fun _ => rfl) fun c hc => ?_
  refine (looks_require _ _).next (fun _ => rfl) fun _ active => ?_
  exact ⟨rfl, hc, active⟩

theorem looks_requireOwner (uuid : String) :
    Looks (requireOwner uuid) (fun o => l.stores.wallets.owner? uuid = some o) l :=
  looks_required rfl

theorem looks_requireWallet (owner : Owner) (currency : String) (kind : WalletKind) :
    Looks (requireWallet owner currency kind)
      (fun w => l.stores.wallets.find? ⟨owner.id, currency, kind⟩ = some w) l :=
  looks_required rfl

/-! ## 3. Opening an account and a wallet -/

/-- **The account of a receiver,** who was known or is known now. -/
inductive Enrols (l : Ledger Memory) (uuid : String) : Owner → Ledger Memory → Prop
  | known (owner : Owner) (found : l.stores.wallets.owner? uuid = some owner) :
      Enrols l uuid owner l
  | created (unknown : l.stores.wallets.owner? uuid = none) (events : List Event) :
      Enrols l uuid (l.stores.wallets.newOwner uuid) { l with
        stores := l.stores.withWallets { l.stores.wallets with
          owners := l.stores.wallets.owners ++ [l.stores.wallets.newOwner uuid]
          lastOwnerId := l.stores.wallets.lastOwnerId + 1 }
        events }

/-- **The wallet of an account,** which was there or is there now. -/
inductive Equips (l : Ledger Memory) (owner : Owner) (currency : String) (kind : WalletKind) :
    Wallet → Ledger Memory → Prop
  | known (w : Wallet) (found : l.stores.wallets.find? ⟨owner.id, currency, kind⟩ = some w) :
      Equips l owner currency kind w l
  | created (missing : l.stores.wallets.find? ⟨owner.id, currency, kind⟩ = none) :
      Equips l owner currency kind (l.stores.wallets.newWallet owner currency kind) { l with
        stores := l.stores.withWallets { l.stores.wallets with
          wallets := l.stores.wallets.wallets ++
            [l.stores.wallets.newWallet owner currency kind]
          keys := l.stores.wallets.keys ++
            [(⟨owner.id, currency, kind⟩, l.stores.wallets.lastWalletId + 1)]
          lastWalletId := l.stores.wallets.lastWalletId + 1 } }

/-- An owner who is not known can be created. -/
theorem runIn_createOwner {uuid : String} (unknown : l.stores.wallets.owner? uuid = none) :
    ∃ l', (createOwner uuid "not set" "1").runIn l =
      (.ok (l.stores.wallets.newOwner uuid), l') ∧
        l.Enrols uuid (l.stores.wallets.newOwner uuid) l' := by
  have hcreate : l.stores.wallets.createOwner uuid "not set" "1" Owner.defaultFlags =
      .ok (l.stores.wallets.newOwner uuid, { l.stores.wallets with
        owners := l.stores.wallets.owners ++ [l.stores.wallets.newOwner uuid]
        lastOwnerId := l.stores.wallets.lastOwnerId + 1 }) := by
    rw [WalletTable.createOwner, unknown]
    rfl
  have hanswer : l.stores.answer (.createOwner uuid "not set" "1" Owner.defaultFlags) = _ :=
    congrArg (Memory.answering l.stores.withWallets) hcreate
  unfold createOwner
  rw [runIn_bind, runIn_ask, hanswer]
  exact ⟨_, rfl, .created unknown _⟩

theorem ends_findOrCreateOwner (uuid : String) :
    (findOrCreateOwner uuid).Ends (l.Enrols uuid) (fun _ _ => False) l := by
  unfold findOrCreateOwner
  refine (answers_ask (c := .findOwner uuid) rfl).ends_bind.2 ?_
  cases hfound : l.stores.wallets.owner? uuid with
  | some owner => exact .known owner hfound
  | none =>
    obtain ⟨l', hrun, henrols⟩ := runIn_createOwner hfound
    refine (ends_bind _).2 (ends_attempt.2 ?_)
    rw [Ends, hrun]
    exact henrols

/-- A wallet that is not there is created empty, or else nothing changes. -/
theorem ends_createWallet {owner : Owner} {currency : String} {kind : WalletKind}
    (missing : l.stores.wallets.find? ⟨owner.id, currency, kind⟩ = none) :
    (createWallet owner (.zero currency) kind).Ends (l.Equips owner currency kind)
      (fun _ l' => l' = l) l := by
  refine ends_ask_memory (fun w m hanswer => ?_) fun _ _ => rfl
  change Memory.answering l.stores.withWallets (l.stores.wallets.createWallet owner
    ⟨owner.id, currency, kind⟩ (.zero currency)) = _ at hanswer
  cases hcreate : l.stores.wallets.createWallet owner ⟨owner.id, currency, kind⟩
      (.zero currency) with
  | error cause => rw [hcreate] at hanswer; cases hanswer
  | ok x =>
    obtain ⟨w', table⟩ := x
    rw [hcreate] at hanswer
    cases hanswer
    obtain ⟨-, -, -, rfl, rfl⟩ := WalletTable.createWallet_eq hcreate
    exact .created missing

theorem ends_findOrCreateWallet (owner : Owner) (currency : String) (kind : WalletKind) :
    (findOrCreateWallet owner currency kind).Ends (l.Equips owner currency kind)
      (fun _ l' => l' = l) l := by
  unfold findOrCreateWallet findWallet
  refine (answers_ask (c := .findWallet _) rfl).ends_bind.2 ?_
  cases hfound : l.stores.wallets.find? ⟨owner.id, currency, kind⟩ with
  | some w => exact .known w hfound
  | none =>
    refine (ends_bind _).2 (ends_attempt.2 (Ends.mono (ends_createWallet hfound)
      (fun _ _ h => h) ?_))
    rintro stop _ rfl
    refine ⟨fun cause _ => ?_, fun _ => rfl⟩
    cases cause with
    | walletExists =>
      -- It may have been created in between, so it is looked up once more.
      refine Ends.mono (looks_requireWallet owner currency kind) ?_ fun _ _ h => h
      rintro w _ ⟨rfl, hw⟩
      exact .known w hw
    | _ => rfl

/-! ## 4. Posting -/

/-- **If the action fails,** nothing but pending conflicts was used up. -/
def Spends (a : Action (Ledger Memory) α) (l : Ledger Memory) : Prop :=
  ∀ n c, a.Ends (fun _ _ => True) (fun _ l' => ∃ n' c', l' = l.busy n' c') (l.busy n c)

theorem Unaware.spends {a : Action (Ledger Memory) α} {x : Except Error α} (h : Unaware l a x) :
    Spends a l := by
  intro n c
  rw [Ends, h]
  cases x with
  | ok v => trivial
  | error cause => exact ⟨n, c, rfl⟩

theorem Optimistic.spends {same : α → α → Prop} {foreseen : Error → Prop}
    {a : Action (Ledger Memory) (Option α)} (h : Optimistic same foreseen l a) (exhausted : Error)
    (attempts : Nat) : Spends (retry exhausted a attempts) l := by
  cases h with
  | early cause fails =>
    -- Without attempts it gives up before it fails.
    cases attempts with
    | zero => exact fun n c => ⟨n, c, rfl⟩
    | succ k => exact fails.stops.spends
  | writes tick result left late settles alike =>
    intro n c
    rw [Ends]
    obtain hlt | hle := Nat.lt_or_ge n attempts
    · have written : ∃ c', (retry exhausted a attempts).runIn (l.busy n c) =
          (.ok (result c'), left c') := runIn_retry_of_lt late settles attempts n c hlt
      obtain ⟨c', hrun⟩ := written
      rw [hrun]
      trivial
    · have contended : ∃ c', (retry exhausted a attempts).runIn (l.busy n c) =
          (.error (.refused exhausted), l.busy (n - attempts) c') :=
        runIn_retry_of_le late attempts n c hle
      obtain ⟨c', hrun⟩ := contended
      rw [hrun]
      exact ⟨_, _, rfl⟩

theorem Guarded.spends {exhausted : Error} {attempts : Nat} {same : α → α → Prop}
    {foreseen : Except Error α → Prop} {a : Action (Ledger Memory) α}
    (h : Guarded exhausted attempts same foreseen l a) : Spends a l := by
  cases h with
  | reads x h hx => exact h.spends
  | repeats attempt h reached =>
    intro n c
    rw [Ends, reached]
    exact h.spends exhausted attempts n c

/-- **A posting that fails** is not made. -/
theorem spends_post {t : Terms} {access : Access} {mv : Movement} : Spends (post t access mv) l :=
  guarded_post.spends

/-! ## 5. Transfers -/

/-- Either way the receiver is known afterwards. -/
theorem Enrols.found {uuid : String} {owner : Owner} (h : l.Enrols uuid owner l') :
    l'.stores.wallets.owner? uuid = some owner := by
  cases h with
  | known _ found => exact found
  | created unknown events =>
    have hnew : [l.stores.wallets.newOwner uuid].find? (·.uuid == uuid) =
        some (l.stores.wallets.newOwner uuid) := List.find?_cons_of_pos (beq_self_eq_true uuid)
    have hold : l.stores.wallets.owners.find? (·.uuid == uuid) = none := unknown
    exact List.find?_append.trans (by rw [hold, hnew]; rfl)

section Opening

variable {owner : Owner}

theorem Enrols.onlyOpens (h : l.Enrols r.receiverUuid owner l') (inOrder : l.InOrder r) :
    l.OnlyOpens r l' := by
  cases h with
  | known => exact .refl
  | created unknown events =>
    exact { (OnlyOpens.refl : l.OnlyOpens r l) with
      owners := .inr ⟨unknown, rfl⟩
      wallets := .inl ⟨rfl, rfl⟩
      accepted := fun _ => inOrder }

theorem Equips.onlyOpens {l₁ : Ledger Memory} {w : Wallet}
    (enrols : l.Enrols r.receiverUuid owner l₁)
    (h : l₁.Equips owner r.symbol r.receiverKind w l') (inOrder : l.InOrder r) :
    l.OnlyOpens r l' := by
  have opened := enrols.onlyOpens inOrder
  cases h with
  | known => exact opened
  | created missing =>
    have found := enrols.found
    -- An account that is opened changes neither the wallets nor the number of the next one.
    cases enrols <;>
      exact { opened with
        wallets := .inr ⟨_, found, missing, rfl, rfl⟩
        accepted := fun _ => inOrder }

end Opening

/-- **A transfer that fails** has opened at most an account and a wallet for its receiver. -/
theorem ends_transfer_failed (t : Terms) (r : TransferRequest) :
    (transfer t r).Ends (fun _ _ => True) (fun _ l' => l.OnlyOpens r l') l := by
  have untouched : ∀ _ : Stop, l.OnlyOpens r l := fun _ => .refl
  unfold transfer
  refine (looks_require _ _).next untouched fun _ kinds => ?_
  refine (looks_requireActive _).next untouched fun currency hcurrency => ?_
  refine (looks_ofExcept _).next untouched fun amount hamount => ?_
  refine (looks_requireOwner _).next untouched fun sender hsender => ?_
  refine (looks_requireWallet _ _ _).next untouched fun source hsource => ?_
  obtain ⟨found, active⟩ := hcurrency
  rw [CurrencyTable.find?_symbol found] at hsource ⊢
  have inOrder : l.InOrder r :=
    ⟨by simpa using kinds, ⟨currency, amount, found, active, hamount⟩,
      sender, source, hsender, hsource⟩
  -- From here on the ledger may change, so what was looked up has to be said of `l` beforehand.
  refine (ends_bind _).2 (Ends.mono (ends_findOrCreateOwner _) (fun receiver l₁ enrols => ?_)
    fun _ _ => False.elim)
  refine (ends_bind _).2 (Ends.mono (ends_findOrCreateWallet _ _ _) (fun dest l₂ equips => ?_) ?_)
  · refine Ends.mono (spends_post l₂.stores.wallets.conflicts l₂.clock) (fun _ _ h => h) ?_
    rintro stop _ ⟨n, c, rfl⟩
    exact (equips.onlyOpens enrols inOrder).busy n c
  · rintro stop _ rfl
    exact enrols.onlyOpens inOrder

/-- **The services that move funds,** each with the request that it makes of what it is given. -/
inductive Moves (t : Terms) : TransferRequest → Action (Ledger Memory) Receipt → Prop
  | transfer (r : TransferRequest) : Moves t r (transfer t r)
  | deposit (symbol receiver : String) (kind : WalletKind) (amount : Decimal)
      (description ref : Option String) :
      Moves t
        { symbol, senderUuid := t.systemUuid, senderKind := .main, receiverUuid := receiver,
          receiverKind := kind, amount, description, ref, category := .deposit }
        (deposit t symbol receiver kind amount description ref)
  | manually (symbol sender receiver : String) (amount : Decimal)
      (description ref : Option String) :
      Moves t
        { symbol, senderUuid := sender, senderKind := .main, receiverUuid := receiver,
          receiverKind := .main, amount, description, ref, category := .depositManually }
        (depositManually t symbol sender receiver amount description ref)

/-- **A transfer that fails leaves money alone.** The postings, their references, the counters, and
the owners and wallets that were there are as before. The receiver may have an account now, with the
flags of a new one, and an empty wallet; if so, the request was in order. -/
theorem failed_transfer_opens {t : Terms} {a : Action (Ledger Memory) Receipt} {stop : Stop}
    (hmoves : Moves t r a) (hstop : (a.runIn l).1 = .error stop) : l.OnlyOpens r (a.runIn l).2 := by
  have failed : a.Ends (fun _ _ => True) (fun _ l' => l.OnlyOpens r l') l := by
    cases hmoves with
    | transfer r => exact ends_transfer_failed t r
    | deposit symbol receiver kind amount description ref =>
      refine (answers_ask (c := .findOwner receiver) rfl).ends_bind.2 ?_
      exact (looks_require _ _).next (fun _ => .refl) fun _ _ => ends_transfer_failed t _
    | manually symbol sender receiver amount description ref => exact ends_transfer_failed t _
  exact failed.of_error hstop

end Ledger

namespace Small

/-- The small ledger while as many conflicts are pending as there are attempts. -/
def contended : Ledger Memory := (Ledger.start ledger.memory 0).withPending terms.maxAttempts

/-- All the gold of an owner, to a receiver who is not known. -/
def gift : TransferRequest := transfer "ann" "bob" 50 none

end Small

open WalletLedger.Small in
/-- The funds would suffice, but the attempts are used up; the receiver is the third owner then, and
has the fourth wallet. -/
theorem Ledger.failed_transfer_opens_small :
    let after := (Ledger.transfer terms gift).runIn contended
    after.1 = .error (.refused (.contention 3 4)) ∧ contended.OnlyOpens gift after.2 ∧
      after.2.stores.wallets.owner? "bob" = some ⟨3, "bob", "not set", "1", Owner.defaultFlags⟩ ∧
      after.2.stores.wallets.wallets =
        contended.stores.wallets.wallets ++ [⟨4, 3, "bob", "GOLD", .main, .zero, 0⟩] := by
  have hstop : ((Ledger.transfer terms gift).runIn contended).1 =
      .error (.refused (.contention 3 4)) := by decide +kernel
  refine ⟨hstop, Ledger.failed_transfer_opens (.transfer gift) hstop, ?_, ?_⟩
  · decide +kernel
  · decide +kernel

end WalletLedger
