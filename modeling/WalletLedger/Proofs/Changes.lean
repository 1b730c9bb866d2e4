/-
What a run may write.

Everything that is proved about runs goes through one relation. `Change m e m'` says that one call
took the memory from `m` to `m'` with the effect `e`, and it lists every way in which a service
writes: there is one constructor for each kind of write, with what the service had checked before it
as the constructor's premises. `Ledger.Evolves f` is any number of such writes whose effects meet
`f`. A service is summed up once, by the effects it may have (`Services.lean`); an invariant is
proved once for each constructor of `Change`; and neither has to be looked at again for the other.

1. `Effect` names the kinds of writes, with as much of what is written as a restriction on runs can
   speak of: the wallet that is opened, the posting, the row.
2. Facts about the memory that outlast every change (`Change.holds_wallet` and its like): an owner
   and a wallet keep their identity, a row keeps its amounts, a currency keeps its precision, a
   posting stays in the log. A service learns such a fact when it reads, and uses it when it writes.
3. `Ledger.Evolves` is a preorder, so the moves of a service compose.
-/
import WalletLedger.Ledger.Upkeep
import WalletLedger.Ledger.Withdrawals
import WalletLedger.Proofs.Action
import WalletLedger.Store.Faults
import WalletLedger.Store.Memory
import Mathlib.Logic.Relation
import Mathlib.Tactic.SplitIfs

set_option autoImplicit false

namespace WalletLedger

/-! ## 1. Identities -/

/-- Two states of one wallet: they differ at most in balance and version. -/
structure Wallet.Same (w x : Wallet) : Prop where
  id : w.id = x.id
  ownerId : w.ownerId = x.ownerId
  ownerUuid : w.ownerUuid = x.ownerUuid
  currency : w.currency = x.currency
  kind : w.kind = x.kind

/-- Two states of one row: what was agreed on at its start is equal. -/
structure Withdrawal.Same (v w : Withdrawal) : Prop where
  id : v.id = w.id
  ownerUuid : v.ownerUuid = w.ownerUuid
  currency : v.currency = w.currency
  walletId : v.walletId = w.walletId
  amount : v.amount = w.amount
  appliedFee : v.appliedFee = w.appliedFee
  request : v.requestTransaction = w.requestTransaction
  type : v.type = w.type

theorem Wallet.Same.refl (w : Wallet) : w.Same w := ⟨rfl, rfl, rfl, rfl, rfl⟩

theorem Wallet.Same.key {w x : Wallet} (h : w.Same x) : w.key = x.key := by
  rw [Wallet.key, Wallet.key, h.ownerId, h.currency, h.kind]

theorem Wallet.Same.trans {w x y : Wallet} (h : w.Same x) (h' : x.Same y) : w.Same y :=
  ⟨h.id.trans h'.id, h.ownerId.trans h'.ownerId, h.ownerUuid.trans h'.ownerUuid,
    h.currency.trans h'.currency, h.kind.trans h'.kind⟩

theorem Withdrawal.Same.refl (w : Withdrawal) : w.Same w := ⟨rfl, rfl, rfl, rfl, rfl, rfl, rfl, rfl⟩

theorem Withdrawal.Same.trans {u v w : Withdrawal} (h : u.Same v) (h' : v.Same w) : u.Same w :=
  ⟨h.id.trans h'.id, h.ownerUuid.trans h'.ownerUuid, h.currency.trans h'.currency,
    h.walletId.trans h'.walletId, h.amount.trans h'.amount, h.appliedFee.trans h'.appliedFee,
    h.request.trans h'.request, h.type.trans h'.type⟩

theorem Withdrawal.Same.symm {v w : Withdrawal} (h : v.Same w) : w.Same v :=
  ⟨h.id.symm, h.ownerUuid.symm, h.currency.symm, h.walletId.symm, h.amount.symm,
    h.appliedFee.symm, h.request.symm, h.type.symm⟩

theorem Wallet.same_written (b : BalanceWrite) (w : Wallet) : w.Same (WalletTable.written b w) :=
  ⟨rfl, rfl, rfl, rfl, rfl⟩

/-- A row's staged amount is fixed with the row. -/
theorem Withdrawal.Same.staged? {v w : Withdrawal} (h : v.Same w) : v.staged? = w.staged? := by
  rw [Withdrawal.staged?, Withdrawal.staged?, h.amount, h.appliedFee]

namespace Memory

/-- The owner's number and uuid are in the table. -/
def HasOwner (m : Memory) (o : Owner) : Prop :=
  ∃ x ∈ m.wallets.owners, x.id = o.id ∧ x.uuid = o.uuid

/-- The wallet is in the table, whatever it holds by now. -/
def HasWallet (m : Memory) (w : Wallet) : Prop :=
  ∃ x, m.wallets.wallet? w.id = some x ∧ w.Same x

/-- The row is in the table, in whatever state it is by now. -/
def HasRow (m : Memory) (w : Withdrawal) : Prop :=
  ∃ x, m.withdrawals.find? w.id = some x ∧ w.Same x

/-- A reservation with the number is in the table. -/
def HasNumber (m : Memory) (number : String) : Prop :=
  ∃ r ∈ m.reservations.rows, r.number = number

/-- A currency is registered with a number of fractional digits. -/
def HasPrecision (m : Memory) (symbol : String) (p : Nat) : Prop :=
  ∃ c, m.currencies.find? symbol = some c ∧ c.precision = p

/-- **An amount that services move:** it was checked against its currency, or it is what the cashout
wallet holds for a row. -/
def Vouches (m : Memory) (a : Amount) : Prop :=
  (∃ p, m.HasPrecision a.currency p ∧ a.value.normalize.scale ≤ p) ∨
    ∃ w, m.HasRow w ∧ w.currency = a.currency ∧ w.staged? = some a.value

/-- **What a service knows of a row** before it stores it. -/
inductive Enters (m : Memory) (d : WithdrawalDraft) : Prop
  /-- A request: the funds were checked and stand in the owner's cashout wallet. -/
  | requested (amount : Amount) (cashout : Wallet) (vouched : m.Vouches amount)
      (currency : d.currency = amount.currency)
      (net : amount.value.sub? d.appliedFee = some d.amount)
      (held : m.HasWallet cashout) (walletId : d.walletId = cashout.id)
      (kind : cashout.kind = .cashout) (owner : cashout.ownerUuid = d.ownerUuid)
      (same : cashout.currency = d.currency) (status : d.status = .created)
      (type : d.type = .onChain)
  /-- A payout that was made elsewhere. -/
  | manually (vouched : m.Vouches ⟨d.currency, d.amount⟩) (fee : d.appliedFee = .zero)
      (status : d.status = .done) (type : d.type = .manually)

end Memory

/-! ## 2. Changes -/

/-- **A posting is made:** it records a movement between two wallets as they are in the table, both
new balances are in order, and its reference is new. -/
inductive WalletTable.Posts (t : WalletTable) (access : Access) (mv : Movement) :
    Posting → WalletTable → Prop
  | made (source dest : Wallet) (sourceAfter destAfter : Decimal) (id : TransferId)
      (createdAt : Instant) (checked : mv.check = .ok ())
      (hsource : t.wallet? mv.source.id = some source)
      (hdest : t.wallet? mv.dest.id = some dest)
      (allowed : access.check source dest = .ok ())
      (debit : source.balanceAfter mv.debit = .ok sourceAfter)
      (credit : dest.balanceAfter mv.destAmount = .ok destAfter)
      (unused : mv.ref.bind t.byRef? = none) :
      Posts t access mv (mv.posting source dest sourceAfter destAfter id createdAt)
        (((t.write (source.write sourceAfter)).write (dest.write destAfter)).append
          (mv.posting source dest sourceAfter destAfter id createdAt))

/-- **The kinds of writes.** -/
inductive Effect where
  /-- A write of balances was told that it came too late. -/
  | conflict
  /-- Somebody asked for such conflicts. -/
  | pending
  /-- An owner was created or got new permissions. -/
  | owner
  /-- A wallet was opened. -/
  | wallet (w : Wallet)
  /-- One balance was changed by itself. -/
  | edit (walletId : Int)
  /-- A service moved funds within one currency. -/
  | transfer (access : Access) (p : Posting)
  /-- The engine was given a movement from outside. -/
  | movement (access : Access) (p : Posting)
  /-- A reservation was stored, or its status or settlement was changed. -/
  | reservation
  /-- A row of the withdrawals was stored. -/
  | row (w : Withdrawal)
  /-- A row of the withdrawals was changed. -/
  | rows
  | currency
  | rate

/-- The effects that append to the log. -/
def Effect.IsPosting : Effect → Prop
  | .transfer _ _ => True
  | .movement _ _ => True
  | _ => False

/-- The effects that open a wallet or change what one holds. -/
def Effect.ReachesWallets : Effect → Prop
  | .wallet _ => True
  | .edit _ => True
  | .transfer _ _ => True
  | .movement _ _ => True
  | _ => False

/-- **One write,** with what was checked before it. -/
inductive Change : Memory → Effect → Memory → Prop
  | conflict {m : Memory} {t : WalletTable} (h : m.wallets.takeConflict? = some t) :
      Change m .conflict (m.withWallets t)
  | pending {m : Memory} (n : Nat) :
      Change m .pending (m.withWallets { m.wallets with conflicts := n })
  | owner {m : Memory} {uuid title level : String} {flags : Int} {o : Owner} {t : WalletTable}
      (h : m.wallets.createOwner uuid title level flags = .ok (o, t)) :
      Change m .owner (m.withWallets t)
  | flags {m : Memory} {uuid : String} {flags : Int} {o : Owner} {t : WalletTable}
      (h : m.wallets.setFlags uuid flags = .ok (o, t)) :
      Change m .owner (m.withWallets t)
  | wallet {m : Memory} {owner : Owner} {initial : Amount} {kind : WalletKind} {w : Wallet}
      {t : WalletTable} (held : m.HasOwner owner)
      (h : m.wallets.createWallet owner ⟨owner.id, initial.currency, kind⟩ initial = .ok (w, t)) :
      Change m (.wallet w) (m.withWallets t)
  | edit {m : Memory} {w : Wallet} {change : Amount} {balance : Decimal}
      (held : m.wallets.wallet? w.id = some w) (h : w.balanceAfter change = .ok balance) :
      Change m (.edit w.id) (m.withWallets (m.wallets.write (w.write balance)))
  | transfer {m : Memory} {access : Access} {mv : Movement} {p : Posting} {t : WalletTable}
      (h : m.wallets.Posts access mv p t) (even : mv.destAmount = mv.sourceAmount)
      (vouched : m.Vouches mv.sourceAmount) :
      Change m (.transfer access p) { m.withWallets t with posted := m.posted + 1 }
  | movement {m : Memory} {access : Access} {mv : Movement} {p : Posting} {t : WalletTable}
      (h : m.wallets.Posts access mv p t) :
      Change m (.movement access p) { m.withWallets t with posted := m.posted + 1 }
  | reservation {m : Memory} (t : ReservationTable) (reserved claimed : Nat)
      (kept : ∀ number, m.HasNumber number → { m with reservations := t }.HasNumber number) :
      Change m .reservation { m with reservations := t, reserved, claimed }
  | row {m : Memory} {d : WithdrawalDraft} {now : Instant} {w : Withdrawal} {t : WithdrawalTable}
      (enters : m.Enters d) (h : m.withdrawals.insert d now = .ok (w, t)) :
      Change m (.row w) (m.withWithdrawals t)
  | rows {m : Memory} {w : Withdrawal} (held : m.HasRow w) :
      Change m .rows (m.withWithdrawals (m.withdrawals.replace w))
  | currency {m : Memory} {t : CurrencyTable}
      (h : ∀ s p, m.HasPrecision s p → (m.withCurrencies t).HasPrecision s p) :
      Change m .currency (m.withCurrencies t)
  | rate {m : Memory} (t : RateTable) : Change m .rate (m.withRates t)

/-- Any number of writes whose effects meet a condition. -/
def Memory.Writes (f : Effect → Prop) : Memory → Memory → Prop :=
  Relation.ReflTransGen fun m m' => ∃ e, f e ∧ Change m e m'

theorem Memory.Writes.single {f : Effect → Prop} {m m' : Memory} {e : Effect} (h : Change m e m')
    (he : f e) : m.Writes f m' :=
  Relation.ReflTransGen.single ⟨e, he, h⟩

/-- Fewer effects are a special case of more. -/
theorem Memory.Writes.mono {f g : Effect → Prop} {m m' : Memory} (hfg : ∀ e, f e → g e)
    (h : m.Writes f m') : m.Writes g m' :=
  Relation.ReflTransGen.mono (fun _ _ ⟨e, he, hc⟩ => ⟨e, hfg e he, hc⟩) m m' h

/-- **Invariants.** What every write with a permitted effect keeps is kept by all of them. -/
theorem Memory.Writes.preserves {f : Effect → Prop} {I : Memory → Prop}
    (step : ∀ m e m', f e → Change m e m' → I m → I m') {m m' : Memory} (h : m.Writes f m')
    (hm : I m) : I m' := by
  induction h with
  | refl => exact hm
  | tail _ hstep ih =>
    obtain ⟨e, he, hc⟩ := hstep
    exact step _ e _ he hc ih

/-! ## 3. What outlasts every change -/

/-- A search by a key is not disturbed by a change that keeps the key. -/
theorem find?_map_of_keeps {α : Type} {p : α → Bool} {g : α → α} (h : ∀ x, p (g x) = p x)
    (xs : List α) : (xs.map g).find? p = (xs.find? p).map g := by
  rw [List.find?_map]
  congr 1
  exact congrArg (List.find? · xs) (funext h)

/-- Such a change keeps the list of keys. -/
theorem map_key_of_keeps {α κ : Type} {key : α → κ} {g : α → α} (h : ∀ x, key (g x) = key x)
    (xs : List α) : (xs.map g).map key = xs.map key := by
  rw [List.map_map]
  exact List.map_congr_left fun x _ => h x

namespace WalletTable

theorem wallet?_id {t : WalletTable} {id : Int} {w : Wallet} (h : t.wallet? id = some w) :
    w.id = id := by
  simpa using List.find?_some h

theorem mem_of_wallet? {t : WalletTable} {id : Int} {w : Wallet} (h : t.wallet? id = some w) :
    w ∈ t.wallets :=
  List.mem_of_find?_eq_some h

theorem wallet?_write (t : WalletTable) (b : BalanceWrite) (id : Int) :
    (t.write b).wallet? id =
      (t.wallet? id).map fun x => if x.id = b.walletId then written b x else x := by
  refine find?_map_of_keeps (fun x => ?_) t.wallets
  split_ifs <;> rfl

/-- A write keeps the identity of every wallet. -/
theorem same_of_wallet?_write {t : WalletTable} {b : BalanceWrite} {id : Int} {w : Wallet}
    (h : t.wallet? id = some w) : ∃ x, (t.write b).wallet? id = some x ∧ w.Same x := by
  rw [wallet?_write, h]
  refine ⟨_, rfl, ?_⟩
  show w.Same (if w.id = b.walletId then written b w else w)
  split_ifs
  · exact Wallet.same_written b w
  · exact .refl w

theorem takeConflict?_eq {t t' : WalletTable} (h : t.takeConflict? = some t') :
    ∃ n, t.conflicts = n + 1 ∧ t' = { t with conflicts := n } := by
  unfold takeConflict? at h
  cases hn : t.conflicts with
  | zero => rw [hn] at h; cases h
  | succ n => rw [hn] at h; exact ⟨n, rfl, (Option.some.inj h).symm⟩

theorem createOwner_eq {t t' : WalletTable} {uuid title level : String} {flags : Int} {o : Owner}
    (h : t.createOwner uuid title level flags = .ok (o, t')) :
    t.owner? uuid = none ∧ o = ⟨t.lastOwnerId + 1, uuid, title, level, flags⟩ ∧
      t' = { t with owners := t.owners ++ [o], lastOwnerId := o.id } := by
  unfold createOwner at h
  split_ifs at h with hsome
  · cases h
    exact ⟨by simpa using hsome, rfl, rfl⟩

theorem setFlags_eq {t t' : WalletTable} {uuid : String} {flags : Int} {o : Owner}
    (h : t.setFlags uuid flags = .ok (o, t')) :
    t' = { t with
      owners := t.owners.map fun o => if o.uuid = uuid then { o with flags } else o } := by
  unfold setFlags at h
  split at h
  · cases h
  · cases h
    rfl

theorem createWallet_eq {t t' : WalletTable} {owner : Owner} {key : WalletKey} {initial : Amount}
    {w : Wallet} (h : t.createWallet owner key initial = .ok (w, t')) :
    initial.currency = key.currency ∧ initial.value.isNegative = false ∧
      t.keys.lookup key = none ∧
      w = ⟨t.lastWalletId + 1, owner.id, owner.uuid, key.currency, key.kind, initial.value, 0⟩ ∧
      t' = { t with
        wallets := t.wallets ++ [w], keys := t.keys ++ [(key, w.id)], lastWalletId := w.id } := by
  unfold createWallet checkInitial at h
  -- The three refusals in the order in which they are checked; only the last case is left.
  by_cases hcur : initial.currency = key.currency
  · by_cases hneg : initial.value.isNegative = true
    · simp [hcur, hneg, bind, Except.bind] at h
    · by_cases hkey : (t.keys.lookup key).isSome = true
      · simp [hcur, hneg, hkey, bind, Except.bind] at h
      · simp only [hcur, ne_eq, not_true_eq_false, if_false, hneg, hkey, bind, Except.bind] at h
        cases h
        exact ⟨hcur, by simpa using hneg, Option.not_isSome_iff_eq_none.1 hkey, rfl, rfl⟩
  · simp [hcur, bind, Except.bind] at h

/-- A posting leaves everything but two balances, the log and the references as it is. -/
theorem Posts.same_of_wallet? {t t' : WalletTable} {access : Access} {mv : Movement} {p : Posting}
    (h : t.Posts access mv p t') {id : Int} {w : Wallet} (hw : t.wallet? id = some w) :
    ∃ x, t'.wallet? id = some x ∧ w.Same x := by
  cases h with
  | made source dest sourceAfter destAfter _ _ _ hsource hdest _ _ _ _ =>
    obtain ⟨x, hx, hwx⟩ := same_of_wallet?_write (b := source.write sourceAfter) hw
    obtain ⟨y, hy, hxy⟩ := same_of_wallet?_write (b := dest.write destAfter) hx
    exact ⟨y, hy, hwx.trans hxy⟩

/-! ### References -/

theorem byRef?_append_of_some {t : WalletTable} {ref : String} {p q : Posting}
    (h : t.byRef? ref = some p) : (t.append q).byRef? ref = some p := by
  -- The index gives the place, and a place that is taken stays what it is when the log grows.
  obtain ⟨place, hplace, hget⟩ := Option.bind_eq_some_iff.1 h
  have hlt : place < t.log.length := (List.getElem?_eq_some_iff.1 hget).1
  have hlookup : (t.append q).refs.lookup ref = some place := by
    unfold append
    cases q.ref with
    | none => exact hplace
    | some r => simp only [List.lookup_append, hplace, Option.some_or]
  rw [byRef?, hlookup, Option.bind_some]
  simp only [append]
  rw [List.getElem?_append_left hlt, hget]

theorem Posts.byRef? {t t' : WalletTable} {access : Access} {mv : Movement} {p q : Posting}
    {ref : String} (h : t.Posts access mv p t') (hq : t.byRef? ref = some q) :
    t'.byRef? ref = some q := by
  cases h with
  | made => exact byRef?_append_of_some hq

theorem Posts.log {t t' : WalletTable} {access : Access} {mv : Movement} {p : Posting}
    (h : t.Posts access mv p t') : t'.log = t.log ++ [p] := by
  cases h with
  | made => rfl

end WalletTable

namespace WithdrawalTable

theorem find?_id {t : WithdrawalTable} {id : Int} {w : Withdrawal} (h : t.find? id = some w) :
    w.id = id := by
  simpa using List.find?_some h

theorem mem_of_find? {t : WithdrawalTable} {id : Int} {w : Withdrawal} (h : t.find? id = some w) :
    w ∈ t.rows :=
  List.mem_of_find?_eq_some h

theorem find?_replace (t : WithdrawalTable) (row : Withdrawal) (id : Int) :
    (t.replace row).find? id = (t.find? id).map fun w => if w.id = row.id then row else w := by
  refine find?_map_of_keeps (fun w => ?_) t.rows
  split_ifs with h
  · rw [h]
  · rfl

/-- A row that is replaced is found as it was written. -/
theorem find?_replaced {t : WithdrawalTable} {id : Int} {w v : Withdrawal}
    (hw : t.find? id = some w) (hv : v.id = id) : (t.replace v).find? id = some v := by
  rw [find?_replace, hw, Option.map_some, hv, if_pos (find?_id hw)]

theorem insert_eq {t t' : WithdrawalTable} {d : WithdrawalDraft} {now : Instant} {w : Withdrawal}
    (h : t.insert d now = .ok (w, t')) :
    t.byRequest? d.requestTransaction = none ∧ w = d.toWithdrawal (t.lastId + 1) now ∧
      t' = ⟨t.rows ++ [w], w.id⟩ := by
  unfold insert at h
  split_ifs at h with hsome
  · cases h
    exact ⟨Option.not_isSome_iff_eq_none.1 hsome, rfl, rfl⟩

end WithdrawalTable

theorem CurrencyTable.find?_symbol {t : CurrencyTable} {symbol : String} {c : Currency}
    (h : t.find? symbol = some c) : c.symbol = symbol := by
  simpa using List.find?_some h

namespace ReservationTable

theorem find?_number {t : ReservationTable} {number : String} {r : Reservation}
    (h : t.find? number = some r) : r.number = number := by
  simpa using List.find?_some h

theorem mem_of_find? {t : ReservationTable} {number : String} {r : Reservation}
    (h : t.find? number = some r) : r ∈ t.rows :=
  List.mem_of_find?_eq_some h

theorem insert_eq {t t' : ReservationTable} {r : Reservation} (h : t.insert r = .ok t') :
    t.find? r.number = none ∧ t' = ⟨t.rows ++ [r]⟩ := by
  unfold insert at h
  split_ifs at h with hsome
  · cases h
    exact ⟨Option.not_isSome_iff_eq_none.1 hsome, rfl⟩

/-- The table after a change of the row with a number. -/
def amended (t : ReservationTable) (number : String) (g : Reservation → Reservation) :
    ReservationTable :=
  ⟨t.rows.map fun x => if x.number = number then g x else x⟩

/-- A conditional change is made to a row that meets the condition, or it is not made. -/
theorem changeIf_eq {t t' : ReservationTable} {number : String} {condition : Reservation → Bool}
    {g : Reservation → Reservation} {b : Bool}
    (h : t.changeIf number condition g = .ok (b, t')) :
    ∃ r, t.find? number = some r ∧ b = condition r ∧
      ((b = false ∧ t' = t) ∨ (b = true ∧ t' = t.amended number g)) := by
  unfold changeIf at h
  cases hfind : t.find? number with
  | none => rw [hfind] at h; cases h
  | some r =>
    simp only [hfind] at h
    split_ifs at h with hr
    · cases h
      exact ⟨r, rfl, hr.symm, .inr ⟨rfl, rfl⟩⟩
    · cases h
      exact ⟨r, rfl, by simpa using hr, .inl ⟨rfl, rfl⟩⟩

/-! ### No number is given twice -/

variable {t t' : ReservationTable} {r : Reservation}

/-- **Rows are kept under their numbers,** so no number is given twice. -/
def Keyed (t : ReservationTable) : Prop := (t.rows.map (·.number)).Nodup

theorem Keyed.map (h : t.Keyed) {g : Reservation → Reservation}
    (hg : ∀ x, (g x).number = x.number) : (ReservationTable.mk (t.rows.map g)).Keyed := by
  rw [Keyed, map_key_of_keeps hg]
  exact h

theorem Keyed.amended (h : t.Keyed) (number : String) {g : Reservation → Reservation}
    (hg : ∀ x, (g x).number = x.number) : (t.amended number g).Keyed :=
  h.map fun x => by
    split_ifs
    · exact hg x
    · rfl

theorem Keyed.insert (h : t.Keyed) (hinsert : t.insert r = .ok t') : t'.Keyed := by
  obtain ⟨hnone, rfl⟩ := insert_eq hinsert
  rw [Keyed, List.map_append, List.map_singleton, List.nodup_append]
  refine ⟨h, List.pairwise_singleton _ _, fun number hnumber last hlast heq => ?_⟩
  obtain ⟨y, hy, rfl⟩ := List.mem_map.1 hnumber
  have hfree := List.find?_eq_none.1 hnone y hy
  simp [heq, List.mem_singleton.1 hlast] at hfree

theorem Keyed.changeIf (h : t.Keyed) {number : String} {b : Bool}
    {condition : Reservation → Bool} {g : Reservation → Reservation}
    (hchange : t.changeIf number condition g = .ok (b, t')) (hg : ∀ x, (g x).number = x.number) :
    t'.Keyed := by
  obtain ⟨-, -, -, ⟨-, rfl⟩ | ⟨-, rfl⟩⟩ := changeIf_eq hchange
  · exact h
  · exact h.amended number hg

end ReservationTable

namespace Memory

theorem hasNumber_insert {m : Memory} {t : ReservationTable} {r : Reservation}
    (h : m.reservations.insert r = .ok t) (number : String) (hm : m.HasNumber number) :
    (m.withReservations t).HasNumber number := by
  obtain ⟨x, hx, rfl⟩ := hm
  obtain ⟨-, rfl⟩ := ReservationTable.insert_eq h
  exact ⟨x, List.mem_append_left _ hx, rfl⟩

theorem hasNumber_amended {m : Memory} {g : Reservation → Reservation} (number : String)
    (hg : ∀ r, (g r).number = r.number) (other : String) (hm : m.HasNumber other) :
    (m.withReservations (m.reservations.amended number g)).HasNumber other := by
  obtain ⟨x, hx, rfl⟩ := hm
  refine ⟨_, List.mem_map_of_mem hx, ?_⟩
  split_ifs
  · exact hg x
  · rfl

theorem hasNumber_changeIf {m : Memory} {t : ReservationTable} {number : String}
    {condition : Reservation → Bool} {g : Reservation → Reservation} {b : Bool}
    (h : m.reservations.changeIf number condition g = .ok (b, t))
    (hg : ∀ r, (g r).number = r.number) (other : String) (hm : m.HasNumber other) :
    (m.withReservations t).HasNumber other := by
  obtain ⟨r, -, -, ⟨-, rfl⟩ | ⟨-, rfl⟩⟩ := ReservationTable.changeIf_eq h
  · exact hm
  · exact hasNumber_amended number hg other hm

end Memory

namespace Change

variable {m m' : Memory} {e : Effect}

/-! ### What a change leaves alone -/

/-- Only postings reach the log. -/
theorem log (h : Change m e m') (he : ¬ e.IsPosting) :
    m'.wallets.log = m.wallets.log ∧ m'.wallets.refs = m.wallets.refs := by
  cases h with
  | conflict h =>
    obtain ⟨n, -, rfl⟩ := WalletTable.takeConflict?_eq h
    exact ⟨rfl, rfl⟩
  | owner h =>
    obtain ⟨-, -, rfl⟩ := WalletTable.createOwner_eq h
    exact ⟨rfl, rfl⟩
  | flags h =>
    obtain rfl := WalletTable.setFlags_eq h
    exact ⟨rfl, rfl⟩
  | wallet _ h =>
    obtain ⟨-, -, -, -, rfl⟩ := WalletTable.createWallet_eq h
    exact ⟨rfl, rfl⟩
  | transfer => exact absurd trivial he
  | movement => exact absurd trivial he
  | _ => exact ⟨rfl, rfl⟩

theorem wallets (h : Change m e m') (he : ¬e.ReachesWallets) :
    m'.wallets.wallets = m.wallets.wallets := by
  cases h with
  | conflict h =>
    obtain ⟨n, -, rfl⟩ := WalletTable.takeConflict?_eq h
    rfl
  | owner h =>
    obtain ⟨-, -, rfl⟩ := WalletTable.createOwner_eq h
    rfl
  | flags h =>
    obtain rfl := WalletTable.setFlags_eq h
    rfl
  | wallet => exact absurd trivial he
  | edit => exact absurd trivial he
  | transfer => exact absurd trivial he
  | movement => exact absurd trivial he
  | _ => rfl

theorem withdrawals (h : Change m e m') (he : ∀ w, e ≠ .row w) (hrows : e ≠ .rows) :
    m'.withdrawals = m.withdrawals := by
  cases h with
  | row => exact absurd rfl (he _)
  | rows => exact absurd rfl hrows
  | _ => rfl

theorem reservations (h : Change m e m') (he : e ≠ .reservation) :
    m'.reservations = m.reservations ∧ m'.reserved = m.reserved ∧ m'.claimed = m.claimed := by
  cases h with
  | reservation => exact absurd rfl he
  | _ => exact ⟨rfl, rfl, rfl⟩

/-! ### What outlasts a change -/

theorem ids (h : Change m e m') : m'.ids = m.ids := by
  cases h <;> rfl

theorem hasOwner (h : Change m e m') {o : Owner} (ho : m.HasOwner o) : m'.HasOwner o := by
  obtain ⟨x, hx, hid, huuid⟩ := ho
  -- The owners grow at the end, or one of them gets new permissions under the same number.
  cases h with
  | conflict h =>
    obtain ⟨n, -, rfl⟩ := WalletTable.takeConflict?_eq h
    exact ⟨x, hx, hid, huuid⟩
  | owner h =>
    obtain ⟨-, -, rfl⟩ := WalletTable.createOwner_eq h
    exact ⟨x, List.mem_append_left _ hx, hid, huuid⟩
  | flags h =>
    obtain rfl := WalletTable.setFlags_eq h
    refine ⟨_, List.mem_map_of_mem hx, ?_, ?_⟩
    · split_ifs <;> exact hid
    · split_ifs <;> exact huuid
  | wallet _ h =>
    obtain ⟨-, -, -, -, rfl⟩ := WalletTable.createWallet_eq h
    exact ⟨x, hx, hid, huuid⟩
  | transfer h _ _ => cases h with | made => exact ⟨x, hx, hid, huuid⟩
  | movement h => cases h with | made => exact ⟨x, hx, hid, huuid⟩
  | _ => exact ⟨x, hx, hid, huuid⟩

theorem hasWallet (h : Change m e m') {w : Wallet} (hw : m.HasWallet w) : m'.HasWallet w := by
  obtain ⟨x, hx, hsame⟩ := hw
  have hwallets := h.wallets
  cases h with
  | wallet _ h =>
    obtain ⟨-, -, -, -, rfl⟩ := WalletTable.createWallet_eq h
    refine ⟨x, ?_, hsame⟩
    simp only [Memory.withWallets, WalletTable.wallet?, List.find?_append]
    rw [WalletTable.wallet?] at hx
    rw [hx, Option.some_or]
  | edit held h =>
    obtain ⟨y, hy, hxy⟩ := WalletTable.same_of_wallet?_write (b := _) hx
    exact ⟨y, hy, hsame.trans hxy⟩
  | transfer h _ _ =>
    obtain ⟨y, hy, hxy⟩ := h.same_of_wallet? hx
    exact ⟨y, hy, hsame.trans hxy⟩
  | movement h =>
    obtain ⟨y, hy, hxy⟩ := h.same_of_wallet? hx
    exact ⟨y, hy, hsame.trans hxy⟩
  | _ =>
    -- No other change reaches the list of wallets.
    refine ⟨x, ?_, hsame⟩
    rw [WalletTable.wallet?, hwallets id]
    exact hx

theorem hasRow (h : Change m e m') {w : Withdrawal} (hw : m.HasRow w) : m'.HasRow w := by
  obtain ⟨x, hx, hsame⟩ := hw
  cases h with
  | row _ h =>
    obtain ⟨-, -, rfl⟩ := WithdrawalTable.insert_eq h
    refine ⟨x, ?_, hsame⟩
    simp only [Memory.withWithdrawals, WithdrawalTable.find?, List.find?_append]
    rw [WithdrawalTable.find?] at hx
    rw [hx, Option.some_or]
  | @rows v held =>
    obtain ⟨y, hy, hvy⟩ := held
    simp only [Memory.HasRow, Memory.withWithdrawals, WithdrawalTable.find?_replace, hx,
      Option.map_some, Option.some.injEq, exists_eq_left']
    split_ifs with hid
    · -- The row in the table is the one that is replaced, so all three agree.
      have hxy : x = y := by
        rw [WithdrawalTable.find?_id hx] at hid
        rw [hid, hy] at hx
        exact (Option.some.inj hx).symm
      subst hxy
      exact hsame.trans hvy.symm
    · exact hsame
  | _ => exact ⟨x, hx, hsame⟩

/-- Reservations are closed, but they are not removed. -/
theorem hasNumber (h : Change m e m') {number : String} (hm : m.HasNumber number) :
    m'.HasNumber number := by
  cases h with
  | reservation t reserved claimed kept => exact kept number hm
  | _ => exact hm

theorem hasPrecision (h : Change m e m') {s : String} {p : Nat} (hp : m.HasPrecision s p) :
    m'.HasPrecision s p := by
  cases h with
  | currency h => exact h s p hp
  | _ => exact hp

theorem vouches (h : Change m e m') {a : Amount} (ha : m.Vouches a) : m'.Vouches a := by
  rcases ha with ⟨p, hp, hscale⟩ | ⟨w, hw, hcur, hstaged⟩
  · exact .inl ⟨p, h.hasPrecision hp, hscale⟩
  · exact .inr ⟨w, h.hasRow hw, hcur, hstaged⟩

theorem byRef? (h : Change m e m') {ref : String} {p : Posting}
    (hp : m.wallets.byRef? ref = some p) : m'.wallets.byRef? ref = some p := by
  -- The log either grows by one posting or stays as it is, and the index with it.
  by_cases he : e.IsPosting
  · cases h with
    | transfer h _ _ => exact h.byRef? hp
    | movement h => exact h.byRef? hp
    | _ => exact he.elim
  · obtain ⟨hlog, hrefs⟩ := h.log he
    rw [WalletTable.byRef?, hlog, hrefs]
    exact hp

end Change

/-! ## 4. Moves of a ledger -/

namespace Ledger

/-- The rows behind the stores in front of which faults are armed. -/
def memory (l : Ledger (Faulty Memory)) : Memory := l.stores.stores

/-- Whether a fault of a mode is armed, spent or not. -/
def CanFail (l : Ledger (Faulty Memory)) (mode : FaultMode) : Prop :=
  ∃ fault ∈ l.stores.armed, fault.mode = mode

/-- No fault reports the failure of a call that took effect. -/
def Harmless (l : Ledger (Faulty Memory)) : Prop := ¬ l.CanFail .after

/-- No fault is armed at all. -/
def Sure (l : Ledger (Faulty Memory)) : Prop := ∀ mode, ¬ l.CanFail mode

/-- The policies stay, and no new faults are armed. The clock, the graph, the counters and the
events are not restricted. -/
structure Follows (l l' : Ledger (Faulty Memory)) : Prop where
  policies : l'.policies = l.policies
  modes : ∀ mode, l'.CanFail mode → l.CanFail mode

/-- Nothing that outlives an operation was written. -/
structure Still (l l' : Ledger (Faulty Memory)) : Prop extends Follows l l' where
  memory : l'.memory = l.memory

/-- **What becomes of a ledger in one operation:** the memory changes by writes with permitted
effects. -/
structure Evolves (f : Effect → Prop) (l l' : Ledger (Faulty Memory)) : Prop extends
    Follows l l' where
  writes : l.memory.Writes f l'.memory

section Moves

variable {f g : Effect → Prop} {l l' l'' : Ledger (Faulty Memory)}

theorem Follows.refl (l : Ledger (Faulty Memory)) : l.Follows l := ⟨rfl, fun _ => id⟩

theorem Follows.trans (h : l.Follows l') (h' : l'.Follows l'') : l.Follows l'' :=
  ⟨h'.policies.trans h.policies, fun mode hm => h.modes mode (h'.modes mode hm)⟩

theorem Follows.harmless (h : l.Follows l') (hl : l.Harmless) : l'.Harmless :=
  fun hm => hl (h.modes _ hm)

theorem Follows.sure (h : l.Follows l') (hl : l.Sure) : l'.Sure :=
  fun mode hm => hl mode (h.modes _ hm)

theorem sure_of_unarmed (h : l.stores.armed = []) : l.Sure := by
  rintro mode ⟨fault, hfault, -⟩
  rw [h] at hfault
  exact absurd hfault List.not_mem_nil

theorem Still.refl (l : Ledger (Faulty Memory)) : l.Still l := ⟨.refl l, rfl⟩

theorem Still.trans (h : l.Still l') (h' : l'.Still l'') : l.Still l'' :=
  ⟨h.toFollows.trans h'.toFollows, h'.memory.trans h.memory⟩

instance : IsTrans (Ledger (Faulty Memory)) Still := ⟨fun _ _ _ h h' => h.trans h'⟩

instance : Std.Refl Still := ⟨Still.refl⟩

namespace Evolves

theorem of_still (h : l.Still l') : l.Evolves f l' :=
  ⟨h.toFollows, by rw [h.memory]; exact .refl⟩

theorem refl (l : Ledger (Faulty Memory)) : l.Evolves f l := of_still (.refl l)

theorem trans (h : l.Evolves f l') (h' : l'.Evolves f l'') : l.Evolves f l'' :=
  ⟨h.toFollows.trans h'.toFollows, h.writes.trans h'.writes⟩

instance : IsTrans (Ledger (Faulty Memory)) (Evolves f) := ⟨fun _ _ _ h h' => h.trans h'⟩

instance : Std.Refl (Evolves f) := ⟨refl⟩

theorem mono (hfg : ∀ e, f e → g e) (h : l.Evolves f l') : l.Evolves g l' :=
  ⟨h.toFollows, h.writes.mono hfg⟩

theorem preserves {I : Memory → Prop} (step : ∀ m e m', f e → Change m e m' → I m → I m')
    (h : l.Evolves f l') (hl : I l.memory) : I l'.memory :=
  h.writes.preserves step hl

theorem ids (h : l.Evolves f l') : l'.memory.ids = l.memory.ids :=
  h.preserves (I := fun m => m.ids = l.memory.ids) (fun _ _ _ _ hc hm => hc.ids.trans hm) rfl

theorem hasOwner (h : l.Evolves f l') {o : Owner} (ho : l.memory.HasOwner o) :
    l'.memory.HasOwner o :=
  h.preserves (fun _ _ _ _ hc => hc.hasOwner) ho

theorem hasWallet (h : l.Evolves f l') {w : Wallet} (hw : l.memory.HasWallet w) :
    l'.memory.HasWallet w :=
  h.preserves (fun _ _ _ _ hc => hc.hasWallet) hw

theorem hasRow (h : l.Evolves f l') {w : Withdrawal} (hw : l.memory.HasRow w) :
    l'.memory.HasRow w :=
  h.preserves (fun _ _ _ _ hc => hc.hasRow) hw

theorem vouches (h : l.Evolves f l') {a : Amount} (ha : l.memory.Vouches a) :
    l'.memory.Vouches a :=
  h.preserves (fun _ _ _ _ hc => hc.vouches) ha

theorem log (h : l.Evolves f l') (hf : ∀ e, f e → ¬ e.IsPosting) :
    l'.memory.wallets.log = l.memory.wallets.log ∧
      l'.memory.wallets.refs = l.memory.wallets.refs := by
  refine h.preserves (I := fun m => m.wallets.log = l.memory.wallets.log ∧
    m.wallets.refs = l.memory.wallets.refs) (fun m e m' he hc hm => ?_) ⟨rfl, rfl⟩
  have hsame := hc.log (hf e he)
  exact ⟨hsame.1.trans hm.1, hsame.2.trans hm.2⟩

theorem withdrawals (h : l.Evolves f l') (hf : ∀ w, ¬ f (.row w)) (hrows : ¬ f .rows) :
    l'.memory.withdrawals = l.memory.withdrawals := by
  refine h.preserves (I := fun m => m.withdrawals = l.memory.withdrawals)
    (fun m e m' he hc hm => ?_) rfl
  refine (hc.withdrawals ?_ ?_).trans hm
  · rintro w rfl
    exact hf w he
  · rintro rfl
    exact hrows he

theorem reservations (h : l.Evolves f l') (hf : ¬ f .reservation) :
    l'.memory.reservations = l.memory.reservations ∧ l'.memory.reserved = l.memory.reserved ∧
      l'.memory.claimed = l.memory.claimed := by
  refine h.preserves (I := fun m => m.reservations = l.memory.reservations ∧
    m.reserved = l.memory.reserved ∧ m.claimed = l.memory.claimed)
    (fun m e m' he hc hm => ?_) ⟨rfl, rfl, rfl⟩
  have hsame := hc.reservations (by rintro rfl; exact hf he)
  exact ⟨hsame.1.trans hm.1, hsame.2.1.trans hm.2.1, hsame.2.2.trans hm.2.2⟩

end Evolves

end Moves

end Ledger

end WalletLedger
