/-
What the log says of a wallet.

A posting has two sides, and each tells the balance of its wallet before and after. So the postings
that touch one wallet, in the order of the log, are the wallet's account: `Wallet.Accounts w ps w'`
says that they lead from the state `w` to the state `w'`, each beginning with the balance that the
one before it left, and that the version counts them. `WalletTable.Turns` says this of all wallets
at once, with the wallets that are opened on the way, and it is the relation that the runs of
`Acts.lean` go along: turns compose (`Turns.trans`), and every kind of write but the change of a
single balance is a turn (`Change.turns`).

Nothing here needs the owners to be in order. A wallet is filed under the number of the owner that
its caller named, be that owner registered or not, and this is enough for the index of keys to
admit each key once (`WalletTable.Filed`).
-/
import WalletLedger.Proofs.Tables
import WalletLedger.Proofs.Decimal

set_option autoImplicit false

namespace WalletLedger

/-! ## 1. Accounts -/

namespace Posting

/-- The side of a posting on which a wallet is. -/
def side? (p : Posting) (walletId : Int) : Option Side :=
  if p.source.walletId = walletId then some p.source
  else if p.dest.walletId = walletId then some p.dest
  else none

theorem side?_source {p : Posting} {id : Int} (h : p.source.walletId = id) :
    p.side? id = some p.source := if_pos h

theorem side?_dest {p : Posting} {id : Int} (hne : p.source.walletId ≠ id)
    (h : p.dest.walletId = id) : p.side? id = some p.dest := (if_neg hne).trans (if_pos h)

theorem side?_eq_none {p : Posting} {id : Int} (hs : p.source.walletId ≠ id)
    (hd : p.dest.walletId ≠ id) : p.side? id = none := (if_neg hs).trans (if_neg hd)

/-- The sides of one wallet, in the order of the postings. -/
def sidesOf (walletId : Int) (ps : List Posting) : List Side := ps.filterMap (·.side? walletId)

/-- What a posting adds to the balance of a wallet. -/
def change? (p : Posting) (walletId : Int) : Option Decimal :=
  if p.source.walletId = walletId then some p.source.amount.value.neg
  else if p.dest.walletId = walletId then some p.dest.amount.value
  else none

/-- **A posting that adds up:** its sides are two wallets, each balance after is the sum of the
balance before and what the posting adds, and the source could afford the amount. -/
structure AddsUp (p : Posting) : Prop where
  apart : p.source.walletId ≠ p.dest.walletId
  debit : p.source.balanceBefore.add? p.source.amount.value.neg = some p.source.balanceAfter
  credit : p.dest.balanceBefore.add? p.dest.amount.value = some p.dest.balanceAfter
  afforded : p.source.amount.value.toRat ≤ p.source.balanceBefore.toRat

end Posting

/-- **A chain of balances:** the first side begins with the one balance, each later side with what
the one before it left, and the last leaves the other balance. -/
def Side.Chained : Decimal → List Side → Decimal → Prop
  | start, [], finish => finish = start
  | start, s :: sides, finish => s.balanceBefore = start ∧ Chained s.balanceAfter sides finish

theorem Side.Chained.append {sides sides' : List Side} {a b c : Decimal}
    (h : Chained a sides b) (h' : Chained b sides' c) : Chained a (sides ++ sides') c := by
  induction sides generalizing a with
  | nil => exact (show b = a from h) ▸ h'
  | cons s sides ih => exact ⟨h.1, ih h.2⟩

/-- **The postings lead from one state of a wallet to another.** -/
structure Wallet.Accounts (w : Wallet) (ps : List Posting) (w' : Wallet) : Prop where
  same : w.Same w'
  version : w'.version = w.version + (Posting.sidesOf w.id ps).length
  chained : Side.Chained w.balance (Posting.sidesOf w.id ps) w'.balance

namespace Wallet.Accounts

variable {w w' w'' : Wallet} {ps qs : List Posting}

theorem of_untouched (h : ∀ p ∈ ps, p.side? w.id = none) : w.Accounts ps w := by
  have hnil : Posting.sidesOf w.id ps = [] := List.filterMap_eq_nil_iff.2 h
  exact ⟨.refl w, by rw [hnil]; simp, by rw [hnil]; rfl⟩

theorem of_side? {p : Posting} {s : Side} (hs : p.side? w.id = some s)
    (hbefore : s.balanceBefore = w.balance) :
    w.Accounts [p] { w with balance := s.balanceAfter, version := w.version + 1 } := by
  have hsides : Posting.sidesOf w.id [p] = [s] := by
    simp only [Posting.sidesOf, List.filterMap_cons, hs, List.filterMap_nil]
  exact ⟨⟨rfl, rfl, rfl, rfl, rfl⟩, by rw [hsides]; rfl, by rw [hsides]; exact ⟨hbefore, rfl⟩⟩

theorem trans (h : w.Accounts ps w') (h' : w'.Accounts qs w'') : w.Accounts (ps ++ qs) w'' := by
  have hsides : Posting.sidesOf w.id (ps ++ qs) =
      Posting.sidesOf w.id ps ++ Posting.sidesOf w'.id qs := by
    rw [← h.same.id, Posting.sidesOf, List.filterMap_append]
    rfl
  refine ⟨h.same.trans h'.same, ?_, ?_⟩
  · rw [h'.version, h.version, hsides, List.length_append]
    push_cast
    ring
  · rw [hsides]
    exact h.chained.append h'.chained

/-- The account of a wallet begins with its first posting. -/
theorem cons {p : Posting} {s : Side} (h : w.Accounts (p :: ps) w')
    (hs : p.side? w.id = some s) :
    s.balanceBefore = w.balance ∧
      { w with balance := s.balanceAfter, version := w.version + 1 }.Accounts ps w' := by
  have hsides : Posting.sidesOf w.id (p :: ps) = s :: Posting.sidesOf w.id ps := by
    simp only [Posting.sidesOf, List.filterMap_cons, hs]
  obtain ⟨hsame, hversion, hchained⟩ := h
  rw [hsides] at hversion hchained
  refine ⟨hchained.1, ⟨hsame.id, hsame.ownerId, hsame.ownerUuid, hsame.currency, hsame.kind⟩, ?_,
    hchained.2⟩
  rw [hversion, List.length_cons]
  push_cast
  ring

theorem of_cons_none {p : Posting} (h : w.Accounts (p :: ps) w') (hs : p.side? w.id = none) :
    w.Accounts ps w' := by
  have hsides : Posting.sidesOf w.id (p :: ps) = Posting.sidesOf w.id ps := by
    simp only [Posting.sidesOf, List.filterMap_cons, hs]
  exact ⟨h.same, hsides ▸ h.version, hsides ▸ h.chained⟩

end Wallet.Accounts

/-! ## 2. The table in order -/

/-- **Each key is filed once:** numbers are not given twice, the index finds every wallet under its
key, and no balance is negative. -/
structure WalletTable.Filed (t : WalletTable) : Prop where
  walletIds : (t.wallets.map (·.id)).Nodup
  lastWallet : ∀ w ∈ t.wallets, w.id ≤ t.lastWalletId
  indexed : ∀ w ∈ t.wallets, t.keys.lookup w.key = some w.id
  balances : ∀ w ∈ t.wallets, w.balance.isNegative = false

namespace WalletTable

variable {t t' : WalletTable}

theorem filed_empty : WalletTable.empty.Filed := by
  refine ⟨List.nodup_nil, ?_, ?_, ?_⟩ <;> simp [empty]

theorem Filed.congr (h : t.Filed) (hwallets : t'.wallets = t.wallets) (hkeys : t'.keys = t.keys)
    (hlast : t'.lastWalletId = t.lastWalletId) : t'.Filed :=
  ⟨hwallets ▸ h.walletIds, hwallets ▸ hlast ▸ h.lastWallet, hwallets ▸ hkeys ▸ h.indexed,
    hwallets ▸ h.balances⟩

theorem Filed.wallet?_of_mem (h : t.Filed) {w : Wallet} (hw : w ∈ t.wallets) :
    t.wallet? w.id = some w :=
  find?_of_mem Wallet.id h.walletIds hw

/-- **No two wallets have one owner, one currency and one kind.** -/
theorem Filed.eq_of_key (h : t.Filed) {w x : Wallet} (hw : w ∈ t.wallets) (hx : x ∈ t.wallets)
    (hkey : w.key = x.key) : w = x := by
  have hid : w.id = x.id := by
    have hlookup := h.indexed w hw
    rw [hkey, h.indexed x hx] at hlookup
    exact (Option.some.inj hlookup).symm
  have hfound := h.wallet?_of_mem hw
  rw [hid, h.wallet?_of_mem hx] at hfound
  exact (Option.some.inj hfound).symm

theorem Filed.balance_nonneg (h : t.Filed) {w : Wallet} (hw : w ∈ t.wallets) :
    0 ≤ w.balance.toRat :=
  (Decimal.isNegative_eq_false_iff _).1 (h.balances w hw)

theorem Filed.write (h : t.Filed) {b : BalanceWrite} (hb : b.newBalance.isNegative = false) :
    (t.write b).Filed := by
  have hids : (t.write b).wallets.map (·.id) = t.wallets.map (·.id) :=
    map_key_of_keeps (fun w => by split_ifs <;> rfl) t.wallets
  refine ⟨hids ▸ h.walletIds, fun w hw => ?_, fun w hw => ?_, fun w hw => ?_⟩
  all_goals rcases mem_write hw with hold | ⟨x, hx, -, rfl⟩
  · exact h.lastWallet w hold
  · exact h.lastWallet x hx
  · exact h.indexed w hold
  · exact h.indexed x hx
  · exact h.balances w hold
  · exact hb

theorem Filed.createWallet (h : t.Filed) {owner : Owner} {initial : Amount} {kind : WalletKind}
    {w : Wallet}
    (ht : t.createWallet owner ⟨owner.id, initial.currency, kind⟩ initial = .ok (w, t')) :
    t'.Filed := by
  obtain ⟨-, hneg, hfree, hw, rfl⟩ := createWallet_eq ht
  have hid : w.id = t.lastWalletId + 1 := by rw [hw]
  have hkey : w.key = ⟨owner.id, initial.currency, kind⟩ := by rw [hw]; rfl
  refine ⟨nodup_append_fresh _ h.walletIds h.lastWallet hid,
    le_of_mem_append_fresh Wallet.id h.lastWallet hid, fun x hx => ?_, fun x hx => ?_⟩
  all_goals rcases List.mem_append.1 hx with hmem | hmem
  · simp only [List.lookup_append, h.indexed x hmem, Option.some_or]
  · rw [List.mem_singleton.1 hmem, hkey]
    simp only [List.lookup_append, hfree, Option.none_or, List.lookup_cons_self]
  · exact h.balances x hmem
  · rw [List.mem_singleton.1 hmem, hw]
    exact hneg

/-! ## 3. Turns -/

/-- **What becomes of the wallets while postings are appended.** Wallets may be opened on the way,
each with a balance that goes by its number. -/
structure Turns (opening : Int → Decimal) (t : WalletTable) (ps : List Posting)
    (t' : WalletTable) : Prop where
  log : t'.log = t.log ++ ps
  addUp : ∀ p ∈ ps, p.AddsUp
  filed : t.Filed → t'.Filed
  kept : ∀ id w, t.wallet? id = some w → ∃ w', t'.wallet? id = some w' ∧ w.Accounts ps w'
  opened : ∀ id w', t.wallet? id = none → t'.wallet? id = some w' →
    { w' with balance := opening id, version := 0 }.Accounts ps w'
  /-- A posting does not touch a wallet that is not there. -/
  absent : ∀ id, t'.wallet? id = none → t.wallet? id = none ∧ ∀ p ∈ ps, p.side? id = none

namespace Turns

variable {opening opening' : Int → Decimal} {t'' : WalletTable} {ps qs : List Posting}

/-- Nothing that concerns the wallets happens. -/
theorem aside (hwallets : t'.wallets = t.wallets) (hkeys : t'.keys = t.keys)
    (hlast : t'.lastWalletId = t.lastWalletId) (hlog : t'.log = t.log) : Turns opening t [] t' := by
  have hfind : t'.wallet? = t.wallet? := by
    funext id
    rw [wallet?, wallet?, hwallets]
  have hnone : ∀ id, ∀ p ∈ ([] : List Posting), p.side? id = none := fun _ _ hp =>
    absurd hp List.not_mem_nil
  refine ⟨by rw [hlog, List.append_nil], fun _ hp => absurd hp List.not_mem_nil,
    fun h => h.congr hwallets hkeys hlast,
    fun id w hw => ⟨w, by rw [hfind, hw], .of_untouched (hnone w.id)⟩, fun id w' ht hw' => ?_,
    fun id hid => ⟨by rw [← hfind, hid], hnone id⟩⟩
  rw [hfind, ht] at hw'
  cases hw'

theorem refl (t : WalletTable) : Turns opening t [] t := aside rfl rfl rfl rfl

/-- **Turns compose.** A wallet is opened in the first part or in the second. -/
theorem trans (h : Turns opening t ps t') (h' : Turns opening' t' qs t'') :
    Turns (fun id => if t'.wallet? id = none then opening' id else opening id) t (ps ++ qs)
      t'' := by
  refine ⟨by rw [h'.log, h.log, List.append_assoc], fun p hp => ?_, h'.filed ∘ h.filed,
    fun id w hw => ?_, fun id w'' hnone hw'' => ?_, fun id hid => ?_⟩
  · exact (List.mem_append.1 hp).elim (h.addUp p) (h'.addUp p)
  · obtain ⟨w', hw', haccounts⟩ := h.kept id w hw
    obtain ⟨w'', hw'', haccounts'⟩ := h'.kept id w' hw'
    exact ⟨w'', hw'', haccounts.trans haccounts'⟩
  · cases hmid : t'.wallet? id with
    | some w' =>
      -- It was opened in the first part, and the second part accounts for the rest.
      obtain ⟨x, hx, haccounts⟩ := h'.kept id w' hmid
      rw [hw''] at hx
      cases hx
      have hopened := h.opened id w' hnone hmid
      have hstart : ({ w'' with balance := opening id, version := 0 } : Wallet) =
          { w' with balance := opening id, version := 0 } := by
        obtain ⟨hid, ho, hu, hc, hk⟩ := haccounts.same
        simp only [hid, ho, hu, hc, hk]
      rw [if_neg (Option.some_ne_none w'), hstart]
      exact hopened.trans haccounts
    | none =>
      -- It was opened in the second part, so the first does not touch it.
      rw [if_pos rfl]
      refine Wallet.Accounts.trans (.of_untouched fun p hp => ?_) (h'.opened id w'' hmid hw'')
      rw [wallet?_id hw'']
      exact (h.absent id hmid).2 p hp
  · obtain ⟨hmid, hqs⟩ := h'.absent id hid
    obtain ⟨hnone, hps⟩ := h.absent id hmid
    exact ⟨hnone, fun p hp => (List.mem_append.1 hp).elim (hps p) (hqs p)⟩

theorem append {start : Decimal} (h : Turns (fun _ => start) t ps t')
    (h' : Turns (fun _ => start) t' qs t'') : Turns (fun _ => start) t (ps ++ qs) t'' := by
  simpa only [ite_self] using h.trans h'

/-- Opening a wallet. -/
theorem createWallet {owner : Owner} {initial : Amount} {kind : WalletKind} {w : Wallet}
    (h : t.createWallet owner ⟨owner.id, initial.currency, kind⟩ initial = .ok (w, t')) :
    Turns (fun _ => initial.value) t [] t' := by
  obtain ⟨-, -, -, hw, ht⟩ := createWallet_eq h
  have hfind : ∀ id, t'.wallet? id = (t.wallet? id).or (if w.id = id then some w else none) := by
    intro id
    rw [ht]
    simp only [wallet?, List.find?_append, List.find?_singleton, beq_iff_eq]
  have hnone : ∀ id, ∀ p ∈ ([] : List Posting), p.side? id = none := fun _ _ hp =>
    absurd hp List.not_mem_nil
  refine ⟨by rw [ht, List.append_nil], fun _ hp => absurd hp List.not_mem_nil,
    fun hfiled => hfiled.createWallet h,
    fun id x hx => ⟨x, by rw [hfind, hx, Option.some_or], .of_untouched (hnone x.id)⟩,
    fun id w' hid hw' => ?_, fun id hid => ⟨?_, hnone id⟩⟩
  · rw [hfind, hid, Option.none_or] at hw'
    split_ifs at hw'
    cases hw'
    have hstart : ({ w with balance := initial.value, version := 0 } : Wallet) = w := by rw [hw]
    rw [hstart]
    exact .of_untouched (hnone w.id)
  · rw [hfind, Option.or_eq_none_iff] at hid
    exact hid.1

end Turns

/-- **A posting adds up,** even where its balances had to be rounded. -/
theorem Posts.addsUp {access : Access} {mv : Movement} {p : Posting}
    (h : t.Posts access mv p t') : p.AddsUp := by
  cases h with
  | made source dest sourceAfter destAfter _ _ checked hsource hdest _ debit credit =>
    obtain ⟨-, hdebit, hnonneg⟩ := Wallet.balanceAfter_eq debit
    refine ⟨?_, hdebit, (Wallet.balanceAfter_eq credit).2.1, ?_⟩
    · show source.id ≠ dest.id
      rw [wallet?_id hsource, wallet?_id hdest]
      exact Movement.check_ne checked
    · have hsum := Decimal.nonneg_of_add? hdebit hnonneg
      rw [Movement.debit, Decimal.toRat_neg] at hsum
      show mv.sourceAmount.value.toRat ≤ source.balance.toRat
      linarith

/-- The amounts of a posting are those of its movement. -/
theorem Posts.amounts {access : Access} {mv : Movement} {p : Posting}
    (h : t.Posts access mv p t') :
    p.source.amount = mv.sourceAmount ∧ p.dest.amount = mv.destAmount := by
  cases h with
  | made => exact ⟨rfl, rfl⟩

/-- The two wallets of a posting, before and after. -/
theorem Posts.kept {access : Access} {mv : Movement} {p : Posting} (h : t.Posts access mv p t')
    {id : Int} {w : Wallet} (hw : t.wallet? id = some w) :
    ∃ w', t'.wallet? id = some w' ∧ w.Accounts [p] w' := by
  cases h with
  | made source dest sourceAfter destAfter _ _ checked hsource hdest =>
    have hs := wallet?_id hsource
    have hd := wallet?_id hdest
    have hne : source.id ≠ dest.id := by
      rw [hs, hd]
      exact Movement.check_ne checked
    rw [← hs] at hsource
    rw [← hd] at hdest
    show ∃ w', ((t.write (source.write sourceAfter)).write (dest.write destAfter)).wallet? id =
      some w' ∧ _
    by_cases hid : id = source.id
    · subst hid
      rw [hsource] at hw
      cases hw
      exact ⟨_, (wallet?_write_of_ne hne).trans (wallet?_write_self hsource sourceAfter),
        .of_side? (Posting.side?_source rfl) rfl⟩
    · rw [← wallet?_write_of_ne (b := source.write sourceAfter) hid] at hw
      by_cases hid' : id = dest.id
      · subst hid'
        have hdest' := (wallet?_write_of_ne (b := source.write sourceAfter) hid).trans hdest
        rw [hdest'] at hw
        cases hw
        exact ⟨_, wallet?_write_self hdest' destAfter,
          .of_side? (Posting.side?_dest hne rfl) rfl⟩
      · refine ⟨w, (wallet?_write_of_ne hid').trans hw, .of_untouched fun p hp => ?_⟩
        rw [List.mem_singleton.1 hp, wallet?_id hw]
        exact Posting.side?_eq_none (Ne.symm hid) (Ne.symm hid')

/-- A posting opens no wallet. -/
theorem Posts.absent {access : Access} {mv : Movement} {p : Posting} (h : t.Posts access mv p t')
    {id : Int} (hid : t.wallet? id = none) : t'.wallet? id = none ∧ p.side? id = none := by
  cases h with
  | made source dest sourceAfter destAfter _ _ _ hsource hdest =>
    have hs := wallet?_id hsource
    have hd := wallet?_id hdest
    constructor
    · show ((t.write (source.write sourceAfter)).write (dest.write destAfter)).wallet? id = none
      rw [wallet?_write, wallet?_write, hid]
      rfl
    · refine Posting.side?_eq_none ?_ ?_
      · rintro (rfl : source.id = id)
        rw [hs, hsource] at hid
        cases hid
      · rintro (rfl : dest.id = id)
        rw [hd, hdest] at hid
        cases hid

/-- **Posting is a turn.** -/
theorem Turns.posted {opening : Int → Decimal} {access : Access} {mv : Movement} {p : Posting}
    (h : t.Posts access mv p t') : Turns opening t [p] t' := by
  refine ⟨?_, fun q hq => ?_, fun hfiled => ?_, fun id w hw => h.kept hw,
    fun id w' hid hw' => ?_, fun id hid => ?_⟩
  · cases h with | made => rfl
  · rw [List.mem_singleton.1 hq]
    exact h.addsUp
  · cases h with
    | made source dest sourceAfter destAfter _ _ _ _ _ _ debit credit =>
      have hdebit := hfiled.write (b := source.write sourceAfter) (Wallet.balanceAfter_eq debit).2.2
      have hcredit := hdebit.write (b := dest.write destAfter) (Wallet.balanceAfter_eq credit).2.2
      exact hcredit.congr rfl rfl rfl
  · rw [(h.absent hid).1] at hw'
    cases hw'
  · cases hw : t.wallet? id with
    | some w =>
      obtain ⟨w', hw', -⟩ := h.kept hw
      rw [hid] at hw'
      cases hw'
    | none =>
      refine ⟨rfl, fun q hq => ?_⟩
      rw [List.mem_singleton.1 hq]
      exact (h.absent hw).2

end WalletTable

/-- The effects that are turns, where wallets are opened with one balance. -/
def Effect.IsTurn (opening : Decimal) : Effect → Prop
  | .edit _ => False
  | .wallet w => w.balance = opening
  | _ => True

/-- **Every write but the change of a single balance is a turn.** -/
theorem Change.turns {m m' : Memory} {e : Effect} {opening : Decimal} (h : Change m e m')
    (he : e.IsTurn opening) : ∃ ps, m.wallets.Turns (fun _ => opening) ps m'.wallets := by
  cases h with
  | conflict h =>
    obtain ⟨n, -, rfl⟩ := WalletTable.takeConflict?_eq h
    exact ⟨[], .aside rfl rfl rfl rfl⟩
  | owner h =>
    obtain ⟨-, -, rfl⟩ := WalletTable.createOwner_eq h
    exact ⟨[], .aside rfl rfl rfl rfl⟩
  | flags h =>
    obtain rfl := WalletTable.setFlags_eq h
    exact ⟨[], .aside rfl rfl rfl rfl⟩
  | @wallet _ _ _ w _ _ h =>
    obtain ⟨-, -, -, hw, -⟩ := WalletTable.createWallet_eq h
    rw [hw] at he
    exact ⟨[], (show _ = opening from he) ▸ .createWallet h⟩
  | edit => exact he.elim
  | transfer h _ _ => exact ⟨[_], .posted h⟩
  | movement h => exact ⟨[_], .posted h⟩
  | _ => exact ⟨[], .aside rfl rfl rfl rfl⟩

end WalletLedger
