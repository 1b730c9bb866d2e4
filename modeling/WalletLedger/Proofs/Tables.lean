/-
What holds of the tables in every reachable state.

The table of wallets keeps two indexes beside its rows, numbers new rows from a counter, and
computes every new balance before it writes it. `WalletTable.Sound` says what that comes to:
numbers are not given twice, a wallet belongs to an owner who is there, the index of keys and the
wallets agree, no balance is negative, and the index of references and the log agree, so that one
reference names one place of the log. `Memory.Sound` adds the same for the rows of the withdrawals,
and says of a request's row that the wallet it names is the cashout wallet of its owner.

Every change keeps it (`Change.sound`).
-/
import WalletLedger.Proofs.Changes
import Mathlib.Algebra.BigOperators.Group.List.Basic
import Mathlib.Data.List.Nodup
import Mathlib.Data.Rat.Lemmas
import Mathlib.Tactic.Ring

set_option autoImplicit false

namespace WalletLedger

/-! ## 1. Numbers that are not given twice -/

section Fresh

variable {α : Type} (key : α → Int) {xs : List α} {last : Int} {x : α}

theorem nodup_append_fresh (hnodup : (xs.map key).Nodup) (hlast : ∀ y ∈ xs, key y ≤ last)
    (hx : key x = last + 1) : ((xs ++ [x]).map key).Nodup := by
  rw [List.map_append, List.map_singleton, List.nodup_append]
  refine ⟨hnodup, List.nodup_singleton _, fun k hk k' hk' heq => ?_⟩
  obtain ⟨y, hy, rfl⟩ := List.mem_map.1 hk
  have hle := hlast y hy
  rw [List.mem_singleton] at hk'
  omega

/-- Numbers that are given in turn ascend. -/
theorem ascending_append_fresh (hascending : (xs.map key).Pairwise (· < ·))
    (hlast : ∀ y ∈ xs, key y ≤ last) (hx : key x = last + 1) :
    ((xs ++ [x]).map key).Pairwise (· < ·) := by
  rw [List.map_append, List.map_singleton, List.pairwise_append]
  refine ⟨hascending, List.pairwise_singleton _ _, fun k hk k' hk' => ?_⟩
  obtain ⟨y, hy, rfl⟩ := List.mem_map.1 hk
  rw [List.mem_singleton.1 hk', hx]
  exact Int.lt_add_one_of_le (hlast y hy)

theorem le_of_mem_append_fresh (hlast : ∀ y ∈ xs, key y ≤ last) (hx : key x = last + 1) :
    ∀ y ∈ xs ++ [x], key y ≤ key x := by
  intro y hy
  rcases List.mem_append.1 hy with hmem | hmem
  · have hle := hlast y hmem
    omega
  · rw [List.mem_singleton.1 hmem]

/-- Where keys are not given twice, a search by key finds the row that has it. -/
theorem find?_of_mem {κ : Type} [BEq κ] [LawfulBEq κ] (key : α → κ) (hnodup : (xs.map key).Nodup)
    (hx : x ∈ xs) : xs.find? (key · == key x) = some x := by
  induction xs with
  | nil => cases hx
  | cons y ys ih =>
    rw [List.map_cons, List.nodup_cons] at hnodup
    rcases List.mem_cons.1 hx with rfl | hmem
    · exact List.find?_cons_of_pos (by simp)
    · have hne : (key y == key x) = false := by
        rw [beq_eq_false_iff_ne]
        intro heq
        exact hnodup.1 (heq ▸ List.mem_map_of_mem hmem)
      rw [List.find?_cons, hne]
      exact ih hnodup.2 hmem

/-- There, a change of the row with a number changes a sum in one place. -/
theorem sum_map_update (g : α → ℚ) (hnodup : (xs.map key).Nodup) (hx : x ∈ xs) (h : α → α) :
    ((xs.map fun y => if key y = key x then h y else y).map g).sum =
      (xs.map g).sum - g x + g (h x) := by
  induction xs with
  | nil => cases hx
  | cons y ys ih =>
    rw [List.map_cons, List.nodup_cons] at hnodup
    simp only [List.map_cons, List.sum_cons]
    rcases List.mem_cons.1 hx with rfl | hmem
    · -- The other rows have other numbers and stay as they are.
      have hrest : ys.map (fun y => if key y = key x then h y else y) = ys := by
        refine (List.map_congr_left fun z hz => ?_).trans (List.map_id ys)
        have hne : key z ≠ key x := by
          intro heq
          exact hnodup.1 (heq ▸ List.mem_map_of_mem hz)
        rw [if_neg hne]
        rfl
      rw [hrest, if_pos rfl]
      ring
    · have hne : key y ≠ key x := by
        intro heq
        exact hnodup.1 (heq ▸ List.mem_map_of_mem hmem)
      rw [ih hnodup.2 hmem, if_neg hne]
      ring

end Fresh

/-! ## 2. Owners, wallets and the log -/

/-- **The table of owners and wallets is in order.** -/
structure WalletTable.Sound (t : WalletTable) : Prop where
  ownerIds : (t.owners.map (·.id)).Nodup
  lastOwner : ∀ o ∈ t.owners, o.id ≤ t.lastOwnerId
  walletIds : (t.wallets.map (·.id)).Nodup
  lastWallet : ∀ w ∈ t.wallets, w.id ≤ t.lastWalletId
  owned : ∀ w ∈ t.wallets, ∃ o ∈ t.owners, o.id = w.ownerId ∧ o.uuid = w.ownerUuid
  keyed : ∀ key id, t.keys.lookup key = some id → ∃ w ∈ t.wallets, w.id = id ∧ w.key = key
  indexed : ∀ w ∈ t.wallets, t.keys.lookup w.key = some w.id
  balances : ∀ w ∈ t.wallets, w.balance.isNegative = false
  refs : ∀ ref place, t.refs.lookup ref = some place →
    ∃ p, t.log[place]? = some p ∧ p.ref = some ref
  logged : ∀ (place : Nat) (p : Posting) (ref : String), t.log[place]? = some p →
    p.ref = some ref → t.refs.lookup ref = some place

namespace WalletTable

variable {t t' : WalletTable}

theorem Sound.wallet?_of_mem (h : t.Sound) {w : Wallet} (hw : w ∈ t.wallets) :
    t.wallet? w.id = some w :=
  find?_of_mem Wallet.id h.walletIds hw

/-- The wallet that is found under a key has it. -/
theorem Sound.key_of_find? (h : t.Sound) {key : WalletKey} {w : Wallet}
    (hw : t.find? key = some w) : w ∈ t.wallets ∧ w.key = key := by
  obtain ⟨id, hid, hfound⟩ := Option.bind_eq_some_iff.1 hw
  obtain ⟨x, hx, rfl, hkey⟩ := h.keyed key id hid
  rw [h.wallet?_of_mem hx] at hfound
  cases hfound
  exact ⟨hx, hkey⟩

theorem Sound.find?_key_of_mem (h : t.Sound) {w : Wallet} (hw : w ∈ t.wallets) :
    t.find? w.key = some w := by
  rw [find?, h.indexed w hw, Option.bind_some, h.wallet?_of_mem hw]

/-- A wallet bears the uuid of the owner whose number it bears. -/
theorem Sound.ownerUuid_eq (h : t.Sound) {w : Wallet} {o : Owner} (hw : w ∈ t.wallets)
    (ho : ∃ x ∈ t.owners, x.id = o.id ∧ x.uuid = o.uuid) (hid : w.ownerId = o.id) :
    w.ownerUuid = o.uuid := by
  obtain ⟨x, hx, hxid, hxuuid⟩ := ho
  obtain ⟨y, hy, hyid, hyuuid⟩ := h.owned w hw
  have hfx := find?_of_mem Owner.id h.ownerIds hx
  have hfy := find?_of_mem Owner.id h.ownerIds hy
  rw [hyid, hid, ← hxid, hfx] at hfy
  cases hfy
  rw [← hyuuid, hxuuid]

/-- **A reference names one place of the log.** -/
theorem Sound.place_of_byRef? (h : t.Sound) {ref : String} {p : Posting}
    (hp : t.byRef? ref = some p) : ∃ place, t.log[place]? = some p ∧ p.ref = some ref ∧
      ∀ (place' : Nat) (q : Posting), t.log[place']? = some q → q.ref = some ref →
        place' = place := by
  obtain ⟨place, hplace, hget⟩ := Option.bind_eq_some_iff.1 hp
  obtain ⟨q, hq, href⟩ := h.refs ref place hplace
  rw [hget] at hq
  cases hq
  refine ⟨place, hget, href, fun place' q hq hqref => ?_⟩
  have hlookup := h.logged place' q ref hq hqref
  rw [hplace] at hlookup
  exact (Option.some.inj hlookup).symm

theorem Sound.byRef?_of_mem (h : t.Sound) {ref : String} {p : Posting} (hp : p ∈ t.log)
    (href : p.ref = some ref) : t.byRef? ref = some p := by
  obtain ⟨place, hplace⟩ := List.getElem?_of_mem hp
  rw [byRef?, h.logged place p ref hplace href, Option.bind_some, hplace]

/-- The index of references finds what the log bears. -/
theorem Sound.exists_byRef?_iff (h : t.Sound) {ref : String} :
    (∃ p, t.byRef? ref = some p) ↔ ∃ p ∈ t.log, p.ref = some ref := by
  constructor
  · rintro ⟨p, hp⟩
    obtain ⟨place, hplace, href, -⟩ := h.place_of_byRef? hp
    exact ⟨p, List.mem_of_getElem? hplace, href⟩
  · rintro ⟨p, hp, href⟩
    exact ⟨p, h.byRef?_of_mem hp href⟩

/-- Another wallet is found as it was after a write. -/
theorem wallet?_write_of_ne {b : BalanceWrite} {id : Int} (hne : id ≠ b.walletId) :
    (t.write b).wallet? id = t.wallet? id := by
  rw [wallet?_write]
  cases h : t.wallet? id with
  | none => rfl
  | some w =>
    have hid := wallet?_id h
    rw [Option.map_some, if_neg (by rw [hid]; exact hne)]

/-- The wallet that is written is found as it was written. -/
theorem wallet?_write_self {id : Int} {w : Wallet} (hw : t.wallet? id = some w)
    (balance : Decimal) :
    (t.write (w.write balance)).wallet? id = some (written (w.write balance) w) := by
  rw [wallet?_write, hw, Option.map_some]
  exact congrArg some (if_pos rfl)

theorem mem_write {b : BalanceWrite} {w : Wallet} (hw : w ∈ (t.write b).wallets) :
    w ∈ t.wallets ∨ ∃ x ∈ t.wallets, x.id = b.walletId ∧ w = written b x := by
  obtain ⟨x, hx, rfl⟩ := List.mem_map.1 hw
  split_ifs with hid
  · exact .inr ⟨x, hx, hid, rfl⟩
  · exact .inl hx

theorem sound_empty : WalletTable.empty.Sound := by
  refine ⟨List.nodup_nil, ?_, List.nodup_nil, ?_, ?_, ?_, ?_, ?_, ?_, ?_⟩ <;> simp [empty]

theorem Sound.conflicts (h : t.Sound) (n : Nat) : { t with conflicts := n }.Sound :=
  ⟨h.1, h.2, h.3, h.4, h.5, h.6, h.7, h.8, h.9, h.10⟩

/-- A write keeps the table in order unless the new balance is negative. -/
theorem Sound.write (h : t.Sound) {b : BalanceWrite} (hb : b.newBalance.isNegative = false) :
    (t.write b).Sound := by
  -- Every wallet of the new table is one of the old table with, at most, another balance.
  have hmem : ∀ w ∈ (t.write b).wallets, ∃ x ∈ t.wallets, x.Same w ∧
      (w.balance = x.balance ∨ w.balance = b.newBalance) := by
    intro w hw
    obtain ⟨x, hx, rfl⟩ := List.mem_map.1 hw
    refine ⟨x, hx, ?_⟩
    split_ifs
    · exact ⟨Wallet.same_written b x, .inr rfl⟩
    · exact ⟨.refl x, .inl rfl⟩
  have hids : (t.write b).wallets.map (·.id) = t.wallets.map (·.id) :=
    map_key_of_keeps (fun w => by split_ifs <;> rfl) t.wallets
  refine ⟨h.ownerIds, h.lastOwner, hids ▸ h.walletIds, ?_, ?_, ?_, ?_, ?_, h.refs, h.logged⟩
  · intro w hw
    obtain ⟨x, hx, hsame, -⟩ := hmem w hw
    rw [← hsame.id]
    exact h.lastWallet x hx
  · intro w hw
    obtain ⟨x, hx, hsame, -⟩ := hmem w hw
    rw [← hsame.ownerId, ← hsame.ownerUuid]
    exact h.owned x hx
  · intro key id hkey
    obtain ⟨x, hx, hid, hxkey⟩ := h.keyed key id hkey
    refine ⟨_, List.mem_map_of_mem hx, ?_, ?_⟩
    · split_ifs <;> exact hid
    · split_ifs <;> exact hxkey
  · intro w hw
    obtain ⟨x, hx, hsame, -⟩ := hmem w hw
    have hkey : w.key = x.key := by
      rw [Wallet.key, Wallet.key, hsame.ownerId, hsame.currency, hsame.kind]
    rw [hkey, ← hsame.id]
    exact h.indexed x hx
  · intro w hw
    obtain ⟨x, hx, -, hbalance | hbalance⟩ := hmem w hw
    · rw [hbalance]; exact h.balances x hx
    · rw [hbalance]; exact hb

/-- A posting may be appended if its reference is new. -/
theorem Sound.append (h : t.Sound) {p : Posting} (hp : p.ref.bind t.byRef? = none) :
    (t.append p).Sound := by
  -- A reference that finds no posting is not in the index at all.
  have hnew : ∀ ref, p.ref = some ref → t.refs.lookup ref = none := by
    intro ref href
    rw [href, Option.bind_some] at hp
    cases hlookup : t.refs.lookup ref with
    | none => rfl
    | some place =>
      obtain ⟨q, hq, -⟩ := h.refs ref place hlookup
      rw [byRef?, hlookup, Option.bind_some, hq] at hp
      cases hp
  refine ⟨h.ownerIds, h.lastOwner, h.walletIds, h.lastWallet, h.owned, h.keyed, h.indexed,
    h.balances, ?_, ?_⟩
  -- What the index names bears the reference: an old place, or the new one at the end.
  · intro ref place hlookup
    unfold WalletTable.append at hlookup ⊢
    cases href : p.ref with
    | none =>
      rw [href] at hlookup
      obtain ⟨q, hq, hqref⟩ := h.refs ref place hlookup
      exact ⟨q, by rw [List.getElem?_append_left (List.getElem?_eq_some_iff.1 hq).1, hq], hqref⟩
    | some r =>
      simp only [href, List.lookup_append, Option.or_eq_some_iff] at hlookup
      rcases hlookup with hold | ⟨-, hlast⟩
      · obtain ⟨q, hq, hqref⟩ := h.refs ref place hold
        exact ⟨q, by rw [List.getElem?_append_left (List.getElem?_eq_some_iff.1 hq).1, hq], hqref⟩
      · rw [List.lookup_cons] at hlast
        split at hlast
        · rename_i heq
          cases hlast
          exact ⟨p, List.getElem?_concat_length, by rw [href, beq_iff_eq.1 heq]⟩
        · cases hlast
  -- What bears a reference is named by the index.
  · intro place q ref hget hqref
    unfold WalletTable.append at hget ⊢
    rcases Nat.lt_or_ge place t.log.length with hlt | hge
    · rw [List.getElem?_append_left hlt] at hget
      have hold := h.logged place q ref hget hqref
      cases p.ref with
      | none => exact hold
      | some r => simp only [List.lookup_append, hold, Option.some_or]
    · rw [List.getElem?_append_right hge, List.getElem?_singleton] at hget
      split_ifs at hget with hplace
      cases hget
      have hlen : t.log.length = place := by omega
      simp only [hqref, List.lookup_append, hnew ref hqref, Option.none_or, List.lookup_cons_self,
        hlen]

theorem Sound.createOwner (h : t.Sound) {uuid title level : String} {flags : Int} {o : Owner}
    (ht : t.createOwner uuid title level flags = .ok (o, t')) : t'.Sound := by
  obtain ⟨-, rfl, rfl⟩ := createOwner_eq ht
  refine ⟨nodup_append_fresh _ h.ownerIds h.lastOwner rfl,
    le_of_mem_append_fresh Owner.id h.lastOwner rfl, h.walletIds, h.lastWallet, ?_, h.keyed,
    h.indexed, h.balances, h.refs, h.logged⟩
  intro w hw
  obtain ⟨x, hx, hid, huuid⟩ := h.owned w hw
  exact ⟨x, List.mem_append_left _ hx, hid, huuid⟩

theorem Sound.setFlags (h : t.Sound) {uuid : String} {flags : Int} {o : Owner}
    (ht : t.setFlags uuid flags = .ok (o, t')) : t'.Sound := by
  obtain rfl := setFlags_eq ht
  have hids : (t.owners.map fun o => if o.uuid = uuid then { o with flags } else o).map (·.id) =
      t.owners.map (·.id) := map_key_of_keeps (fun x => by split_ifs <;> rfl) t.owners
  refine ⟨hids ▸ h.ownerIds, ?_, h.walletIds, h.lastWallet, ?_, h.keyed, h.indexed, h.balances,
    h.refs, h.logged⟩
  · intro o ho
    obtain ⟨x, hx, rfl⟩ := List.mem_map.1 ho
    have hle := h.lastOwner x hx
    split_ifs <;> exact hle
  · intro w hw
    obtain ⟨x, hx, hid, huuid⟩ := h.owned w hw
    refine ⟨_, List.mem_map_of_mem hx, ?_, ?_⟩
    · split_ifs <;> exact hid
    · split_ifs <;> exact huuid

/-- A wallet may be opened for an owner who is there. -/
theorem Sound.createWallet (h : t.Sound) {owner : Owner} {initial : Amount} {kind : WalletKind}
    {w : Wallet} (ho : ∃ x ∈ t.owners, x.id = owner.id ∧ x.uuid = owner.uuid)
    (ht : t.createWallet owner ⟨owner.id, initial.currency, kind⟩ initial = .ok (w, t')) :
    t'.Sound := by
  obtain ⟨-, hneg, hfree, hw, rfl⟩ := createWallet_eq ht
  have hid : w.id = t.lastWalletId + 1 := by rw [hw]
  have hkey : w.key = ⟨owner.id, initial.currency, kind⟩ := by rw [hw]; rfl
  refine ⟨h.ownerIds, h.lastOwner, nodup_append_fresh _ h.walletIds h.lastWallet hid,
    le_of_mem_append_fresh Wallet.id h.lastWallet hid, ?_, ?_, ?_, ?_, h.refs, h.logged⟩
  · intro x hx
    rcases List.mem_append.1 hx with hmem | hmem
    · exact h.owned x hmem
    · rw [List.mem_singleton.1 hmem, hw]
      exact ho
  · intro key id hlookup
    simp only [List.lookup_append, Option.or_eq_some_iff] at hlookup
    rcases hlookup with hold | ⟨-, hlast⟩
    · obtain ⟨x, hx, hxid, hxkey⟩ := h.keyed key id hold
      exact ⟨x, List.mem_append_left _ hx, hxid, hxkey⟩
    · rw [List.lookup_cons] at hlast
      split at hlast
      · rename_i heq
        cases hlast
        exact ⟨w, List.mem_append_right _ (List.mem_singleton_self w), rfl,
          by rw [hkey, beq_iff_eq.1 heq]⟩
      · cases hlast
  · intro x hx
    rcases List.mem_append.1 hx with hmem | hmem
    · simp only [List.lookup_append, h.indexed x hmem, Option.some_or]
    · rw [List.mem_singleton.1 hmem, hkey]
      simp only [List.lookup_append, hfree, Option.none_or, List.lookup_cons_self]
  · intro x hx
    rcases List.mem_append.1 hx with hmem | hmem
    · exact h.balances x hmem
    · rw [List.mem_singleton.1 hmem, hw]
      exact hneg

end WalletTable

namespace Movement

theorem check_pos {mv : Movement} (h : mv.check = .ok ()) :
    mv.sourceAmount.value.isPositive = true := by
  unfold check at h
  split_ifs at h with hpos
  all_goals
    rw [Bool.not_eq_true, Bool.not_eq_false', Bool.and_eq_true] at hpos
    exact hpos.1

theorem check_ne {mv : Movement} (h : mv.check = .ok ()) : mv.source.id ≠ mv.dest.id := by
  unfold check at h
  split_ifs at h with _ hid
  all_goals exact hid

end Movement

/-- A balance that was computed is not negative. -/
theorem Wallet.balanceAfter_eq {w : Wallet} {change : Amount} {balance : Decimal}
    (h : w.balanceAfter change = .ok balance) :
    change.currency = w.currency ∧ w.balance.add? change.value = some balance ∧
      balance.isNegative = false := by
  unfold balanceAfter at h
  split_ifs at h with hcur
  · split at h
    · cases h
    · rename_i b hb
      split_ifs at h with hneg
      cases h
      exact ⟨not_not.1 hcur, hb, by simpa using hneg⟩

theorem WalletTable.Posts.sound {t t' : WalletTable} {access : Access} {mv : Movement} {p : Posting}
    (hp : t.Posts access mv p t') (h : t.Sound) : t'.Sound := by
  cases hp with
  | made source dest sourceAfter destAfter _ _ _ _ _ _ debit credit unused =>
    have hdebit := h.write (b := source.write sourceAfter) (Wallet.balanceAfter_eq debit).2.2
    have hcredit := hdebit.write (b := dest.write destAfter) (Wallet.balanceAfter_eq credit).2.2
    exact hcredit.append unused

/-- **The wallets after a posting:** the balances of its two wallets are those that it records, and
the other wallets hold what they held. -/
theorem WalletTable.Posts.of_wallet? {t t' : WalletTable} {access : Access} {mv : Movement}
    {p : Posting} (hp : t.Posts access mv p t') {id : Int} {w : Wallet}
    (hw : t'.wallet? id = some w) :
    ∃ v, t.wallet? id = some v ∧ v.Same w ∧
      (id = mv.source.id ∧ v.balance = p.source.balanceBefore ∧
          w.balance = p.source.balanceAfter ∨
        id = mv.dest.id ∧ id ≠ mv.source.id ∧ v.balance = p.dest.balanceBefore ∧
          w.balance = p.dest.balanceAfter ∨
        id ≠ mv.source.id ∧ id ≠ mv.dest.id ∧ w.balance = v.balance) := by
  cases hp with
  | made source dest sourceAfter destAfter _ _ checked hsource hdest =>
    have hs := wallet?_id hsource
    have hd := wallet?_id hdest
    have hw : ((t.write (source.write sourceAfter)).write (dest.write destAfter)).wallet? id =
        some w := hw
    -- The source and the destination are not the same wallet, so no wallet is written twice.
    by_cases hid : id = mv.source.id
    · have hne : id ≠ (dest.write destAfter).walletId := by
        show id ≠ dest.id
        rw [hd, hid]
        exact Movement.check_ne checked
      rw [wallet?_write_of_ne hne, hid, wallet?_write_self hsource] at hw
      cases hw
      exact ⟨source, by rw [hid, hsource], Wallet.same_written _ _, .inl ⟨hid, rfl, rfl⟩⟩
    · have hne : id ≠ (source.write sourceAfter).walletId := by
        show id ≠ source.id
        rw [hs]
        exact hid
      by_cases hid' : id = mv.dest.id
      · have hdest' : (t.write (source.write sourceAfter)).wallet? id = some dest := by
          rw [wallet?_write_of_ne hne, hid', hdest]
        rw [wallet?_write_self hdest'] at hw
        cases hw
        exact ⟨dest, by rw [hid', hdest], Wallet.same_written _ _,
          .inr (.inl ⟨hid', hid, rfl, rfl⟩)⟩
      · have hne' : id ≠ (dest.write destAfter).walletId := by
          show id ≠ dest.id
          rw [hd]
          exact hid'
        rw [wallet?_write_of_ne hne', wallet?_write_of_ne hne] at hw
        exact ⟨w, hw, .refl w, .inr (.inr ⟨hid, hid', rfl⟩)⟩

/-! ## 3. The memory -/

/-- **The rows of the memory are in order.** -/
structure Memory.Sound (m : Memory) : Prop where
  wallets : m.wallets.Sound
  rowIds : (m.withdrawals.rows.map (·.id)).Nodup
  lastRow : ∀ w ∈ m.withdrawals.rows, w.id ≤ m.withdrawals.lastId
  /-- The funds of a request stand in the cashout wallet of the owner who made it. -/
  held : ∀ w ∈ m.withdrawals.rows, w.type = .onChain → ∃ x, m.HasWallet x ∧ x.id = w.walletId ∧
    x.kind = .cashout ∧ x.ownerUuid = w.ownerUuid ∧ x.currency = w.currency

namespace Memory

variable {m : Memory}

theorem sound_empty (ids : IdSource) : (Memory.empty ids).Sound :=
  ⟨WalletTable.sound_empty, List.nodup_nil, fun _ hw => absurd hw List.not_mem_nil,
    fun _ hw => absurd hw List.not_mem_nil⟩

/-- Owners, wallets and postings may change by themselves. -/
theorem Sound.withWallets (h : m.Sound) {m' : Memory} (hwallets : m'.wallets.Sound)
    (hrows : m'.withdrawals = m.withdrawals) (hheld : ∀ x, m.HasWallet x → m'.HasWallet x) :
    m'.Sound := by
  refine ⟨hwallets, hrows ▸ h.rowIds, hrows ▸ h.lastRow, fun w hw htype => ?_⟩
  rw [hrows] at hw
  obtain ⟨x, hx, hrest⟩ := h.held w hw htype
  exact ⟨x, hheld x hx, hrest⟩

/-- The rows after one of them was replaced are the rows before, some of them changed. -/
theorem mem_replace {t : WithdrawalTable} {row w : Withdrawal} (hw : w ∈ (t.replace row).rows) :
    w ∈ t.rows ∨ (w = row ∧ ∃ v ∈ t.rows, v.id = row.id) := by
  obtain ⟨v, hv, rfl⟩ := List.mem_map.1 hw
  split_ifs with hid
  · exact .inr ⟨rfl, v, hv, hid⟩
  · exact .inl hv

end Memory

/-- **Every change keeps the rows in order.** -/
theorem Change.sound {m m' : Memory} {e : Effect} (h : Change m e m') (hm : m.Sound) :
    m'.Sound := by
  have hheld := fun x => h.hasWallet (w := x)
  cases h with
  | conflict h =>
    obtain ⟨n, -, rfl⟩ := WalletTable.takeConflict?_eq h
    exact hm.withWallets (hm.wallets.conflicts n) rfl hheld
  | pending n => exact hm.withWallets (hm.wallets.conflicts n) rfl hheld
  | owner h => exact hm.withWallets (hm.wallets.createOwner h) rfl hheld
  | flags h => exact hm.withWallets (hm.wallets.setFlags h) rfl hheld
  | wallet ho h => exact hm.withWallets (hm.wallets.createWallet ho h) rfl hheld
  | edit _ h => exact hm.withWallets (hm.wallets.write (Wallet.balanceAfter_eq h).2.2) rfl hheld
  | transfer h _ _ => exact hm.withWallets (h.sound hm.wallets) rfl hheld
  | movement h => exact hm.withWallets (h.sound hm.wallets) rfl hheld
  | @row d now w _ enters h =>
    obtain ⟨-, hw, rfl⟩ := WithdrawalTable.insert_eq h
    have hid : w.id = m.withdrawals.lastId + 1 := by rw [hw]; rfl
    refine ⟨hm.wallets, nodup_append_fresh _ hm.rowIds hm.lastRow hid,
      le_of_mem_append_fresh Withdrawal.id hm.lastRow hid, fun v hv htype => ?_⟩
    rcases List.mem_append.1 hv with hmem | hmem
    · exact hm.held v hmem htype
    · rw [List.mem_singleton.1 hmem, hw] at htype ⊢
      cases enters with
      | requested amount cashout _ _ _ held walletId kind owner same _ _ =>
        exact ⟨cashout, held, walletId.symm, kind, owner, same⟩
      | manually _ _ _ type =>
        have hcontra : WithdrawalType.manually = .onChain := type.symm.trans htype
        cases hcontra
  | @rows w held =>
    obtain ⟨x, hx, hsame⟩ := held
    have hids : (m.withdrawals.replace w).rows.map (·.id) = m.withdrawals.rows.map (·.id) := by
      refine map_key_of_keeps (fun v => ?_) m.withdrawals.rows
      split_ifs with hid
      · exact hid.symm
      · rfl
    refine ⟨hm.wallets, hids ▸ hm.rowIds, fun v hv => ?_, fun v hv htype => ?_⟩
    · rcases Memory.mem_replace hv with hmem | ⟨rfl, u, hu, hid⟩
      · exact hm.lastRow v hmem
      · rw [← hid]
        exact hm.lastRow u hu
    · rcases Memory.mem_replace hv with hmem | ⟨rfl, -⟩
      · exact hm.held v hmem htype
      -- The row that takes the place of another says the same about its owner and its funds.
      · rw [hsame.walletId, hsame.ownerUuid, hsame.currency]
        rw [hsame.type] at htype
        exact hm.held x (WithdrawalTable.mem_of_find? hx) htype
  | reservation => exact ⟨hm.wallets, hm.rowIds, hm.lastRow, hm.held⟩
  | currency => exact ⟨hm.wallets, hm.rowIds, hm.lastRow, hm.held⟩
  | rate => exact ⟨hm.wallets, hm.rowIds, hm.lastRow, hm.held⟩

theorem Ledger.Evolves.sound {f : Effect → Prop} {l l' : Ledger (Faulty Memory)}
    (h : l.Evolves f l') (hl : l.memory.Sound) : l'.memory.Sound :=
  h.preserves (fun _ _ _ _ hc => hc.sound) hl

end WalletLedger
