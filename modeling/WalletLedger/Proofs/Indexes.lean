/-
How the five collections of the table of wallets hang together.

Owners and wallets are rows, the postings are a log, and two indexes stand beside them: from keys to
wallets and from references to places of the log. A search by a key or a reference goes through its
index, so it is right only if the index says what the rows say. `WalletTable.Linked` says that it
does, in both directions: an entry of the index leads to what has the key, and whatever has a key is
led to.

The calls may come from anybody, with any arguments in any order, and conflicts may be asked for in
between. There is one condition: who opens a wallet builds its key from the owner that the wallet is
opened for (`StoreStep.KeyOfOwner`); the table takes the currency and the kind of the wallet from
the key, but the owner from the owner.

What a call can do to the table is said once (`WalletTable.Step`). That the indexes follow from the
rows (`Indexed`) and that nothing is lost (`Grows`) is read off it.
-/
import WalletLedger.Proofs.Versions

set_option autoImplicit false

namespace WalletLedger

open WalletLedger.Action

/-! ## 1. Lists as indexes -/

/-- Where no key is given twice, a search by a key finds the entry that has it. -/
theorem lookup_eq_some_iff_mem {κ ν : Type} [BEq κ] [LawfulBEq κ] {entries : List (κ × ν)}
    (h : (entries.map Prod.fst).Nodup) {key : κ} {value : ν} :
    entries.lookup key = some value ↔ (key, value) ∈ entries := by
  induction entries with
  | nil => simp
  | cons entry rest ih =>
    obtain ⟨k, v⟩ := entry
    rw [List.map_cons, List.nodup_cons] at h
    rw [List.lookup_cons, List.mem_cons, Prod.mk.injEq]
    by_cases hk : key = k
    · subst hk
      have hrest : (key, value) ∉ rest := fun hmem => h.1 (List.mem_map.2 ⟨_, hmem, rfl⟩)
      simp [hrest, eq_comm]
    · rw [beq_false_of_ne hk]
      simp [hk, ih h.2]

namespace WalletTable

/-- **The references that a log bears,** with the places of their postings. -/
def places (log : List Posting) : List (String × ℕ) :=
  log.zipIdx.filterMap fun (p, place) => p.ref.map (·, place)

variable {log : List Posting} {p : Posting} {ref : String} {place : ℕ}

theorem mem_places_iff :
    (ref, place) ∈ places log ↔ ∃ p, log[place]? = some p ∧ p.ref = some ref := by
  simp only [places, List.mem_filterMap, Prod.exists, List.mem_zipIdx_iff_getElem?,
    Option.map_eq_some_iff, Prod.mk.injEq]
  constructor
  · rintro ⟨p, i, hp, r, hr, rfl, rfl⟩
    exact ⟨p, hp, hr⟩
  · rintro ⟨p, hp, hr⟩
    exact ⟨p, place, hp, ref, hr, rfl, rfl⟩

theorem places_append (log : List Posting) (p : Posting) :
    places (log ++ [p]) = places log ++ (p.ref.map (·, log.length)).toList := by
  rw [places, List.zipIdx_append, List.filterMap_append, places]
  cases h : p.ref <;> simp [h]

end WalletTable

/-! ## 2. What a call does to the table -/

/-- What of an owner is fixed for good. -/
def Owner.identity (o : Owner) : ℤ × String × String × String := (o.id, o.uuid, o.title, o.level)

/-- What of a wallet is fixed for good. -/
def Wallet.identity (w : Wallet) : ℤ × WalletKey × String := (w.id, w.key, w.ownerUuid)

/-- **The key that a wallet is opened under names the owner that it is opened for.** -/
def Call.KeyOfOwner : {α : Type} → Call α → Prop
  | _, .createWallet owner key _ => key.ownerId = owner.id
  | _, _ => True

def StoreStep.KeyOfOwner : StoreStep → Prop
  | .call c => c.KeyOfOwner
  | .inject _ => True

namespace WalletTable

variable {t t' : WalletTable}

/-- **What a call can do to the table.** -/
inductive Step (t : WalletTable) : WalletTable → Prop
  /-- At most a pending conflict is used up, or conflicts are asked for. -/
  | idle (conflicts : ℕ) : Step t { t with conflicts }
  | owner {uuid title level : String} {flags : ℤ} {o : Owner} {t' : WalletTable}
      (h : t.createOwner uuid title level flags = .ok (o, t')) : Step t t'
  | flags {uuid : String} {flags : ℤ} {o : Owner} {t' : WalletTable}
      (h : t.setFlags uuid flags = .ok (o, t')) : Step t t'
  | wallet {owner : Owner} {key : WalletKey} {initial : Amount} {w : Wallet} {t' : WalletTable}
      (own : key.ownerId = owner.id) (h : t.createWallet owner key initial = .ok (w, t')) :
      Step t t'
  | write (b : BalanceWrite) : Step t (t.write b)
  | posting (debit credit : BalanceWrite) (p : Posting) (unused : p.ref.bind t.byRef? = none) :
      Step t (((t.write debit).write credit).append p)

theorem Step.refl (t : WalletTable) : t.Step t := .idle t.conflicts

theorem step_compareAndSet {b : BalanceWrite} {o : Option Wallet}
    (h : t.compareAndSet b = .ok (o, t')) : t.Step t' := by
  rcases compareAndSet_inv h with ⟨-, n, rfl⟩ | ⟨w, -, -, rfl⟩
  · exact .idle n
  · exact .write b

theorem step_commit {debit credit : BalanceWrite} {p : Posting} {outcome : CommitOutcome}
    (h : t.commit debit credit p = .ok (outcome, t')) : t.Step t' := by
  rcases commit_inv h with ⟨-, hunused, rfl⟩ | ⟨-, n, rfl⟩
  · exact .posting debit credit p hunused
  · exact .idle n

end WalletTable

/-- **Every call is such a step.** -/
theorem Memory.step_answer {α : Type} {c : Call α} {m m' : Memory} {a : α} (own : c.KeyOfOwner)
    (h : m.answer c = .ok (a, m')) : m.wallets.Step m'.wallets := by
  cases hc : c.reachesWallets with
  | true =>
    cases c with
    | createOwner =>
      obtain ⟨t, hcreate, rfl⟩ := answering_eq h
      exact .owner hcreate
    | setFlags =>
      obtain ⟨t, hset, rfl⟩ := answering_eq h
      exact .flags hset
    | createWallet =>
      obtain ⟨t, hcreate, rfl⟩ := answering_eq h
      exact .wallet own hcreate
    | compareAndSet =>
      obtain ⟨t, hset, rfl⟩ := answering_eq h
      exact WalletTable.step_compareAndSet hset
    | commitPosting => exact WalletTable.step_commit (commit_of_answer h)
    | _ => cases hc
  | false =>
    rw [wallets_of_answer h hc]
    exact .refl _

theorem StoreStep.step_after (m : Memory) {step : StoreStep} (own : step.KeyOfOwner) :
    m.wallets.Step (step.after m).wallets := by
  cases step with
  | inject conflicts => exact .idle conflicts
  | call c =>
    simp only [after, Memory.call, runIn_ofFun]
    cases h : m.answer c with
    | error cause => exact .refl _
    | ok r => exact Memory.step_answer own h

/-! ## 3. The indexes follow from the rows -/

namespace WalletTable

variable {t t' t'' : WalletTable} {p : Posting}

/-- **The indexes follow from the rows,** and rows are numbered in turn. -/
structure Indexed (t : WalletTable) : Prop where
  uuids : (t.owners.map (·.uuid)).Nodup
  ownerIds : (t.owners.map (·.id)).Pairwise (· < ·)
  lastOwner : ∀ o ∈ t.owners, o.id ≤ t.lastOwnerId
  walletIds : (t.wallets.map (·.id)).Pairwise (· < ·)
  lastWallet : ∀ w ∈ t.wallets, w.id ≤ t.lastWalletId
  keys : t.keys = t.wallets.map fun w => (w.key, w.id)
  once : (t.keys.map Prod.fst).Nodup
  refs : t.refs = places t.log
  refsOnce : (t.refs.map Prod.fst).Nodup

theorem indexed_empty : empty.Indexed :=
  ⟨.nil, .nil, fun _ ho => (nomatch ho), .nil, fun _ hw => (nomatch hw), rfl, .nil, rfl, .nil⟩

/-- A new key after others of which none is the same. -/
theorem nodup_keys_append {κ ν : Type} [BEq κ] [LawfulBEq κ] {entries : List (κ × ν)} {key : κ}
    {value : ν} (h : (entries.map Prod.fst).Nodup) (hnew : entries.lookup key = none) :
    ((entries ++ [(key, value)]).map Prod.fst).Nodup := by
  rw [List.map_append, List.nodup_append]
  refine ⟨h, List.nodup_singleton _, fun k hk k' hk' heq => ?_⟩
  obtain ⟨⟨k, v⟩, hmem, rfl⟩ := List.mem_map.1 hk
  rw [List.map_singleton, List.mem_singleton] at hk'
  have hfound := (lookup_eq_some_iff_mem h).2 hmem
  rw [show k = key from heq.trans hk', hnew] at hfound
  cases hfound

theorem Indexed.createOwner (h : t.Indexed) {uuid title level : String} {flags : ℤ} {o : Owner}
    (ht : t.createOwner uuid title level flags = .ok (o, t')) : t'.Indexed := by
  obtain ⟨hnew, ho, rfl⟩ := createOwner_eq ht
  have hid : o.id = t.lastOwnerId + 1 := by rw [ho]
  refine { h with
    uuids := ?_
    ownerIds := ascending_append_fresh Owner.id h.ownerIds h.lastOwner hid
    lastOwner := le_of_mem_append_fresh Owner.id h.lastOwner hid }
  rw [List.map_append, List.map_singleton, List.nodup_append]
  refine ⟨h.uuids, List.nodup_singleton _, fun u hu u' hu' heq => ?_⟩
  obtain ⟨x, hx, rfl⟩ := List.mem_map.1 hu
  have hother := List.find?_eq_none.1 hnew x hx
  rw [List.mem_singleton.1 hu', ho] at heq
  simp [heq] at hother

theorem Indexed.setFlags (h : t.Indexed) {uuid : String} {flags : ℤ} {o : Owner}
    (ht : t.setFlags uuid flags = .ok (o, t')) : t'.Indexed := by
  obtain rfl := setFlags_eq ht
  refine { h with uuids := ?_, ownerIds := ?_, lastOwner := fun o ho => ?_ }
  · rw [map_key_of_keeps fun x => by split_ifs <;> rfl]
    exact h.uuids
  · rw [map_key_of_keeps fun x => by split_ifs <;> rfl]
    exact h.ownerIds
  · obtain ⟨x, hx, rfl⟩ := List.mem_map.1 ho
    have hle := h.lastOwner x hx
    split_ifs <;> exact hle

theorem Indexed.createWallet (h : t.Indexed) {owner : Owner} {key : WalletKey} {initial : Amount}
    {w : Wallet} (own : key.ownerId = owner.id)
    (ht : t.createWallet owner key initial = .ok (w, t')) : t'.Indexed := by
  obtain ⟨-, -, hfree, hw, rfl⟩ := createWallet_eq ht
  have hid : w.id = t.lastWalletId + 1 := by rw [hw]
  have hkey : w.key = key := by rw [hw, Wallet.key, ← own]
  refine { h with
    walletIds := ascending_append_fresh Wallet.id h.walletIds h.lastWallet hid
    lastWallet := le_of_mem_append_fresh Wallet.id h.lastWallet hid
    keys := ?_
    once := nodup_keys_append h.once hfree }
  rw [List.map_append, List.map_singleton, hkey, h.keys]

theorem Indexed.write (h : t.Indexed) (b : BalanceWrite) : (t.write b).Indexed := by
  refine { h with walletIds := ?_, lastWallet := fun w hw => ?_, keys := ?_ }
  · rw [WalletTable.write, map_key_of_keeps fun x => by split_ifs <;> rfl]
    exact h.walletIds
  · rcases mem_write hw with hmem | ⟨x, hx, -, rfl⟩
    · exact h.lastWallet w hmem
    · exact h.lastWallet x hx
  · refine h.keys.trans (map_key_of_keeps (fun x => ?_) t.wallets).symm
    split_ifs <;> rfl

/-- A reference that finds no posting is not in the index. -/
theorem Indexed.lookup_of_unused (h : t.Indexed) {ref : String} (hunused : t.byRef? ref = none) :
    t.refs.lookup ref = none := by
  cases hlookup : t.refs.lookup ref with
  | none => rfl
  | some place =>
    have hmem := (lookup_eq_some_iff_mem h.refsOnce).1 hlookup
    rw [h.refs, mem_places_iff] at hmem
    obtain ⟨q, hq, -⟩ := hmem
    rw [byRef?, hlookup, Option.bind_some, hq] at hunused
    cases hunused

theorem Indexed.append (h : t.Indexed) (hunused : p.ref.bind t.byRef? = none) :
    (t.append p).Indexed := by
  refine { h with refs := ?_, refsOnce := ?_ }
  · rw [append_refs, h.refs]
    exact (places_append t.log p).symm
  · rw [append_refs]
    cases href : p.ref with
    | none => simpa using h.refsOnce
    | some ref =>
      rw [href, Option.bind_some] at hunused
      exact nodup_keys_append h.refsOnce (h.lookup_of_unused hunused)

/-- **Every step keeps the indexes in line with the rows.** -/
theorem Step.indexed (step : t.Step t') (h : t.Indexed) : t'.Indexed := by
  cases step with
  | idle => exact { h with }
  | owner ht => exact h.createOwner ht
  | flags ht => exact h.setFlags ht
  | wallet own ht => exact h.createWallet own ht
  | write b => exact h.write b
  | posting debit credit p unused => exact ((h.write debit).write credit).append unused

/-! ## 4. Nothing is lost -/

/-- **The second table is the first one, continued:** owners and wallets are who they were and where
they were, the log and the indexes have at most become longer. -/
structure Grows (t t' : WalletTable) : Prop where
  owners : t.owners.map Owner.identity <+: t'.owners.map Owner.identity
  wallets : t.wallets.map Wallet.identity <+: t'.wallets.map Wallet.identity
  log : t.log <+: t'.log
  keys : t.keys <+: t'.keys
  refs : t.refs <+: t'.refs

theorem Grows.refl (t : WalletTable) : t.Grows t :=
  ⟨List.prefix_rfl, List.prefix_rfl, List.prefix_rfl, List.prefix_rfl, List.prefix_rfl⟩

theorem Grows.trans (h : t.Grows t') (h' : t'.Grows t'') : t.Grows t'' :=
  ⟨h.owners.trans h'.owners, h.wallets.trans h'.wallets, h.log.trans h'.log, h.keys.trans h'.keys,
    h.refs.trans h'.refs⟩

theorem map_identity_write (t : WalletTable) (b : BalanceWrite) :
    (t.write b).wallets.map Wallet.identity = t.wallets.map Wallet.identity :=
  map_key_of_keeps (fun x => by split_ifs <;> rfl) t.wallets

theorem grows_write (t : WalletTable) (b : BalanceWrite) : t.Grows (t.write b) :=
  { Grows.refl t with wallets := (map_identity_write t b).symm ▸ List.prefix_rfl }

theorem grows_append (t : WalletTable) (p : Posting) : t.Grows (t.append p) :=
  { Grows.refl t with
    log := List.prefix_append _ _
    refs := append_refs t p ▸ List.prefix_append _ _ }

/-- **No step loses anything.** -/
theorem Step.grows (step : t.Step t') : t.Grows t' := by
  cases step with
  | idle => exact { Grows.refl t with }
  | owner h =>
    obtain ⟨-, -, rfl⟩ := createOwner_eq h
    exact { Grows.refl t with owners := List.map_append ▸ List.prefix_append _ _ }
  | flags h =>
    obtain rfl := setFlags_eq h
    refine { Grows.refl t with owners := ?_ }
    rw [map_key_of_keeps fun x => by split_ifs <;> rfl]
  | wallet _ h =>
    obtain ⟨-, -, -, -, rfl⟩ := createWallet_eq h
    exact { Grows.refl t with
      wallets := List.map_append ▸ List.prefix_append _ _
      keys := List.prefix_append _ _ }
  | write b => exact grows_write t b
  | posting debit credit p =>
    exact ((grows_write t debit).trans (grows_write _ credit)).trans (grows_append _ p)

end WalletTable

namespace StoreStep

theorem afterAll_append (m : Memory) (earlier later : List StoreStep) :
    afterAll m (earlier ++ later) = afterAll (afterAll m earlier) later :=
  List.foldl_append

/-- **So it is over any number of calls.** The induction is on the steps. -/
theorem indexed_grows_all (steps : List StoreStep) : ∀ {m : Memory},
    (∀ step ∈ steps, step.KeyOfOwner) → m.wallets.Indexed →
    (afterAll m steps).wallets.Indexed ∧ m.wallets.Grows (afterAll m steps).wallets := by
  induction steps with
  | nil => exact fun _ h => ⟨h, .refl _⟩
  | cons step steps ih =>
    intro m own h
    have hstep := step_after m (own step List.mem_cons_self)
    obtain ⟨hindexed, hgrows⟩ := ih (m := step.after m)
      (fun s hs => own s (List.mem_cons_of_mem step hs)) (hstep.indexed h)
    exact ⟨hindexed, hstep.grows.trans hgrows⟩

end StoreStep

/-! ## 5. What a search may rely on -/

namespace WalletTable

variable {t t' : WalletTable}

/-- **The five collections hang together.** No uuid, number, key or reference is given twice. The
index of keys and the wallets say the same: under a key stands a number if and only if the wallet
with that number has that key. The index of references and the log say the same: under a reference
stands a place if and only if the posting at that place bears it. -/
structure Linked (t : WalletTable) : Prop where
  uuids : (t.owners.map (·.uuid)).Nodup
  ownerIds : (t.owners.map (·.id)).Nodup
  walletIds : (t.wallets.map (·.id)).Nodup
  keys : (t.keys.map Prod.fst).Nodup
  keyed : ∀ key id, t.keys.lookup key = some id ↔ ∃ w, t.wallet? id = some w ∧ w.key = key
  refs : (t.refs.map Prod.fst).Nodup
  placed : ∀ ref place, t.refs.lookup ref = some place ↔
    ∃ p, t.log[place]? = some p ∧ p.ref = some ref

theorem Indexed.linked (h : t.Indexed) : t.Linked := by
  have howners : (t.owners.map (·.id)).Nodup := h.ownerIds.imp ne_of_lt
  have hwallets : (t.wallets.map (·.id)).Nodup := h.walletIds.imp ne_of_lt
  refine ⟨h.uuids, howners, hwallets, h.once, fun key id => ?_, h.refsOnce, fun ref place => ?_⟩
  · rw [lookup_eq_some_iff_mem h.once, h.keys, List.mem_map]
    constructor
    · rintro ⟨w, hw, heq⟩
      cases heq
      exact ⟨w, find?_of_mem Wallet.id hwallets hw, rfl⟩
    · rintro ⟨w, hw, rfl⟩
      exact ⟨w, mem_of_wallet? hw, by rw [wallet?_id hw]⟩
  · rw [lookup_eq_some_iff_mem h.refsOnce, h.refs, mem_places_iff]

/-- **A search by a key** finds the wallet that has it. -/
theorem Linked.find?_eq_some_iff (h : t.Linked) {key : WalletKey} {w : Wallet} :
    t.find? key = some w ↔ w ∈ t.wallets ∧ w.key = key := by
  rw [find?, Option.bind_eq_some_iff]
  constructor
  · rintro ⟨id, hid, hw⟩
    obtain ⟨x, hx, hkey⟩ := (h.keyed key id).1 hid
    rw [hw] at hx
    cases hx
    exact ⟨mem_of_wallet? hw, hkey⟩
  · rintro ⟨hw, hkey⟩
    have hfound : t.wallet? w.id = some w := find?_of_mem Wallet.id h.walletIds hw
    exact ⟨w.id, (h.keyed key w.id).2 ⟨w, hfound, hkey⟩, hfound⟩

/-- **A search by a reference** finds the posting that bears it. -/
theorem Linked.byRef?_eq_some_iff (h : t.Linked) {ref : String} {p : Posting} :
    t.byRef? ref = some p ↔ p ∈ t.log ∧ p.ref = some ref := by
  rw [byRef?, Option.bind_eq_some_iff]
  constructor
  · rintro ⟨place, hplace, hp⟩
    obtain ⟨q, hq, href⟩ := (h.placed ref place).1 hplace
    rw [hp] at hq
    cases hq
    exact ⟨List.mem_of_getElem? hp, href⟩
  · rintro ⟨hp, href⟩
    obtain ⟨place, hplace⟩ := List.getElem?_of_mem hp
    exact ⟨place, (h.placed ref place).2 ⟨p, hplace, href⟩, hplace⟩

/-- Where no number is given twice, a number means what it meant before. -/
theorem identity_eq_of_prefix {α β : Type} {id : α → ℤ} {identity : α → β}
    (hidentity : ∀ x y, identity x = identity y → id x = id y) {xs ys : List α}
    (hinitial : xs.map identity <+: ys.map identity) (hnodup : (ys.map id).Nodup) {x y : α}
    (hx : x ∈ xs) (hy : y ∈ ys) (hid : id y = id x) : identity y = identity x := by
  obtain ⟨z, hz, heq⟩ := List.mem_map.1 (hinitial.subset (List.mem_map_of_mem hx))
  have hsame : z = y :=
    List.inj_on_of_nodup_map hnodup hz hy ((hidentity z x heq).trans hid.symm)
  rw [← hsame, heq]

/-- **No number is used again:** whoever has it later is who had it earlier. -/
structure Unreused (t t' : WalletTable) : Prop where
  owners : ∀ o ∈ t.owners, ∀ o' ∈ t'.owners, o'.id = o.id → o'.identity = o.identity
  wallets : ∀ w ∈ t.wallets, ∀ w' ∈ t'.wallets, w'.id = w.id → w'.identity = w.identity

theorem Grows.unreused (h : t.Grows t') (h' : t'.Linked) : t.Unreused t' where
  owners _ ho _ ho' := identity_eq_of_prefix (fun _ _ heq => congrArg Prod.fst heq) h.owners
    h'.ownerIds ho ho'
  wallets _ hw _ hw' := identity_eq_of_prefix (fun _ _ heq => congrArg Prod.fst heq) h.wallets
    h'.walletIds hw hw'

end WalletTable

/-- **The collections stay linked, and nothing is lost.** Whatever calls are made from the empty
memory on, by whomever, the indexes and the rows say the same at every moment; and between one
moment and a later one no owner, wallet, posting, key or reference is removed or takes another
place, no posting is modified, and no number comes to stand for somebody else. -/
theorem StoreStep.linked_and_grows (ids : IdSource) (earlier later : List StoreStep)
    (own : ∀ step ∈ earlier ++ later, step.KeyOfOwner) :
    let t := (afterAll (Memory.empty ids) earlier).wallets
    let t' := (afterAll (Memory.empty ids) (earlier ++ later)).wallets
    t.Linked ∧ t'.Linked ∧ t.Grows t' ∧ t.Unreused t' := by
  intro t t'
  obtain ⟨hindexed, -⟩ := indexed_grows_all earlier (m := Memory.empty ids)
    (fun step h => own step (List.mem_append_left later h)) WalletTable.indexed_empty
  obtain ⟨hindexed', hgrows⟩ := indexed_grows_all later
    (fun step h => own step (List.mem_append_right earlier h)) hindexed
  rw [← afterAll_append] at hindexed' hgrows
  exact ⟨hindexed.linked, hindexed'.linked, hgrows, hgrows.unreused hindexed'.linked⟩

namespace Small

/-- Ann as the first owner of an empty memory. -/
def firstOwner : Owner := ⟨1, "ann", "Ann", "1", 7⟩

/-- She gets two wallets, and is refused the first of them a second time. -/
def founding : List StoreStep := [
  .call (.createOwner "ann" "Ann" "1" 7),
  .call (.createWallet firstOwner ⟨1, "GOLD", .main⟩ ⟨"GOLD", units 50⟩),
  .call (.createWallet firstOwner ⟨1, "GOLD", .cashout⟩ ⟨"GOLD", units 0⟩),
  .call (.createWallet firstOwner ⟨1, "GOLD", .main⟩ ⟨"GOLD", units 1⟩)]

/-- Her permissions change, and a posting comes too late, is made, and is repeated. -/
def trading : List StoreStep := [
  .call (.setFlags "ann" 3),
  .inject 1,
  .call (.commitPosting ⟨1, 0, units 40⟩ ⟨2, 0, units 10⟩ tenGold),
  .call (.commitPosting ⟨1, 0, units 40⟩ ⟨2, 0, units 10⟩ tenGold),
  .call (.commitPosting ⟨1, 1, units 30⟩ ⟨2, 1, units 20⟩ tenGold)]

/-- Two wallets are there in the end, and one posting under one reference. -/
example : (StoreStep.afterAll (Memory.empty ids) (founding ++ trading)).wallets.keys =
      [(⟨1, "GOLD", .main⟩, 1), (⟨1, "GOLD", .cashout⟩, 2)] ∧
    (StoreStep.afterAll (Memory.empty ids) (founding ++ trading)).wallets.refs = [("ten", 0)] := by
  decide +kernel

end Small

open WalletLedger.Small in
theorem StoreStep.linked_and_grows_small :
    (∀ step ∈ founding ++ trading, step.KeyOfOwner) ∧
      let t := (afterAll (Memory.empty ids) founding).wallets
      let t' := (afterAll (Memory.empty ids) (founding ++ trading)).wallets
      t.Linked ∧ t'.Linked ∧ t.Grows t' ∧ t.Unreused t' := by
  have hown : ∀ step ∈ founding ++ trading, step.KeyOfOwner := by
    simp [founding, trading, KeyOfOwner, Call.KeyOfOwner, firstOwner]
  exact ⟨hown, linked_and_grows ids founding trading hown⟩

end WalletLedger
