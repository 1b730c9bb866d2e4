/-
Paging through listings.

The log of postings, an owner's history of withdrawals and an operator's search are read in pages:
a filter is applied, what it accepts is put in order, a first part is skipped and at most so many
rows are shown. `PagesThrough` says what a reader relies on who starts at the first page and goes
on: the pages together are one list of rows, and after the last row there are only empty pages.

What that list is, is said apart from how it is made. Each filter has a meaning (`Meets`), the rows
that have it are those of the table, each as often as the table has it, and they are in order: the
log by time and identifier, the history by time and number, the search by number from the highest
down. For the last it is needed that the rows stand in the order of their numbers, which every call
to the stores keeps (`StoreStep.numbered_all`).
-/
import WalletLedger.Proofs.Versions
import WalletLedger.Proofs.Withdrawals
import Mathlib.Data.Prod.Lex

set_option autoImplicit false

namespace WalletLedger

open WalletLedger.Action

/-! ## 1. Pages of one list -/

section Pages

variable {α : Type} {page : ℕ → ℕ → List α} {rows : List α} {size n : ℕ}

/-- **The first `n` pages** of `size` rows each, one after the other. -/
def paged (page : ℕ → ℕ → List α) (size n : ℕ) : List α :=
  (List.range n).flatMap fun i => page (i * size) size

/-- **The pages show the rows:** whatever the size of the pages, those that are needed come to all
rows in their order, and the ones that follow are empty. -/
def PagesThrough (page : ℕ → ℕ → List α) (rows : List α) : Prop :=
  ∀ size, 0 < size → ∀ n, rows.length ≤ n * size →
    paged page size n = rows ∧ ∀ i, n ≤ i → page (i * size) size = []

/-- A page more is a stretch more. -/
theorem paged_eq_take (h : ∀ offset, page offset size = (rows.drop offset).take size) (n : ℕ) :
    paged page size n = rows.take (n * size) := by
  induction n with
  | zero => simp [paged]
  | succ n ih =>
    rw [paged] at ih ⊢
    rw [List.range_succ, List.flatMap_append, ih, List.flatMap_singleton, h, Nat.succ_mul,
      List.take_add]

/-- **Skipping and taking** shows all rows. -/
theorem pagesThrough_of_eq (h : ∀ offset size, page offset size = (rows.drop offset).take size) :
    PagesThrough page rows := by
  intro size _ n hn
  refine ⟨?_, fun i hi => ?_⟩
  · rw [paged_eq_take (h · size), List.take_of_length_le hn]
  · have hpast : rows.length ≤ i * size := hn.trans (Nat.mul_le_mul_right size hi)
    rw [h, List.drop_of_length_le hpast, List.take_nil]

end Pages

/-! ## 2. What the filters mean -/

namespace Posting

/-- A posting's place in a listing: its time, and its identifier where times are equal. -/
def place (p : Posting) : Instant ×ₗ ℕ := toLex (p.createdAt, p.id.bits)

variable {p q : Posting} {f : Filter}

theorem before_iff : p.before q = true ↔ p.place ≤ q.place := by
  simp [before, place, Prod.Lex.toLex_le_toLex]

/-- **A posting meets a filter:** the owner that is asked for is on one of its sides, and so is the
currency, and it has the category and lies within the bounds that are given. -/
structure Filter.Meets (f : Filter) (p : Posting) : Prop where
  owner : ∀ u ∈ f.ownerUuid, p.source.ownerUuid = u ∨ p.dest.ownerUuid = u
  currency : ∀ c ∈ f.currency, p.source.amount.currency = c ∨ p.dest.amount.currency = c
  category : ∀ k ∈ f.category, p.category = k
  start : ∀ s ∈ f.start, s ≤ p.createdAt
  finish : ∀ e ∈ f.finish, p.createdAt ≤ e

theorem Filter.accepts_iff : f.accepts p = true ↔ f.Meets p := by
  simp only [accepts, Bool.and_eq_true, Option.all_eq_true, Bool.or_eq_true, beq_iff_eq,
    decide_eq_true_eq]
  exact ⟨fun ⟨⟨⟨⟨ho, hc⟩, hk⟩, hs⟩, he⟩ => ⟨ho, hc, hk, hs, he⟩,
    fun ⟨ho, hc, hk, hs, he⟩ => ⟨⟨⟨⟨ho, hc⟩, hk⟩, hs⟩, he⟩⟩

instance (f : Filter) : DecidablePred f.Meets := fun _ => decidable_of_iff _ Filter.accepts_iff

end Posting

namespace Withdrawal

/-- A row's place in an owner's history: its time, and its number where times are equal. -/
def place (w : Withdrawal) : Instant ×ₗ ℤ := toLex (w.createdAt, w.id)

variable {v w : Withdrawal} {f : Filter} {c : Criteria}

theorem before_iff : v.before w = true ↔ v.place ≤ w.place := by
  simp [before, place, Prod.Lex.toLex_le_toLex]

/-- **A row meets an owner's filter:** it is the owner's, has the currency and lies within the
bounds that are given. -/
structure Filter.Meets (f : Filter) (w : Withdrawal) : Prop where
  owner : w.ownerUuid = f.ownerUuid
  currency : ∀ c ∈ f.currency, w.currency = c
  start : ∀ s ∈ f.start, s ≤ w.createdAt
  finish : ∀ e ∈ f.finish, w.createdAt ≤ e

/-- **A row meets an operator's criteria:** it has what is asked for, and one of the statuses if any
are named. -/
structure Criteria.Meets (c : Criteria) (w : Withdrawal) : Prop where
  owner : ∀ u ∈ c.ownerUuid, w.ownerUuid = u
  currency : ∀ s ∈ c.currency, w.currency = s
  destTransactionRef : ∀ r ∈ c.destTransactionRef, w.destTransactionRef = some r
  destAddress : ∀ a ∈ c.destAddress, w.destAddress = some a
  status : c.statuses = [] ∨ w.status ∈ c.statuses

theorem Filter.accepts_iff : f.accepts w = true ↔ f.Meets w := by
  simp only [accepts, Bool.and_eq_true, Option.all_eq_true, beq_iff_eq, decide_eq_true_eq]
  exact ⟨fun ⟨⟨⟨ho, hc⟩, hs⟩, he⟩ => ⟨ho, fun s h => (hc s h).symm, hs, he⟩,
    fun ⟨ho, hc, hs, he⟩ => ⟨⟨⟨ho, fun s h => (hc s h).symm⟩, hs⟩, he⟩⟩

theorem Criteria.accepts_iff : c.accepts w = true ↔ c.Meets w := by
  simp only [accepts, Bool.and_eq_true, Option.all_eq_true, beq_iff_eq, Bool.or_eq_true,
    List.isEmpty_iff, List.contains_iff_mem]
  exact ⟨fun ⟨⟨⟨⟨ho, hs⟩, hr⟩, ha⟩, hstatus⟩ =>
      ⟨fun u h => (ho u h).symm, fun s h => (hs s h).symm, hr, ha, hstatus⟩,
    fun ⟨ho, hs, hr, ha, hstatus⟩ =>
      ⟨⟨⟨⟨fun u h => (ho u h).symm, fun s h => (hs s h).symm⟩, hr⟩, ha⟩, hstatus⟩⟩

instance (f : Filter) : DecidablePred f.Meets := fun _ => decidable_of_iff _ Filter.accepts_iff

instance (c : Criteria) : DecidablePred c.Meets :=
  fun _ => decidable_of_iff _ Criteria.accepts_iff

end Withdrawal

/-! ## 3. Rows in the order of their numbers -/

namespace WithdrawalTable

variable {t t' : WithdrawalTable}

/-- **The rows stand in the order of their numbers.** -/
def Ascending (t : WithdrawalTable) : Prop := (t.rows.map (·.id)).Pairwise (· < ·)

/-- The rows stand in the order of their numbers, and the next number is higher than all. -/
structure Numbered (t : WithdrawalTable) : Prop where
  ascending : t.Ascending
  last : ∀ w ∈ t.rows, w.id ≤ t.lastId

theorem numbered_empty : empty.Numbered := ⟨.nil, fun _ hw => nomatch hw⟩

theorem Numbered.insert (h : t.Numbered) {d : WithdrawalDraft} {now : Instant} {w : Withdrawal}
    (hinsert : t.insert d now = .ok (w, t')) : t'.Numbered := by
  obtain ⟨-, hw, rfl⟩ := insert_eq hinsert
  have hid : w.id = t.lastId + 1 := by rw [hw]; rfl
  exact ⟨ascending_append_fresh Withdrawal.id h.ascending h.last hid,
    le_of_mem_append_fresh Withdrawal.id h.last hid⟩

theorem map_id_replace (t : WithdrawalTable) (row : Withdrawal) :
    (t.replace row).rows.map (·.id) = t.rows.map (·.id) := by
  refine map_key_of_keeps (fun v => ?_) t.rows
  split_ifs with hid
  · exact hid.symm
  · rfl

theorem Numbered.replace (h : t.Numbered) (row : Withdrawal) : (t.replace row).Numbered := by
  refine ⟨?_, fun w hw => ?_⟩
  · rw [Ascending, map_id_replace]
    exact h.ascending
  · rcases Memory.mem_replace hw with hmem | ⟨rfl, v, hv, hid⟩
    · exact h.last w hmem
    · rw [← hid]
      exact h.last v hv

end WithdrawalTable

/-- **Every call keeps the rows in the order of their numbers.** -/
theorem Memory.numbered_answer {α : Type} {c : Call α} {m m' : Memory} {a : α}
    (h : m.answer c = .ok (a, m')) (hm : m.withdrawals.Numbered) : m'.withdrawals.Numbered := by
  cases c with
  | insertWithdrawal =>
    obtain ⟨t, hinsert, rfl⟩ := answering_eq h
    exact hm.insert hinsert
  | transition =>
    obtain ⟨t, htransition, rfl⟩ := answering_eq h
    rcases WithdrawalTable.transition_eq htransition with ⟨-, rfl⟩ | ⟨w, -, -, -, rfl⟩
    · exact hm
    · exact hm.replace _
  | revert =>
    obtain ⟨t, hrevert, rfl⟩ := answering_eq h
    rcases WithdrawalTable.revert_eq hrevert with rfl | ⟨w, -, -, rfl⟩
    · exact hm
    · exact hm.replace _
  | setFinal =>
    obtain ⟨t, hset, rfl⟩ := writing_eq h
    obtain ⟨w, -, rfl⟩ := WithdrawalTable.setFinal_eq hset
    exact hm.replace _
  | commitPosting debit credit p =>
    obtain ⟨t, posted, -, rfl⟩ := answer_commitPosting h
    exact hm
  | insertReservation r =>
    obtain ⟨t, -, rfl⟩ := answer_insertReservation h
    exact hm
  | beginSettlement number s =>
    obtain ⟨r, -, -, ⟨-, rfl⟩ | ⟨-, rfl⟩⟩ := answer_beginSettlement h <;> exact hm
  | addCurrency | setTransitive | setActive | addRate | updateRate | deleteRate =>
    obtain ⟨t, -, rfl⟩ := writing_eq h
    exact hm
  | createOwner | setFlags | createWallet | compareAndSet | clearSettlement | closeIfIdle |
      updateStatusIf =>
    obtain ⟨t, -, rfl⟩ := answering_eq h
    exact hm
  | _ =>
    -- The other calls read, or they write pairs that are forbidden.
    cases h
    exact hm

/-- **So they are after any calls.** An empty memory has no rows yet. -/
theorem StoreStep.numbered_all (steps : List StoreStep) {m : Memory}
    (hm : m.withdrawals.Numbered) : (afterAll m steps).withdrawals.Numbered :=
  preserves_all (fun _ _ => id) (fun _ _ _ _ => Memory.numbered_answer) steps hm

/-! ## 4. The listings -/

/-- Sorting by a place in a linear order puts the places in order. -/
theorem pairwise_mergeSort_of_le {α β : Type} [LinearOrder β] (le : α → α → Bool) (place : α → β)
    (h : ∀ a b, le a b = true ↔ place a ≤ place b) (rows : List α) :
    (rows.mergeSort le).Pairwise (place · ≤ place ·) := by
  have hsorted : (rows.mergeSort le).Pairwise (le · · = true) := by
    refine List.pairwise_mergeSort (fun a b c hab hbc => ?_) (fun a b => ?_) rows
    · exact (h a c).2 (((h a b).1 hab).trans ((h b c).1 hbc))
    · simpa only [Bool.or_eq_true, h] using le_total (place a) (place b)
  exact hsorted.imp fun hab => (h _ _).1 hab

/-- A check and what it means select the same rows. -/
theorem filter_eq_of_iff {α : Type} {accepts : α → Bool} {Meets : α → Prop}
    [DecidablePred Meets] (h : ∀ a, accepts a = true ↔ Meets a) (rows : List α) :
    rows.filter accepts = rows.filter fun a => Meets a :=
  List.filter_congr fun a _ => Bool.eq_iff_iff.2 ((h a).trans decide_eq_true_iff.symm)

theorem Page.pagesThrough_of {α : Type} (rows : List α) (ascending : Bool) :
    PagesThrough (fun offset size => (Page.mk offset size ascending).of rows)
      (if ascending then rows else rows.reverse) :=
  pagesThrough_of_eq fun _ _ => rfl

namespace Posting

variable (f : Filter) (log : List Posting)

theorem listing_perm : (listing f log).Perm (log.filter fun p => f.Meets p) := by
  rw [listing, filter_eq_of_iff fun _ => Filter.accepts_iff]
  exact List.mergeSort_perm _ _

theorem pairwise_listing : (listing f log).Pairwise (place · ≤ place ·) :=
  pairwise_mergeSort_of_le before place (fun _ _ => before_iff) _

end Posting

namespace Withdrawal

variable (f : Filter) {rows : List Withdrawal}

theorem listing_perm (rows : List Withdrawal) :
    (listing f rows).Perm (rows.filter fun w => f.Meets w) := by
  rw [listing, filter_eq_of_iff fun _ => Filter.accepts_iff]
  exact List.mergeSort_perm _ _

/-- No two rows of a history have the same place, because no two have the same number. -/
theorem pairwise_listing (h : (rows.map (·.id)).Nodup) :
    (listing f rows).Pairwise (place · < place ·) := by
  have hsorted : (listing f rows).Pairwise (place · ≤ place ·) :=
    pairwise_mergeSort_of_le before place (fun _ _ => before_iff) _
  have hids : ((listing f rows).map (·.id)).Nodup :=
    ((listing_perm f rows).map _).nodup_iff.2 (h.sublist (List.filter_sublist.map _))
  refine (hsorted.and (List.pairwise_map.1 hids)).imp fun {v w} hboth => ?_
  exact lt_of_le_of_ne hboth.1 fun heq => hboth.2 (congrArg (fun x => (ofLex x).2) heq)

end Withdrawal

namespace WithdrawalTable

variable {t : WithdrawalTable} (c : Withdrawal.Criteria)

/-- The rows that a search finds, from the highest number down. -/
def found (t : WithdrawalTable) (c : Withdrawal.Criteria) : List Withdrawal :=
  t.rows.reverse.filter c.accepts

theorem found_perm (t : WithdrawalTable) :
    (t.found c).Perm (t.rows.filter fun w => c.Meets w) := by
  rw [found, filter_eq_of_iff fun _ => Withdrawal.Criteria.accepts_iff]
  exact (List.reverse_perm _).filter _

theorem Ascending.pairwise_found (h : t.Ascending) : (t.found c).Pairwise (·.id > ·.id) := by
  have hreverse : t.rows.reverse.Pairwise (·.id > ·.id) :=
    List.pairwise_reverse.2 (List.pairwise_map.1 h)
  exact hreverse.sublist List.filter_sublist

theorem pagesThrough_search (t : WithdrawalTable) :
    PagesThrough (fun offset size => t.search c offset (some size)) (t.found c) :=
  pagesThrough_of_eq fun _ _ => rfl

end WithdrawalTable

/-- **Paging through the listings** loses nothing and repeats nothing. The pages of the log come to
the postings that meet the filter, in the order of time and identifier, and those of a history to
the rows that meet the filter, in the order of time and number; from the newest on, they come to the
same rows the other way round. The pages of a search come to the rows that meet the criteria, from
the highest number down. -/
theorem pages_through_listings (wallets : WalletTable) {t : WithdrawalTable} (h : t.Ascending)
    (p : Posting.Filter) (f : Withdrawal.Filter) (c : Withdrawal.Criteria) :
    (∃ log, log.Perm (wallets.log.filter fun x => p.Meets x) ∧
      log.Pairwise (·.place ≤ ·.place) ∧
      PagesThrough (fun offset size => wallets.postings p ⟨offset, size, true⟩) log ∧
      PagesThrough (fun offset size => wallets.postings p ⟨offset, size, false⟩) log.reverse) ∧
    (∃ rows, rows.Perm (t.rows.filter fun w => f.Meets w) ∧
      rows.Pairwise (·.place < ·.place) ∧
      PagesThrough (fun offset size => t.history f ⟨offset, size, true⟩) rows ∧
      PagesThrough (fun offset size => t.history f ⟨offset, size, false⟩) rows.reverse) ∧
    ∃ rows, rows.Perm (t.rows.filter fun w => c.Meets w) ∧
      rows.Pairwise (·.id > ·.id) ∧
      PagesThrough (fun offset size => t.search c offset (some size)) rows := by
  refine ⟨⟨Posting.listing p wallets.log, Posting.listing_perm p _, Posting.pairwise_listing p _,
      Page.pagesThrough_of _ true, Page.pagesThrough_of _ false⟩,
    ⟨Withdrawal.listing f t.rows, Withdrawal.listing_perm f _, ?_, Page.pagesThrough_of _ true,
      Page.pagesThrough_of _ false⟩,
    ⟨t.found c, t.found_perm c, h.pairwise_found c, t.pagesThrough_search c⟩⟩
  exact Withdrawal.pairwise_listing f (h.imp fun hlt => ne_of_lt hlt)

namespace Small

/-- Ann wants some gold to be paid out. -/
def payout (amount : ℤ) (transfer : ℕ) : WithdrawalDraft where
  ownerUuid := "ann"
  currency := "GOLD"
  walletId := 4
  amount := units amount
  requestTransaction := ids.transfer transfer
  finalTransaction := none
  appliedFee := units 1
  destAmount := none
  destSymbol := none
  destAddress := none
  destNetwork := none
  destNote := none
  destTransactionRef := none
  status := .created
  applicator := none
  type := .onChain
  attachment := none

/-- The small ledger with one posting and three withdrawals, two of them from the same time. -/
def busy : Memory :=
  StoreStep.afterAll ledger.memory [
    .call (.commitPosting (annGold.write (units 40)) (systemGold.write (units 1010)) tenGold),
    .call (.insertWithdrawal (payout 5 2) 70),
    .call (.insertWithdrawal (payout 6 3) 70),
    .call (.insertWithdrawal (payout 7 4) 60)]

theorem numbered_busy : busy.withdrawals.Numbered := by
  have hledger : ledger.memory.withdrawals.Numbered := by
    have hempty : ledger.memory.withdrawals = .empty := by decide +kernel
    rw [hempty]
    exact WithdrawalTable.numbered_empty
  exact StoreStep.numbered_all _ hledger

/-- What ann has traded. -/
def trades : Posting.Filter := ⟨some "ann", none, some .trade, none, none⟩

/-- What ann has asked for in a certain time. -/
def asked : Withdrawal.Filter := ⟨"ann", some "GOLD", some 60, some 70⟩

/-- What an operator has to decide on. -/
def undecided : Withdrawal.Criteria := ⟨none, none, none, none, [.created, .processing]⟩

/-- Two pages of two rows show all three. -/
example : (paged (fun offset size => busy.withdrawals.search undecided offset (some size)) 2 2).map
    (·.id) = [3, 2, 1] := by
  decide +kernel

end Small

open WalletLedger.Small in
theorem pages_through_listings_small :
    busy.withdrawals.Ascending ∧
      (∃ log, log.Perm (busy.wallets.log.filter fun x => trades.Meets x) ∧
        log.Pairwise (·.place ≤ ·.place) ∧
        PagesThrough (fun offset size => busy.wallets.postings trades ⟨offset, size, true⟩) log ∧
        PagesThrough (fun offset size => busy.wallets.postings trades ⟨offset, size, false⟩)
          log.reverse) ∧
      (∃ rows, rows.Perm (busy.withdrawals.rows.filter fun w => asked.Meets w) ∧
        rows.Pairwise (·.place < ·.place) ∧
        PagesThrough (fun offset size => busy.withdrawals.history asked ⟨offset, size, true⟩) rows ∧
        PagesThrough (fun offset size => busy.withdrawals.history asked ⟨offset, size, false⟩)
          rows.reverse) ∧
      ∃ rows, rows.Perm (busy.withdrawals.rows.filter fun w => undecided.Meets w) ∧
        rows.Pairwise (·.id > ·.id) ∧
        PagesThrough (fun offset size => busy.withdrawals.search undecided offset (some size))
          rows :=
  ⟨numbered_busy.ascending,
    pages_through_listings busy.wallets numbered_busy.ascending trades asked undecided⟩

end WalletLedger
