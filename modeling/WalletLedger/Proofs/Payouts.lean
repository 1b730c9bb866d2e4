/-
Why a payout that was made elsewhere can be recorded again.

To record a payout is to make a transfer and to store a row for its posting, in two tables that have
no transaction in common. They are kept in step by two keys: the reference, under which the log has
one posting at most, and the row's posting, for which the table of withdrawals has one row at most
(`Memory.requests`). A call that fails between the two leaves a posting without a row; the next call
gets the receipt of that posting from the log and stores the row that is missing.

The transfer is a request like any other (`ManualWithdrawal.request`), so what is known of those is
known of payouts: a receipt is that of the posting that records the request
(`ends_transfer_records`), now and later. What is added here is the row. Recording it ends well only
if there is one, whoever stored it (`ends_recordOnce`), and the postings that the rows stand for are
only ever added to (`Change.requests`).
-/
import WalletLedger.Proofs.Repetition

set_option autoImplicit false

namespace WalletLedger

open WalletLedger.Action

/-- The transfer that a payout is. -/
def ManualWithdrawal.request (c : ManualWithdrawal) : TransferRequest where
  symbol := c.symbol
  senderUuid := c.sourceUuid
  senderKind := .main
  receiverUuid := c.receiverUuid
  receiverKind := .main
  amount := c.amount
  description := c.description
  ref := c.ref
  category := .withdrawManually

/-! ## 1. The postings that rows stand for -/

/-- The postings of the rows, in the order of the rows. -/
def Memory.requests (m : Memory) : List TransferId := m.withdrawals.rows.map (·.requestTransaction)

theorem WithdrawalTable.byRequest?_isSome {t : WithdrawalTable} {id : TransferId} :
    (t.byRequest? id).isSome = true ↔ id ∈ t.rows.map (·.requestTransaction) := by
  simp [byRequest?, List.find?_isSome]

/-- A new row stands for a posting of its own. -/
theorem WithdrawalTable.requests_insert {t t' : WithdrawalTable} {d : WithdrawalDraft}
    {now : Instant} {w : Withdrawal} (h : t.insert d now = .ok (w, t')) :
    d.requestTransaction ∉ t.rows.map (·.requestTransaction) ∧
      t'.rows.map (·.requestTransaction) =
        t.rows.map (·.requestTransaction) ++ [d.requestTransaction] := by
  obtain ⟨hnone, rfl, rfl⟩ := insert_eq h
  refine ⟨fun hmem => ?_, List.map_append⟩
  rw [← byRequest?_isSome, hnone] at hmem
  cases hmem

/-- A row that takes the place of another stands for the same posting. -/
theorem Memory.requests_replace {m : Memory} {w : Withdrawal} (hm : m.Sound) (held : m.HasRow w) :
    (m.withWithdrawals (m.withdrawals.replace w)).requests = m.requests := by
  obtain ⟨x, hx, hsame⟩ := held
  show (m.withdrawals.rows.map fun v => if v.id = w.id then w else v).map _ = _
  rw [List.map_map]
  refine List.map_congr_left fun v hv => ?_
  show (if v.id = w.id then w else v).requestTransaction = v.requestTransaction
  split_ifs with hid
  · have hxv : x.id = v.id := (WithdrawalTable.find?_id hx).trans hid.symm
    obtain rfl := List.inj_on_of_nodup_map hm.rowIds (WithdrawalTable.mem_of_find? hx) hv hxv
    exact hsame.request
  · rfl

/-- **What a change does to them:** nothing, or one is added that was not there. -/
theorem Change.requests {m m' : Memory} {e : Effect} (h : Change m e m') (hm : m.Sound) :
    m'.requests = m.requests ∨ ∃ id ∉ m.requests, m'.requests = m.requests ++ [id] := by
  cases h with
  | row _ h => exact .inr ⟨_, WithdrawalTable.requests_insert h⟩
  | rows held => exact .inl (Memory.requests_replace hm held)
  | _ => exact .inl rfl

namespace Memory

variable {m m' : Memory} {f : Effect → Prop}

/-- A posting that has a row keeps one. -/
theorem Writes.requests_grow (h : m.Writes f m') (hm : m.Sound) :
    m.requests <+: m'.requests := by
  refine (h.preserves (I := fun x => x.Sound ∧ m.requests <+: x.requests) (fun x e x' _ hc hx => ?_)
    ⟨hm, List.prefix_rfl⟩).2
  refine ⟨hc.sound hx.1, ?_⟩
  rcases hc.requests hx.1 with heq | ⟨id, -, heq⟩
  · exact heq ▸ hx.2
  · exact heq ▸ hx.2.trans (List.prefix_append _ _)

/-- No two rows stand for one posting. -/
theorem Writes.requests_nodup (h : m.Writes f m') (hm : m.Sound) (hn : m.requests.Nodup) :
    m'.requests.Nodup := by
  refine (h.preserves (I := fun x => x.Sound ∧ x.requests.Nodup) (fun x e x' _ hc hx => ?_)
    ⟨hm, hn⟩).2
  refine ⟨hc.sound hx.1, ?_⟩
  rcases hc.requests hx.1 with heq | ⟨id, hid, heq⟩
  · exact heq ▸ hx.2
  · rw [heq, List.nodup_append_comm]
    exact List.nodup_cons.2 ⟨hid, hx.2⟩

end Memory

namespace Ledger

variable {l l₁ l' : Ledger (Faulty Memory)} {t : Terms} {c : ManualWithdrawal} {receipt : Receipt}
  {p : Posting} {r : TransferRequest}

theorem requests_grow_runAll (ops : List Operation) (hl : l.memory.Sound) :
    l.memory.requests <+: (Operation.runAll t l ops).memory.requests := by
  induction ops generalizing l with
  | nil => exact List.prefix_rfl
  | cons op ops ih =>
    exact ((op.writes_after hl).requests_grow hl).trans (ih (sound_after op hl))

theorem Reachable.requests_nodup (h : l.Reachable t) : l.memory.requests.Nodup := by
  obtain ⟨ids, clock, ops, rfl⟩ := h
  suffices ∀ l : Ledger (Faulty Memory), l.memory.Sound → l.memory.requests.Nodup →
      (Operation.runAll t l ops).memory.requests.Nodup from
    this _ (Memory.sound_empty ids) List.nodup_nil
  induction ops with
  | nil => exact fun _ _ => id
  | cons op ops ih =>
    exact fun l hl hn => ih _ (sound_after op hl) ((op.writes_after hl).requests_nodup hl hn)

/-! ## 2. A payout is a transfer and a row -/

theorem transfer_request_eq (c : ManualWithdrawal) :
    transfer t c.request = arrange c >>= fun a =>
      post t .generic
        (.ofAmount a.source a.dest a.amount .withdrawManually c.description c.ref) := by
  simp only [transfer, arrange, bind_assoc, pure_bind]
  rfl

/-- **The two halves of a payout:** the transfer has its receipt, and then a row for its posting is
recorded. -/
theorem withdrawManually_eq_ok (h : (withdrawManually t c).runIn l = (.ok receipt, l')) :
    ∃ d l₁, d.requestTransaction = receipt.transferId ∧
      (transfer t c.request).runIn l = (.ok receipt, l₁) ∧
      (recordOnce d).runIn l₁ = (.ok (), l') := by
  rw [withdrawManually_eq, runIn_bind_eq_ok] at h
  obtain ⟨a, l₀, harrange, h⟩ := h
  obtain ⟨posted, l₁, hpost, h⟩ := runIn_bind_eq_ok.1 h
  obtain ⟨_, l₂, hrecord, h⟩ := runIn_bind_eq_ok.1 h
  cases h
  rw [transfer_request_eq]
  exact ⟨_, l₁, rfl, runIn_bind_eq_ok.2 ⟨a, l₀, harrange, hpost⟩, hrecord⟩

theorem withdrawManually_of_transfer (h : (transfer t c.request).runIn l = (.ok receipt, l₁)) :
    ∃ d, d.requestTransaction = receipt.transferId ∧
      ∀ l', (recordOnce d).runIn l₁ = (.ok (), l') →
        (withdrawManually t c).runIn l = (.ok receipt, l') := by
  rw [transfer_request_eq, runIn_bind_eq_ok] at h
  obtain ⟨a, l₀, harrange, hpost⟩ := h
  refine ⟨c.draft a.currency a.dest a.amount receipt, rfl, fun l' hrecord => ?_⟩
  rw [withdrawManually_eq, runIn_bind_eq_ok]
  exact ⟨a, l₀, harrange, runIn_bind_eq_ok.2 ⟨receipt, l₁, hpost,
    runIn_bind_eq_ok.2 ⟨(), l', hrecord, rfl⟩⟩⟩

/-- **The row is there when recording it ended well,** whoever stored it, and nothing but rows was
written. -/
theorem ends_recordOnce (d : WithdrawalDraft) :
    (recordOnce d).Ends
      (fun _ l' => d.requestTransaction ∈ l'.memory.requests ∧
        ∃ table, l'.memory = l.memory.withWithdrawals table)
      (fun _ _ => True) l := by
  have hfind : ∀ {l : Ledger (Faulty Memory)}, Within Still
      (ask (.withdrawalByRequest d.requestTransaction))
      (fun found _ => ∀ w, found = some w → d.requestTransaction ∈ l.memory.requests) l := by
    intro l
    refine (within_find (c := .withdrawalByRequest d.requestTransaction) rfl rfl).mono
      fun found l' _ hfound w hw => WithdrawalTable.byRequest?_isSome.1 ?_
    exact Option.isSome_iff_exists.2 ⟨w, hfound w hw⟩
  unfold recordOnce
  refine (Still.refl l).next hfind (fun _ _ _ => trivial) fun found l₁ h₁ hfound => ?_
  cases found with
  | some w =>
    rw [← h₁.memory] at hfound
    exact ⟨hfound w rfl, l.memory.withdrawals, h₁.memory⟩
  | none =>
    refine h₁.next within_now (fun _ _ _ => trivial) fun now l₂ h₂ _ => ?_
    -- The insertion may be stopped before it is made, or after it.
    have hinsert : (ask (.insertWithdrawal d now)).attempt.Ends
        (fun r l₃ => (r.isOk = true → d.requestTransaction ∈ l₃.memory.requests) ∧
          ∃ table, l₃.memory = l.memory.withWithdrawals table) (fun _ _ => True) l₂ := by
      have hstored : ∀ w m, l₂.memory.answer (.insertWithdrawal d now) = .ok (w, m) →
          d.requestTransaction ∈ m.requests ∧ ∃ table, m = l.memory.withWithdrawals table := by
        intro w m ha
        obtain ⟨table, hinsert, rfl⟩ := Memory.answering_eq ha
        refine ⟨?_, table, by rw [h₂.memory]⟩
        show _ ∈ table.rows.map _
        rw [(WithdrawalTable.requests_insert hinsert).2]
        exact List.mem_append_right _ (List.mem_singleton_self _)
      refine ends_attempt.2 (ends_ask (fun w l₃ _ ha => ⟨fun _ => (hstored w _ ha).1,
        (hstored w _ ha).2⟩) (fun _ _ _ _ ha => nomatch ha) (fun stop l₃ h₃ => ?_)
        fun stop w l₃ _ _ ha => ⟨fun _ _ => ⟨nofun, (hstored w _ ha).2⟩, fun _ => trivial⟩)
      exact ⟨fun _ _ => ⟨nofun, l.memory.withdrawals, h₃.memory.trans h₂.memory⟩, fun _ => trivial⟩
    rw [ends_bind]
    refine Ends.mono hinsert (fun r l₃ h₃ => ?_) fun _ _ _ => trivial
    cases r with
    | ok w => exact ⟨h₃.1 rfl, h₃.2⟩
    | error cause =>
      refine (Still.refl l₃).next hfind (fun _ _ _ => trivial) fun found l₄ h₄ hfound => ?_
      rw [← h₄.memory] at hfound h₃
      cases found with
      | some w => exact ⟨hfound w rfl, h₃.2⟩
      | none => exact trivial

/-- Without failures a posting that has its row is left with it. -/
theorem Sure.answers_recordOnce (h : l.Sure) {d : WithdrawalDraft}
    (hd : d.requestTransaction ∈ l.memory.requests) : (recordOnce d).Answers () l := by
  obtain ⟨w, hw⟩ := Option.isSome_iff_exists.1 (WithdrawalTable.byRequest?_isSome.2 hd)
  unfold recordOnce
  refine Answers.bind (v := some w) (h.answers_ask ?_) (answers_pure ())
  exact hw ▸ rfl

/-! ## 3. What is known after a receipt -/

/-- A request that is recorded has the receipt of its record whenever it has one. -/
theorem receipt_of_records (hl : l.memory.Sound) (hp : l.memory.Records r p)
    (h : (transfer t r).runIn l = (.ok receipt, l₁)) : receipt = p.receipt := by
  obtain ⟨ref, href, -⟩ := Option.bind_eq_some_iff.1 hp.found
  have hmoves : l.Evolves (fun _ => True) l₁ := by
    have := (within_transfer (t := t) r
      ⟨fun _ _ => trivial, fun _ _ => trivial⟩ : Within (Evolves fun _ => True) _ _ l).moves
    rwa [h] at this
  have hafter := hmoves.writes.records hp
  obtain ⟨q, rfl, hq⟩ := (ends_transfer_records hl href).of_ok (congrArg Prod.fst h)
  rw [h] at hq
  rw [Option.some.inj (hafter.found.symm.trans hq.found)]

/-- **What a payout that has its receipt leaves behind:** a posting that records it, and a row for
that posting. -/
theorem withdrawManually_records (hl : l.memory.Sound) {ref : String} (href : c.ref = some ref)
    (h : (withdrawManually t c).runIn l = (.ok receipt, l')) :
    ∃ p, receipt = p.receipt ∧ l'.memory.Records c.request p ∧ p.id ∈ l'.memory.requests := by
  obtain ⟨d, l₁, hd, htransfer, hrecord⟩ := withdrawManually_eq_ok h
  obtain ⟨p, rfl, hp⟩ :=
    (ends_transfer_records hl (r := c.request) href).of_ok (congrArg Prod.fst htransfer)
  obtain ⟨hrow, table, hm⟩ := (ends_recordOnce d).of_ok (congrArg Prod.fst hrecord)
  rw [htransfer] at hp
  rw [hrecord] at hrow hm
  rw [hd] at hrow
  refine ⟨p, rfl, ?_, hrow⟩
  -- A posting is recorded in other tables than the rows.
  rw [hm]
  exact { hp with }

/-! ## 4. One of each -/

/-- The postings under a reference. -/
def postingsUnder (l : Ledger (Faulty Memory)) (ref : String) : List Posting :=
  l.memory.wallets.log.filter (·.ref = some ref)

/-- The rows that stand for a posting. -/
def rowsFor (l : Ledger (Faulty Memory)) (id : TransferId) : List Withdrawal :=
  l.memory.withdrawals.rows.filter (·.requestTransaction = id)

section Lists

variable {α : Type} {P : α → Bool} {xs : List α} {x : α}

theorem length_filter_le_one (h : xs.Pairwise fun a b => ¬(P a = true ∧ P b = true)) :
    (xs.filter P).length ≤ 1 := by
  have hpairs := h.filter P
  have hmem : ∀ a ∈ xs.filter P, P a = true := fun a ha => (List.mem_filter.1 ha).2
  match hf : xs.filter P with
  | [] | [_] => simp
  | a :: b :: rest =>
    rw [hf] at hpairs hmem
    exact absurd ⟨hmem a (by simp), hmem b (by simp)⟩
      ((List.pairwise_cons.1 hpairs).1 b List.mem_cons_self)

theorem eq_singleton_of_mem (h : xs.length ≤ 1) (hx : x ∈ xs) : xs = [x] := by
  match xs with
  | [y] => rw [List.mem_singleton.1 hx]
  | [] => cases hx
  | _ :: _ :: _ => simp at h

end Lists

theorem length_postingsUnder_le_one (hl : l.memory.Sound) (ref : String) :
    (l.postingsUnder ref).length ≤ 1 := by
  refine length_filter_le_one (List.pairwise_iff_getElem.2 fun i j hi hj hij hboth => ?_)
  obtain ⟨hp, hq⟩ := hboth
  have hi' := hl.wallets.logged i _ ref (List.getElem?_eq_getElem hi) (of_decide_eq_true hp)
  have hj' := hl.wallets.logged j _ ref (List.getElem?_eq_getElem hj) (of_decide_eq_true hq)
  rw [hi'] at hj'
  exact absurd (Option.some.inj hj') (Nat.ne_of_lt hij)

theorem length_rowsFor_le_one (hn : l.memory.requests.Nodup) (id : TransferId) :
    (l.rowsFor id).length ≤ 1 := by
  refine length_filter_le_one ((List.pairwise_map.1 hn).imp fun hne hboth => hne ?_)
  exact (of_decide_eq_true hboth.1).trans (of_decide_eq_true hboth.2).symm

theorem Reachable.withdrawManually (h : l.Reachable t) (c : ManualWithdrawal) :
    ((Ledger.withdrawManually t c).runIn l).2.Reachable t := by
  have hafter : (Operation.withdrawManually c).after t l =
      ((Ledger.withdrawManually t c).runIn l).2 := by
    refine Operation.runIn_discard (I := (· = ((Ledger.withdrawManually t c).runIn l).2)) ?_
    exact ends_iff.2 ⟨fun _ _ => rfl, fun _ _ => rfl⟩
  exact hafter ▸ h.runAll [.withdrawManually c]

/-- **A payout that was made elsewhere is recorded once,** however often it is asked for. In every
reachable state, whatever calls failed before, the log has one posting under a reference at most and
the table of withdrawals one row for it at most. From the first receipt on it is one of each,
whatever is done next, and each later receipt is that receipt; it is given, and nothing is written,
whenever the currency is active and the stores do not fail. -/
theorem payout_recorded_once (h : l.Reachable t) (ref : String) :
    (l.postingsUnder ref).length ≤ 1 ∧
      (∀ p ∈ l.postingsUnder ref, (l.rowsFor p.id).length ≤ 1) ∧
      ∀ (c : ManualWithdrawal) (receipt : Receipt), c.ref = some ref →
        ((withdrawManually t c).runIn l).1 = .ok receipt → ∀ ops : List Operation,
        let l' := Operation.runAll t ((withdrawManually t c).runIn l).2 ops
        (∃ p w, l'.postingsUnder ref = [p] ∧ l'.rowsFor p.id = [w] ∧ receipt = p.receipt) ∧
        (∀ receipt', ((withdrawManually t c).runIn l').1 = .ok receipt' → receipt' = receipt) ∧
        (l'.Sure → (∃ currency, l'.memory.currencies.find? c.symbol = some currency ∧
            currency.isActive = true) →
          (withdrawManually t c).runIn l' = (.ok receipt, l')) := by
  refine ⟨length_postingsUnder_le_one h.sound ref,
    fun p _ => length_rowsFor_le_one h.requests_nodup p.id, fun c receipt href hok ops => ?_⟩
  obtain ⟨p, rfl, hrecords, hrow⟩ := withdrawManually_records h.sound href (Prod.ext hok rfl)
  have hfirst := h.withdrawManually c
  have hrecords := records_runAll (t := t) ops hfirst.sound hrecords
  have hrow := (requests_grow_runAll (t := t) ops hfirst.sound).subset hrow
  have hlater := hfirst.runAll ops
  generalize Operation.runAll t ((withdrawManually t c).runIn l).2 ops = l' at *
  have hsound := hlater.sound
  refine ⟨?_, fun receipt' hok' => ?_, fun hsure ⟨currency, hcurrency, active⟩ => ?_⟩
  · obtain ⟨w, hw, hid⟩ := List.mem_map.1 hrow
    refine ⟨p, w, eq_singleton_of_mem (length_postingsUnder_le_one hsound ref) ?_,
      eq_singleton_of_mem (length_rowsFor_le_one hlater.requests_nodup p.id) ?_, rfl⟩
    · have hfound : (some ref).bind l'.memory.wallets.byRef? = some p := href ▸ hrecords.found
      obtain ⟨place, hplace, hpref, -⟩ := hsound.wallets.place_of_byRef? hfound
      exact List.mem_filter.2 ⟨List.mem_of_getElem? hplace, decide_eq_true hpref⟩
    · exact List.mem_filter.2 ⟨hw, decide_eq_true hid⟩
  · obtain ⟨d, l₁, -, htransfer, -⟩ := withdrawManually_eq_ok (Prod.ext hok' rfl)
    exact receipt_of_records hsound hrecords htransfer
  · obtain ⟨d, hd, hfinish⟩ := withdrawManually_of_transfer
      (hsure.answers_transfer hsound hrecords hcurrency active)
    rw [show p.receipt.transferId = p.id from rfl] at hd
    exact hfinish l' (hsure.answers_recordOnce (hd ▸ hrow))

end Ledger

namespace Small

/-- The owner was paid ten gold elsewhere. -/
def paidElsewhere : ManualWithdrawal where
  symbol := "GOLD"
  sourceUuid := "ann"
  receiverUuid := "system"
  amount := units 10
  description := none
  ref := some "paid"
  attachment := none

/-- The payout was posted, and its row could not be stored. -/
def halfRecorded : Ledger (Faulty Memory) :=
  Operation.runAll terms ledger
    [.arm [⟨"withdraw_insert", .before, 0, 1⟩], .withdrawManually paidElsewhere, .arm []]

end Small

open WalletLedger.Small in
/-- A call that failed between the posting and the row is repeated, and repeated once more when the
owner has no gold left. -/
theorem Ledger.payout_recorded_once_small :
    halfRecorded.Reachable terms ∧ (halfRecorded.postingsUnder "paid").length = 1 ∧
      halfRecorded.memory.withdrawals.rows = [] ∧
      ∃ receipt, ((withdrawManually terms paidElsewhere).runIn halfRecorded).1 = .ok receipt ∧
        let l' := Operation.runAll terms
          ((withdrawManually terms paidElsewhere).runIn halfRecorded).2 spent
        (∃ p w, l'.postingsUnder "paid" = [p] ∧ l'.rowsFor p.id = [w] ∧ receipt = p.receipt) ∧
        l'.memory.wallets.wallet? 3 = some ⟨3, 2, "ann", "GOLD", .main, units 0, 2⟩ ∧
        (withdrawManually terms paidElsewhere).runIn l' = (.ok receipt, l') := by
  have hreachable : halfRecorded.Reachable terms := reachable.runAll _
  have hok : ((withdrawManually terms paidElsewhere).runIn halfRecorded).1.isOk = true := by
    decide +kernel
  obtain ⟨receipt, hreceipt⟩ :
      ∃ receipt, ((withdrawManually terms paidElsewhere).runIn halfRecorded).1 = .ok receipt := by
    cases h : ((withdrawManually terms paidElsewhere).runIn halfRecorded).1 with
    | ok receipt => exact ⟨receipt, rfl⟩
    | error stop => rw [h] at hok; cases hok
  obtain ⟨hone, -, hagain⟩ :=
    (payout_recorded_once hreachable "paid").2.2 paidElsewhere receipt rfl hreceipt spent
  refine ⟨hreachable, by decide +kernel, by decide +kernel, receipt, hreceipt, hone,
    by decide +kernel, hagain (sure_of_unarmed (by decide +kernel)) ⟨gold, ?_, rfl⟩⟩
  decide +kernel

end WalletLedger
