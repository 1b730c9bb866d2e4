/-
Why no update of a balance is lost.

A caller reads two wallets, computes what they shall hold, and commits; in between anybody may have
done anything to the stores. The commit names the versions that were read, so all that is needed is
that a version never comes back. `WalletTable.Advances` says it for the writes of a whole run: a
wallet that is there stays the same wallet, and its version has grown by exactly the number of
times that its balance was written. Equal versions therefore mean that nobody wrote
(`StoreStep.advances_all`), and the commit finds what its caller read, or it declines and leaves
everything alone.

The callers here are any callers. They make calls with any arguments in any order, which is more
than the services do, so the module rests on the tables and not on the services.
-/
import WalletLedger.Proofs.Tables
import WalletLedger.Proofs.Calls
import WalletLedger.Proofs.Runs

set_option autoImplicit false

namespace WalletLedger

open WalletLedger.Action

/-! ## 1. Counting the writes of a balance -/

/-- **The wallets whose balance a call wrote,** by what it answered. -/
def Call.written : {α : Type} → Call α → α → List Int
  | _, .compareAndSet w, some _ => [w.walletId]
  | _, .commitPosting debit credit _, .committed => [debit.walletId, credit.walletId]
  | _, _, _ => []

/-- **What somebody else may do to the stores:** make any call, or ask for pending conflicts. -/
inductive StoreStep : Type 1 where
  | call {α : Type} (c : Call α)
  | inject (conflicts : Nat)

namespace StoreStep

/-- The memory after a step. -/
def after (m : Memory) : StoreStep → Memory
  | .call c => ((Memory.call c).runIn m).2
  | .inject conflicts => m.withWallets { m.wallets with conflicts }

/-- The wallets that a step writes. -/
def written (m : Memory) : StoreStep → List Int
  | .call c =>
    match ((Memory.call c).runIn m).1 with
    | .ok a => c.written a
    | .error _ => []
  | .inject _ => []

/-- The memory after one step after the other. -/
def afterAll (m : Memory) (steps : List StoreStep) : Memory := steps.foldl after m

/-- The wallets that the steps write, each as often as it is written. -/
def writtenAll : Memory → List StoreStep → List Int
  | _, [] => []
  | m, step :: steps => step.written m ++ writtenAll (step.after m) steps

/-- **What every call keeps, any calls keep,** whoever makes them. -/
theorem preserves_all {I : Memory → Prop}
    (injected : ∀ m n, I m → I (m.withWallets { m.wallets with conflicts := n }))
    (answered : ∀ {α : Type} (c : Call α) m a m', m.answer c = .ok (a, m') → I m → I m')
    (steps : List StoreStep) : ∀ {m : Memory}, I m → I (afterAll m steps) := by
  induction steps with
  | nil => exact id
  | cons step steps ih =>
    intro m hm
    refine ih (m := step.after m) ?_
    cases step with
    | inject n => exact injected m n hm
    | call c =>
      simp only [after, Memory.call, runIn_ofFun]
      cases h : m.answer c with
      | error cause => exact hm
      | ok result => exact answered c m result.1 result.2 h hm

end StoreStep

/-! ## 2. A version never comes back -/

/-- **The versions count the writes.** Every wallet of the first table is in the second, under the
same number and with the same identity; its version has grown by the number of times that it
was written, and if that is zero then it is as it was. -/
def WalletTable.Advances (t : WalletTable) (written : List Int) (t' : WalletTable) : Prop :=
  ∀ id w, t.wallet? id = some w → ∃ w', t'.wallet? id = some w' ∧ w.Same w' ∧
    w'.version = w.version + written.count id ∧ (id ∉ written → w' = w)

namespace WalletTable.Advances

variable {t t' t'' : WalletTable} {written written' : List Int}

theorem of_wallets (h : t'.wallets = t.wallets) : t.Advances [] t' := by
  intro id w hw
  refine ⟨w, ?_, .refl w, by simp, fun _ => rfl⟩
  rw [wallet?, h]
  exact hw

theorem trans (h : t.Advances written t') (h' : t'.Advances written' t'') :
    t.Advances (written ++ written') t'' := by
  intro id w hw
  obtain ⟨w', hw', hsame, hversion, heq⟩ := h id w hw
  obtain ⟨w'', hw'', hsame', hversion', heq'⟩ := h' id w' hw'
  refine ⟨w'', hw'', hsame.trans hsame', ?_, fun hid => ?_⟩
  · rw [hversion', hversion, List.count_append]
    omega
  · rw [List.mem_append, not_or] at hid
    rw [heq' hid.2, heq hid.1]

/-- One write advances one version by one. -/
theorem write (t : WalletTable) (b : BalanceWrite) : t.Advances [b.walletId] (t.write b) := by
  intro id w hw
  have hid := wallet?_id hw
  refine ⟨_, by rw [wallet?_write, hw, Option.map_some], ?_⟩
  split_ifs with hb
  · have hcount : [b.walletId].count id = 1 := by rw [← hid, hb, List.count_singleton_self]
    refine ⟨Wallet.same_written b w, by rw [hcount]; rfl, fun hne => ?_⟩
    exact absurd (List.mem_singleton.2 (hid.symm.trans hb)) hne
  · have hcount : [b.walletId].count id = 0 := by
      rw [List.count_eq_zero, List.mem_singleton, ← hid]
      exact hb
    exact ⟨.refl w, by rw [hcount]; simp, fun _ => rfl⟩

/-- A new wallet stands behind those that are there. -/
theorem createWallet {owner : Owner} {key : WalletKey} {initial : Amount} {w : Wallet}
    (h : t.createWallet owner key initial = .ok (w, t')) : t.Advances [] t' := by
  obtain ⟨-, -, -, -, rfl⟩ := createWallet_eq h
  intro id x hx
  refine ⟨x, ?_, .refl x, by simp, fun _ => rfl⟩
  simp only [wallet?, List.find?_append]
  rw [wallet?] at hx
  rw [hx, Option.some_or]

end WalletTable.Advances

namespace WalletTable

variable {t t' : WalletTable}

theorem isCurrent_eq {b : BalanceWrite} {current : Bool} (h : t.isCurrent b = .ok current) :
    ∃ w, t.wallet? b.walletId = some w ∧ current = (w.version == b.expectedVersion) := by
  unfold isCurrent at h
  split at h
  · cases h
  · rename_i w hw
    cases h
    exact ⟨w, hw, rfl⟩

/-- **What a write of one balance does:** it is not made and there is no answer, or it is made and
answered with the wallet. -/
theorem compareAndSet_inv {b : BalanceWrite} {o : Option Wallet}
    (h : t.compareAndSet b = .ok (o, t')) :
    (o = none ∧ ∃ conflicts, t' = { t with conflicts }) ∨
      ∃ w, t.wallet? b.walletId = some w ∧ o = some (written b w) ∧ t' = t.write b := by
  unfold compareAndSet at h
  cases hconflict : t.takeConflict? with
  | some t₁ =>
    rw [hconflict] at h
    cases h
    obtain ⟨n, -, rfl⟩ := takeConflict?_eq hconflict
    exact .inl ⟨rfl, n, rfl⟩
  | none =>
    simp only [hconflict, bind, Except.bind] at h
    split at h
    · cases h
    · rename_i current hcurrent
      obtain ⟨w, hw, -⟩ := isCurrent_eq hcurrent
      split_ifs at h
      · cases h
        refine .inr ⟨w, hw, ?_, rfl⟩
        rw [wallet?_write, hw, Option.map_some, if_pos (wallet?_id hw)]
      · cases h
        exact .inl ⟨rfl, t.conflicts, rfl⟩

theorem advances_compareAndSet {b : BalanceWrite} {o : Option Wallet}
    (h : t.compareAndSet b = .ok (o, t')) :
    t.Advances ((Call.compareAndSet b).written o) t' := by
  rcases compareAndSet_inv h with ⟨rfl, n, rfl⟩ | ⟨w, -, rfl, rfl⟩
  · exact .of_wallets rfl
  · exact .write t b

/-- **What a commit does:** it is made, or the table is as before but for the pending conflicts. -/
theorem commit_inv {debit credit : BalanceWrite} {p : Posting} {outcome : CommitOutcome}
    (h : t.commit debit credit p = .ok (outcome, t')) :
    (outcome = .committed ∧ p.ref.bind t.byRef? = none ∧
        t' = ((t.write debit).write credit).append p) ∨
      (outcome ≠ .committed ∧ ∃ conflicts, t' = { t with conflicts }) := by
  unfold commit at h
  cases hconflict : t.takeConflict? with
  | some t₁ =>
    rw [hconflict] at h
    cases h
    obtain ⟨n, -, rfl⟩ := takeConflict?_eq hconflict
    exact .inr ⟨nofun, n, rfl⟩
  | none =>
    rw [hconflict] at h
    cases hearlier : p.ref.bind t.byRef? with
    | some earlier =>
      rw [hearlier] at h
      cases h
      exact .inr ⟨nofun, t.conflicts, rfl⟩
    | none =>
      simp only [hearlier, bind, Except.bind] at h
      split at h
      · cases h
      · split_ifs at h
        · split at h
          · cases h
          · split_ifs at h
            · cases h
              exact .inl ⟨rfl, rfl, rfl⟩
            · cases h
              exact .inr ⟨nofun, t.conflicts, rfl⟩
        · cases h
          exact .inr ⟨nofun, t.conflicts, rfl⟩

/-- A commit writes both balances, or none. -/
theorem advances_commit {debit credit : BalanceWrite} {p : Posting} {outcome : CommitOutcome}
    (h : t.commit debit credit p = .ok (outcome, t')) :
    t.Advances ((Call.commitPosting debit credit p).written outcome) t' := by
  rcases commit_inv h with ⟨rfl, -, rfl⟩ | ⟨hne, n, rfl⟩
  · exact (Advances.write t debit).trans (.write _ credit)
  · have hnone : (Call.commitPosting debit credit p).written outcome = [] := by
      cases outcome with
      | committed => exact absurd rfl hne
      | versionConflict | duplicate => rfl
    rw [hnone]
    exact .of_wallets rfl

end WalletTable

/-- Whether a call can write the table of owners and wallets. -/
def Call.reachesWallets : {α : Type} → Call α → Bool
  | _, .createOwner _ _ _ _ | _, .setFlags _ _ | _, .createWallet _ _ _ | _, .compareAndSet _
  | _, .commitPosting _ _ _ => true
  | _, _ => false

namespace Memory

variable {α : Type} {c : Call α} {m m' : Memory} {a : α}

/-- **The other calls leave that table alone.** -/
theorem wallets_of_answer (h : m.answer c = .ok (a, m')) (hc : c.reachesWallets = false) :
    m'.wallets = m.wallets := by
  cases c with
  | createOwner | setFlags | createWallet | compareAndSet | commitPosting => cases hc
  | insertReservation r =>
    obtain ⟨t, -, rfl⟩ := answer_insertReservation h
    rfl
  | beginSettlement number s =>
    obtain ⟨r, -, -, ⟨-, rfl⟩ | ⟨-, rfl⟩⟩ := answer_beginSettlement h <;> rfl
  | addCurrency | setTransitive | setActive | addRate | updateRate | deleteRate | setFinal =>
    obtain ⟨t, -, rfl⟩ := writing_eq h
    rfl
  | clearSettlement | closeIfIdle | updateStatusIf | insertWithdrawal | transition | revert =>
    obtain ⟨t, -, rfl⟩ := answering_eq h
    rfl
  | _ =>
    -- The rest read, or they write pairs that are forbidden.
    cases h
    rfl

/-- A commit that is answered has that answer from the table. -/
theorem commit_of_answer {debit credit : BalanceWrite} {p : Posting} {outcome : CommitOutcome}
    (h : m.answer (.commitPosting debit credit p) = .ok (outcome, m')) :
    m.wallets.commit debit credit p = .ok (outcome, m'.wallets) := by
  obtain ⟨table, posted, hcommit, rfl⟩ := answer_commitPosting h
  exact hcommit

/-- **A call advances the versions of what it writes.** -/
theorem advances_answer (h : m.answer c = .ok (a, m')) :
    m.wallets.Advances (c.written a) m'.wallets := by
  cases hc : c.reachesWallets with
  | true =>
    cases c with
    | createOwner =>
      obtain ⟨t, hcreate, rfl⟩ := answering_eq h
      obtain ⟨-, -, rfl⟩ := WalletTable.createOwner_eq hcreate
      exact .of_wallets rfl
    | setFlags =>
      obtain ⟨t, hset, rfl⟩ := answering_eq h
      obtain rfl := WalletTable.setFlags_eq hset
      exact .of_wallets rfl
    | createWallet =>
      obtain ⟨t, hcreate, rfl⟩ := answering_eq h
      exact .createWallet hcreate
    | compareAndSet b =>
      obtain ⟨t, hset, rfl⟩ := answering_eq h
      exact WalletTable.advances_compareAndSet hset
    | commitPosting => exact WalletTable.advances_commit (commit_of_answer h)
    | _ => cases hc
  | false =>
    have hnone : c.written a = [] := by
      cases c with
      | compareAndSet | commitPosting => cases hc
      | _ => rfl
    rw [hnone]
    exact .of_wallets (congrArg WalletTable.wallets (wallets_of_answer h hc))

end Memory

namespace StoreStep

theorem advances (m : Memory) (step : StoreStep) :
    m.wallets.Advances (step.written m) (step.after m).wallets := by
  cases step with
  | inject => exact .of_wallets rfl
  | call c =>
    simp only [written, after, Memory.call, runIn_ofFun]
    cases h : m.answer c with
    | error cause => exact .of_wallets rfl
    | ok r => exact Memory.advances_answer h

/-- **So do any number of calls,** whoever makes them. -/
theorem advances_all (steps : List StoreStep) : ∀ m : Memory,
    m.wallets.Advances (writtenAll m steps) (afterAll m steps).wallets := by
  induction steps with
  | nil => exact fun m => .of_wallets rfl
  | cons step steps ih => exact fun m => (advances m step).trans (ih (step.after m))

/-- **Equal versions mean that nobody wrote.** -/
theorem not_mem_written_iff {m : Memory} {steps : List StoreStep} {id : Int} {w w' : Wallet}
    (hw : m.wallets.wallet? id = some w)
    (hw' : (afterAll m steps).wallets.wallet? id = some w') :
    w'.version = w.version ↔ id ∉ writtenAll m steps := by
  obtain ⟨x, hx, -, hversion, -⟩ := advances_all steps m id w hw
  rw [hw'] at hx
  cases hx
  rw [← List.count_eq_zero]
  omega

end StoreStep

/-! ## 3. Committing what was computed from an earlier state -/

/-- **A posting is committed:** the two wallets hold what was computed and their versions have grown
by one, the record and its reference are appended, and nothing else has changed. -/
structure Memory.Commits (m : Memory) (source dest : Wallet) (sourceAfter destAfter : Decimal)
    (p : Posting) (m' : Memory) : Prop where
  debited : m'.wallets.wallet? source.id =
    some { source with balance := sourceAfter, version := source.version + 1 }
  credited : m'.wallets.wallet? dest.id =
    some { dest with balance := destAfter, version := dest.version + 1 }
  others : ∀ id, id ≠ source.id → id ≠ dest.id → m'.wallets.wallet? id = m.wallets.wallet? id
  log : m'.wallets.log = m.wallets.log ++ [p]
  refs : m'.wallets.refs = m.wallets.refs ++ (p.ref.map (·, m.wallets.log.length)).toList
  rest : m' = { m with
    wallets := { m.wallets with
      wallets := m'.wallets.wallets, log := m'.wallets.log, refs := m'.wallets.refs }
    posted := m.posted + 1 }

/-- **A posting is not committed:** nothing has changed but that a pending conflict may have been
used up. -/
def Memory.Declines (m m' : Memory) : Prop :=
  ∃ n, m' = m.withWallets { m.wallets with conflicts := n }

/-- What a commit comes to when both of its wallets are there. -/
theorem WalletTable.commit_cases {t : WalletTable} {x y : Wallet} (debit credit : BalanceWrite)
    (p : Posting) (hx : t.wallet? debit.walletId = some x)
    (hy : t.wallet? credit.walletId = some y) :
    (∃ n, t.conflicts = n + 1 ∧
      t.commit debit credit p = .ok (.versionConflict, { t with conflicts := n })) ∨
    (∃ earlier, p.ref.bind t.byRef? = some earlier ∧
      t.commit debit credit p = .ok (.duplicate earlier, t)) ∨
    (¬(x.version = debit.expectedVersion ∧ y.version = credit.expectedVersion) ∧
      t.commit debit credit p = .ok (.versionConflict, t)) ∨
    (t.conflicts = 0 ∧ p.ref.bind t.byRef? = none ∧
      (x.version = debit.expectedVersion ∧ y.version = credit.expectedVersion) ∧
      t.commit debit credit p = .ok (.committed, ((t.write debit).write credit).append p)) := by
  unfold commit isCurrent takeConflict?
  rw [hx, hy]
  -- The table looks at these in turn: a pending conflict, the reference, and the versions.
  cases t.conflicts with
  | succ n => exact .inl ⟨n, rfl, rfl⟩
  | zero =>
    cases p.ref.bind t.byRef? with
    | some earlier => exact .inr (.inl ⟨earlier, rfl, rfl⟩)
    | none =>
      by_cases hversions :
        x.version = debit.expectedVersion ∧ y.version = credit.expectedVersion
      · refine .inr (.inr (.inr ⟨rfl, rfl, hversions, ?_⟩))
        simp [hversions.1, hversions.2, bind, Except.bind, pure, Except.pure]
      · refine .inr (.inr (.inl ⟨hversions, ?_⟩))
        rcases not_and_or.1 hversions with hdebit | hcredit
        · simp [hdebit, bind, Except.bind, pure, Except.pure]
        · simp [hcredit, bind, Except.bind, pure, Except.pure]

theorem WalletTable.append_refs (t : WalletTable) (p : Posting) :
    (t.append p).refs = t.refs ++ (p.ref.map (·, t.log.length)).toList := by
  unfold append
  cases p.ref with
  | none => exact (List.append_nil _).symm
  | some ref => rfl

theorem Memory.commits_of_wallet? {m : Memory} {source dest : Wallet}
    (hsource : m.wallets.wallet? source.id = some source)
    (hdest : m.wallets.wallet? dest.id = some dest) (hne : source.id ≠ dest.id)
    (sourceAfter destAfter : Decimal) (p : Posting) :
    m.Commits source dest sourceAfter destAfter p
      { m with
        wallets :=
          ((m.wallets.write (source.write sourceAfter)).write (dest.write destAfter)).append p
        posted := m.posted + 1 } := by
  have hdest' : (m.wallets.write (source.write sourceAfter)).wallet? dest.id = some dest := by
    rw [WalletTable.wallet?_write_of_ne hne.symm, hdest]
  refine ⟨?_, WalletTable.wallet?_write_self hdest' destAfter, fun id hs hd => ?_, rfl,
    WalletTable.append_refs _ p, rfl⟩
  · exact (WalletTable.wallet?_write_of_ne hne).trans
      (WalletTable.wallet?_write_self hsource sourceAfter)
  · exact (WalletTable.wallet?_write_of_ne hd).trans (WalletTable.wallet?_write_of_ne hs)

/-- **A commit is made exactly if nobody interfered:** no conflict is pending, its reference is new,
and neither wallet was written since it was read. -/
theorem StoreStep.answer_commit {m₀ : Memory} (others : List StoreStep) {source dest : Wallet}
    (hsource : m₀.wallets.wallet? source.id = some source)
    (hdest : m₀.wallets.wallet? dest.id = some dest) (hne : source.id ≠ dest.id)
    (sourceAfter destAfter : Decimal) (p : Posting) :
    ∃ outcome m₂, (afterAll m₀ others).answer
        (.commitPosting (source.write sourceAfter) (dest.write destAfter) p) = .ok (outcome, m₂) ∧
      (outcome = .committed ↔ (afterAll m₀ others).wallets.conflicts = 0 ∧
        p.ref.bind (afterAll m₀ others).wallets.byRef? = none ∧
        source.id ∉ writtenAll m₀ others ∧ dest.id ∉ writtenAll m₀ others) ∧
      (outcome = .committed →
        (afterAll m₀ others).Commits source dest sourceAfter destAfter p m₂) ∧
      (outcome ≠ .committed → (afterAll m₀ others).Declines m₂) := by
  obtain ⟨x, hx, -, -, hxeq⟩ := advances_all others m₀ _ _ hsource
  obtain ⟨y, hy, -, -, hyeq⟩ := advances_all others m₀ _ _ hdest
  have hxversion := not_mem_written_iff hsource hx
  have hyversion := not_mem_written_iff hdest hy
  generalize afterAll m₀ others = m₁ at hx hy ⊢
  generalize writtenAll m₀ others = written at hxversion hyversion hxeq hyeq ⊢
  simp only [Memory.answer, Memory.answering]
  rcases WalletTable.commit_cases (source.write sourceAfter) (dest.write destAfter) p hx hy with
    ⟨n, hn, hcommit⟩ | ⟨earlier, hearlier, hcommit⟩ | ⟨hversions, hcommit⟩ |
      ⟨hn, hunused, hversions, hcommit⟩
  all_goals rw [hcommit]
  · refine ⟨.versionConflict, _, rfl, ⟨CommitOutcome.noConfusion, fun h => ?_⟩,
      CommitOutcome.noConfusion, fun _ => ⟨n, rfl⟩⟩
    exact absurd (hn.symm.trans h.1) (Nat.succ_ne_zero n)
  · refine ⟨.duplicate earlier, m₁, rfl, ⟨CommitOutcome.noConfusion, fun h => ?_⟩,
      CommitOutcome.noConfusion, fun _ => ⟨m₁.wallets.conflicts, rfl⟩⟩
    exact absurd (hearlier.symm.trans h.2.1) (Option.some_ne_none earlier)
  · refine ⟨.versionConflict, m₁, rfl, ⟨CommitOutcome.noConfusion, fun h => ?_⟩,
      CommitOutcome.noConfusion, fun _ => ⟨m₁.wallets.conflicts, rfl⟩⟩
    exact absurd ⟨hxversion.2 h.2.2.1, hyversion.2 h.2.2.2⟩ hversions
  · -- Both wallets are as they were read.
    obtain ⟨hs, hd⟩ := And.intro (hxversion.1 hversions.1) (hyversion.1 hversions.2)
    obtain rfl := hxeq hs
    obtain rfl := hyeq hd
    exact ⟨.committed, _, rfl, ⟨fun _ => ⟨hn, hunused, hs, hd⟩, fun _ => rfl⟩,
      fun _ => Memory.commits_of_wallet? hx hy hne sourceAfter destAfter p,
      fun h => absurd rfl h⟩

namespace Memory

/-- **No update is lost.** Two wallets are read, and balances and a record are computed from what
was read, in whatever way; meanwhile other callers do what they like. Then the commit is made, in
which case nobody has written either wallet since, and it has just the effect that it should have;
or it is not made, and every wallet, key, reference and record is as it was. -/
theorem no_lost_update {m₀ : Memory} (others : List StoreStep) {source dest : Wallet}
    (hsource : m₀.wallets.wallet? source.id = some source)
    (hdest : m₀.wallets.wallet? dest.id = some dest) (hne : source.id ≠ dest.id)
    (sourceAfter destAfter : Decimal) (p : Posting) :
    let m₁ := StoreStep.afterAll m₀ others
    let committed := (Memory.call
      (.commitPosting (source.write sourceAfter) (dest.write destAfter) p)).runIn m₁
    (committed.1 = .ok .committed ∧
        source.id ∉ StoreStep.writtenAll m₀ others ∧ dest.id ∉ StoreStep.writtenAll m₀ others ∧
        m₁.Commits source dest sourceAfter destAfter p committed.2) ∨
      ((committed.1 = .ok .versionConflict ∨ (∃ earlier, committed.1 = .ok (.duplicate earlier)) ∨
          ∃ stop, committed.1 = .error stop) ∧
        m₁.Declines committed.2) := by
  obtain ⟨outcome, m₂, hanswer, hiff, hmade, hnot⟩ :=
    StoreStep.answer_commit others hsource hdest hne sourceAfter destAfter p
  simp only [Memory.call, runIn_ofFun, hanswer]
  cases outcome with
  | committed =>
    obtain ⟨-, -, hs, hd⟩ := hiff.1 rfl
    exact .inl ⟨rfl, hs, hd, hmade rfl⟩
  | versionConflict => exact .inr ⟨.inl rfl, hnot CommitOutcome.noConfusion⟩
  | duplicate earlier => exact .inr ⟨.inr (.inl ⟨earlier, rfl⟩), hnot CommitOutcome.noConfusion⟩

end Memory

namespace Small

/-- The wallets of gold in the small ledger. -/
def annGold : Wallet := ⟨3, 2, "ann", "GOLD", .main, units 50, 0⟩

def systemGold : Wallet := ⟨1, 1, "system", "GOLD", .main, units 1000, 0⟩

/-- Ten units of gold from the one to the other. -/
def tenGold : Posting :=
  (Movement.ofAmount annGold systemGold ⟨"GOLD", units 10⟩ .trade none (some "ten")).posting
    annGold systemGold (units 40) (units 1010) (ids.transfer 1) 0

/-- Meanwhile an owner gets other permissions and the wallet of silver is written. -/
def meanwhile : List StoreStep :=
  [.call (.setFlags "ann" 3), .call (.compareAndSet ⟨2, 0, units 7⟩)]

end Small

open WalletLedger.Small in
theorem Memory.no_lost_update_small :
    ledger.memory.wallets.wallet? annGold.id = some annGold ∧
      ledger.memory.wallets.wallet? systemGold.id = some systemGold ∧
      annGold.id ≠ systemGold.id ∧
      let m₁ := StoreStep.afterAll ledger.memory meanwhile
      let committed := (Memory.call (.commitPosting (annGold.write (units 40))
        (systemGold.write (units 1010)) tenGold)).runIn m₁
      committed.1 = .ok .committed ∧
        annGold.id ∉ StoreStep.writtenAll ledger.memory meanwhile ∧
        systemGold.id ∉ StoreStep.writtenAll ledger.memory meanwhile ∧
        m₁.Commits annGold systemGold (units 40) (units 1010) tenGold committed.2 := by
  have hann : ledger.memory.wallets.wallet? annGold.id = some annGold := by decide +kernel
  have hsystem : ledger.memory.wallets.wallet? systemGold.id = some systemGold := by
    decide +kernel
  have hne : annGold.id ≠ systemGold.id := by decide
  refine ⟨hann, hsystem, hne, ?_⟩
  rcases no_lost_update meanwhile hann hsystem hne (units 40) (units 1010) tenGold with
    hmade | ⟨-, n, hdeclined⟩
  · exact hmade
  · -- The log has grown, so the commit was not declined.
    have hlog : ((Memory.call (.commitPosting (annGold.write (units 40))
        (systemGold.write (units 1010)) tenGold)).runIn
          (StoreStep.afterAll ledger.memory meanwhile)).2.wallets.log = [tenGold] := by
      decide +kernel
    have hempty : (StoreStep.afterAll ledger.memory meanwhile).wallets.log = [] := by
      decide +kernel
    rw [hdeclined] at hlog
    exact absurd (hempty.symm.trans hlog) (List.cons_ne_nil _ _).symm

end WalletLedger
