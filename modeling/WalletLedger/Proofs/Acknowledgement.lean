/-
One acknowledged commit for one posting.

A ledger over a database posts by a talk with it: both wallets are read, and one transaction writes
two balances and a row; if a wallet has moved on, that is done again. The talk has one of four
endings (`Ledger.Settles`). A commit is acknowledged; a commit is refused; a posting with the
reference is read back; or the talk stops without any commit having been sent. So a commit is the
last thing that is tried, and what was sent before it in its transaction is known statement by
statement (`Ledger.Prepares`).

The main statement, `posts_once`, holds for every script of replies: nothing is assumed of what the
database answers to a statement or of the steps that it refuses.
-/
import WalletLedger.Ledger.Engine
import WalletLedger.Proofs.Exchanges
import Mathlib.Tactic.SplitIfs

set_option autoImplicit false

namespace WalletLedger

open WalletLedger.Action

namespace Database

/-! ## 1. What is sent -/

/-- How many steps of a kind were taken in a talk. -/
def countSteps (v : Verb) (talk : List Exchange) : Nat := talk.countP (·.isStep v)

theorem countSteps_append (v : Verb) (talk talk' : List Exchange) :
    countSteps v (talk ++ talk') = countSteps v talk + countSteps v talk' :=
  List.countP_append

/-- No commit is sent, and so many transactions are started at most. -/
structure Idle (starts : Nat) (talk : List Exchange) : Prop where
  starts : countSteps .start talk ≤ starts
  commits : countSteps .commit talk = 0

theorem Idle.nil (n : Nat) : Idle n [] := ⟨Nat.zero_le n, rfl⟩

theorem Idle.append {m n : Nat} {talk talk' : List Exchange} (h : Idle m talk)
    (h' : Idle n talk') : Idle (m + n) (talk ++ talk') := by
  constructor
  · rw [countSteps_append]
    exact Nat.add_le_add h.starts h'.starts
  · rw [countSteps_append, h.commits, h'.commits]

theorem Idle.mono {m n : Nat} {talk : List Exchange} (h : Idle m talk) (hmn : m ≤ n) :
    Idle n talk := ⟨Nat.le_trans h.starts hmn, h.commits⟩

/-- A statement is no step of a transaction. -/
theorem Idle.said {n : Nat} {talk : List Exchange} (h : Idle n talk) (s : Statement)
    (reply : Reply) : Idle n (.statement s reply :: talk) := by
  constructor
  · rw [countSteps, List.countP_cons_of_neg Bool.false_ne_true]
    exact h.starts
  · rw [countSteps, List.countP_cons_of_neg Bool.false_ne_true]
    exact h.commits

theorem idle_statement (s : Statement) (reply : Reply) : Idle 0 [.statement s reply] :=
  (Idle.nil 0).said s reply

theorem idle_rollback (refusal : Option ServerError) : Idle 0 [.step .rollback refusal] :=
  ⟨Nat.le_refl 0, rfl⟩

theorem idle_start (refusal : Option ServerError) : Idle 1 [.step .start refusal] :=
  ⟨Nat.le_refl 1, rfl⟩

theorem Idle.opened {said : List Exchange} (h : Idle 0 said) :
    Idle 1 (.step .start none :: said) :=
  Idle.append (idle_start none) h

/-- The question for the wallet with a number. -/
def walletById (id : Int) : Statement := selectWallets "WHERE w.id = $1" [.int id]

/-- The question for the posting with a reference. -/
def postingByRef (ref : String) : Statement :=
  selectPostings ["WHERE transfer_ref = $1"] [.text ref]

/-- **The three writes of a posting,** each of which changed a row. -/
inductive Written (debit credit : BalanceWrite) (p : Posting) : List Exchange → Prop
  | all {r₁ r₂ r₃ : Reply} (debited : 0 < r₁.count) (credited : 0 < r₂.count)
      (added : 0 < r₃.count) :
      Written debit credit p
        [.statement (writeBalance debit) r₁, .statement (writeBalance credit) r₂,
          .statement (addPosting p) r₃]

theorem Written.idle {debit credit : BalanceWrite} {p : Posting} {said : List Exchange}
    (h : Written debit credit p said) : Idle 0 said := by
  cases h with
  | all => exact ((idle_statement _ _).said _ _).said _ _

/-! ## 2. Committing a posting -/

section Committing

variable {debit credit : BalanceWrite} {p : Posting}

/-- **What the body of the transaction says.** Only what changed a row three times is to be kept. -/
inductive Body (debit credit : BalanceWrite) (p : Posting) :
    List Exchange → Except Stop (Ending (Option CommitOutcome)) → Prop
  | stopped {said : List Exchange} (stop : Stop) (idle : Idle 0 said) :
      Body debit credit p said (.error stop)
  | undone {said : List Exchange} {answer : Option CommitOutcome} (idle : Idle 0 said)
      (late : answer = none ∨ answer = some .versionConflict) :
      Body debit credit p said (.ok (.undo answer))
  | written {said : List Exchange} (h : Written debit credit p said) :
      Body debit credit p said (.ok (.keep (some .committed)))

theorem says_writePosting :
    Says transcript (writePosting debit credit p) (Body debit credit p) := by
  unfold writePosting
  refine (says_execute _).bind (fun talk stop ⟨r₁, h, _⟩ => ?_) fun talk n ⟨r₁, h, hn⟩ => ?_
  · exact .stopped stop (h ▸ idle_statement _ _)
  have hn := hn n rfl
  subst h
  split_ifs with hzero
  · exact says_pure (.undone (idle_statement _ _) (.inr rfl))
  refine (says_execute _).bind (fun talk stop ⟨r₂, h, _⟩ => ?_) fun talk k ⟨r₂, h, hk⟩ => ?_
  · subst h
    exact .stopped stop ((idle_statement _ _).said _ _)
  have hk := hk k rfl
  subst h
  split_ifs with hzero'
  · exact says_pure (.undone ((idle_statement _ _).said _ _) (.inr rfl))
  refine (says_execute _).bind (fun talk stop ⟨r₃, h, _⟩ => ?_) fun talk j ⟨r₃, h, hj⟩ => ?_
  · subst h
    exact .stopped stop ⟨Nat.le_refl 0, rfl⟩
  have hj := hj j rfl
  subst h
  split_ifs with hzero''
  · exact says_pure (.undone (((idle_statement _ _).said _ _).said _ _) (.inl rfl))
  · exact says_pure (.written (.all (hn ▸ Nat.pos_of_ne_zero hzero)
      (hk ▸ Nat.pos_of_ne_zero hzero') (hj ▸ Nat.pos_of_ne_zero hzero'')))

/-- **The courses of committing a posting.** -/
inductive Commits (debit credit : BalanceWrite) (p : Posting) :
    List Exchange → Except Stop CommitOutcome → Prop
  | committed {said : List Exchange} (written : Written debit credit p said) :
      Commits debit credit p (.step .start none :: said ++ [.step .commit none]) (.ok .committed)
  | unacknowledged {said : List Exchange} (e : ServerError) (refusal : Option ServerError)
      (stop : Stop) (written : Written debit credit p said) :
      Commits debit credit p
        (.step .start none :: said ++ [.step .commit (some e), .step .rollback refusal])
        (.error stop)
  | conflict {said : List Exchange} (idle : Idle 0 said) :
      Commits debit credit p (.step .start none :: said ++ [.step .rollback none])
        (.ok .versionConflict)
  | duplicate {said : List Exchange} {ref : String} {reply : Reply} {earlier : Posting}
      (idle : Idle 0 said) (named : p.ref = some ref) (shown : reply.Shows Posting.ofRow earlier) :
      Commits debit credit p
        (.step .start none :: said ++ [.step .rollback none] ++
          [.statement (postingByRef ref) reply])
        (.ok (.duplicate earlier))
  | stopped {talk : List Exchange} (stop : Stop) (idle : Idle 1 talk) :
      Commits debit credit p talk (.error stop)

theorem says_earlierPosting (ref : Option String) :
    Says transcript (earlierPosting ref) fun talk r => Idle 0 talk ∧
      ∀ v, r = .ok (some v) → ∃ name reply, ref = some name ∧
        talk = [.statement (postingByRef name) reply] ∧ reply.Shows Posting.ofRow v := by
  cases ref with
  | none => exact says_pure ⟨.nil 0, fun v hr => by cases hr⟩
  | some name =>
    show Says transcript (fetch? Posting.ofRow (postingByRef name)) _
    refine (says_fetch? Posting.ofRow (postingByRef name)).mono fun talk r ⟨reply, h, hv⟩ => ?_
    subst h
    exact ⟨idle_statement _ _, fun v hr => ⟨name, reply, rfl, rfl, hv v hr⟩⟩

theorem says_commitPosting :
    Says transcript (commitPosting debit credit p) (Commits debit credit p) := by
  unfold commitPosting
  refine (says_inTransaction says_writePosting).bind (fun talk stop h => ?_)
    fun talk outcome h => ?_
  · cases h with
    | unopened e => exact .stopped stop (idle_start _)
    | aborted said body => cases body with | stopped _ idle => exact .stopped _ idle.opened
    | refused said cause refusal body =>
      cases body with
      | stopped _ idle => exact .stopped _ (idle.opened.append (idle_rollback refusal))
    | stuck said answer e _ body =>
      cases body with
      | undone idle _ => exact .stopped _ (idle.opened.append (idle_rollback _))
    | lost said answer e refusal _ body =>
      cases body with
      | written written => exact .unacknowledged e refusal stop written
  cases h with
  | kept said answer body =>
    cases body with
    | written written => exact says_pure (by rw [List.append_nil]; exact .committed written)
  | undone said answer body =>
    cases body with
    | undone idle late =>
      rcases late with rfl | rfl
      · -- The reference is taken, so its posting is looked up.
        refine (says_earlierPosting p.ref).bind (fun talk stop h => ?_) fun talk found h => ?_
        · exact .stopped stop ((idle.opened.append (idle_rollback none)).append h.1)
        refine (says_orRefuse _ found).bind (fun talk' stop h' => ?_) fun talk' v h' => ?_
        · rw [h'.1, List.append_nil]
          exact .stopped stop ((idle.opened.append (idle_rollback none)).append h.1)
        · obtain ⟨ref, reply, named, rfl, shown⟩ := h.2 v (by rw [h'.2 v rfl])
          rw [h'.1]
          exact says_pure (.duplicate idle named shown)
      · exact says_pure (by rw [List.append_nil]; exact .conflict idle)

end Committing

end Database

namespace Ledger

open Database

/-! ## 3. Posting -/

section Posting

variable {α : Type} {t : Terms} {access : Access} {mv : Movement}

/-- What was exchanged with the database of a ledger. -/
def transcript (l : Ledger Database) : List Exchange := l.stores.transcript

theorem says_ask {c : Call α} {Q : List Exchange → Except Stop α → Prop}
    (h : Says Database.transcript (Database.call c) Q) :
    Says transcript (ask (σ := Database) c) Q :=
  Says.zoom (fun _ _ => rfl) h

theorem says_loadWallet (id : Int) :
    Says transcript (loadWallet id) fun talk r => ∃ reply,
      talk = [.statement (walletById id) reply] ∧ ∀ w, r = .ok w → reply.Shows Wallet.ofRow w := by
  unfold loadWallet
  refine (says_ask (c := .findWalletById id) (says_fetch? Wallet.ofRow (walletById id))).bind
    (fun talk stop ⟨reply, h, _⟩ => ⟨reply, h, nofun⟩) fun talk found ⟨reply, h, hshown⟩ => ?_
  refine (says_orRefuse .walletNotFound found).mono fun talk' r h' => ⟨reply, ?_, fun w hw => ?_⟩
  · rw [h, h'.1, List.append_nil]
  · exact hshown w (by rw [h'.2 w hw])

/-- **A movement is prepared** by reading both wallets and writing, in one transaction, both
balances and the posting; each of the three writes changed a row. -/
inductive Prepares (mv : Movement) : Posting → List Exchange → Prop
  | paid {source dest : Wallet} {sourceAfter destAfter : Decimal} {id : TransferId}
      {createdAt : Instant} {r₁ r₂ : Reply} {said : List Exchange}
      (sourceShown : r₁.Shows Wallet.ofRow source) (destShown : r₂.Shows Wallet.ofRow dest)
      (debit : source.balanceAfter mv.debit = .ok sourceAfter)
      (credit : dest.balanceAfter mv.destAmount = .ok destAfter)
      (written : Written (source.write sourceAfter) (dest.write destAfter)
        (mv.posting source dest sourceAfter destAfter id createdAt) said) :
      Prepares mv (mv.posting source dest sourceAfter destAfter id createdAt)
        ([.statement (walletById mv.source.id) r₁, .statement (walletById mv.dest.id) r₂,
          .step .start none] ++ said)

theorem Prepares.idle {p : Posting} {paid : List Exchange} (h : Prepares mv p paid) :
    Idle 1 paid := by
  cases h with
  | paid _ _ _ _ written => exact (written.idle.opened.said _ _).said _ _

/-- **The endings of a posting,** after so many transactions at most. -/
inductive Settles (mv : Movement) (starts : Nat) : List Exchange → Except Stop Receipt → Prop
  | acknowledged {q paid : List Exchange} {p : Posting} (prepared : Prepares mv p paid)
      (idle : Idle starts (q ++ paid)) :
      Settles mv starts (q ++ paid ++ [.step .commit none]) (.ok p.receipt)
  | unacknowledged {q paid : List Exchange} {p : Posting} (e : ServerError)
      (refusal : Option ServerError) (stop : Stop) (prepared : Prepares mv p paid)
      (idle : Idle starts (q ++ paid)) :
      Settles mv starts
        (q ++ paid ++ [.step .commit (some e), .step .rollback refusal]) (.error stop)
  | readBack {q : List Exchange} {ref : String} {reply : Reply} {p : Posting}
      (named : mv.ref = some ref) (shown : reply.Shows Posting.ofRow p)
      (same : mv.isRecordedBy p = true) (idle : Idle starts q) :
      Settles mv starts (q ++ [.statement (postingByRef ref) reply]) (.ok p.receipt)
  | stopped {q : List Exchange} (stop : Stop) (idle : Idle starts q) :
      Settles mv starts q (.error stop)

/-- What was said before without a commit does not change the ending. -/
theorem Settles.after {m n : Nat} {quiet talk : List Exchange} {r : Except Stop Receipt}
    (hquiet : Idle m quiet) (h : Settles mv n talk r) : Settles mv (m + n) (quiet ++ talk) r := by
  cases h with
  | acknowledged prepared idle =>
    rw [← List.append_assoc, ← List.append_assoc]
    refine .acknowledged prepared ?_
    rw [List.append_assoc]
    exact hquiet.append idle
  | unacknowledged e refusal stop prepared idle =>
    rw [← List.append_assoc, ← List.append_assoc]
    refine .unacknowledged e refusal stop prepared ?_
    rw [List.append_assoc]
    exact hquiet.append idle
  | readBack named shown same idle =>
    rw [← List.append_assoc]
    exact .readBack named shown same (hquiet.append idle)
  | stopped stop idle => exact .stopped stop (hquiet.append idle)

theorem Settles.mono {m n : Nat} {talk : List Exchange} {r : Except Stop Receipt}
    (h : Settles mv m talk r) (hmn : m ≤ n) : Settles mv n talk r := by
  cases h with
  | acknowledged prepared idle => exact .acknowledged prepared (idle.mono hmn)
  | unacknowledged e refusal stop prepared idle =>
    exact .unacknowledged e refusal stop prepared (idle.mono hmn)
  | readBack named shown same idle => exact .readBack named shown same (idle.mono hmn)
  | stopped stop idle => exact .stopped stop (idle.mono hmn)

/-- A posting that was found is the answer only if it records the movement. -/
theorem receipt_of_replay {p : Posting} {r : Receipt} (h : mv.replay p = .ok r) :
    mv.isRecordedBy p = true ∧ r = p.receipt := by
  unfold Movement.replay at h
  split_ifs at h with same
  cases h
  exact ⟨same, rfl⟩

/-- **What one attempt says:** it settles the movement, or it leaves it to the next. -/
inductive Tries (mv : Movement) : List Exchange → Except Stop (Option Receipt) → Prop
  | settled {talk : List Exchange} {r : Receipt} (h : Settles mv 1 talk (.ok r)) :
      Tries mv talk (.ok (some r))
  | late {talk : List Exchange} (idle : Idle 1 talk) : Tries mv talk (.ok none)
  | stopped {talk : List Exchange} {stop : Stop} (h : Settles mv 1 talk (.error stop)) :
      Tries mv talk (.error stop)

theorem says_commit (debit credit : BalanceWrite) (p : Posting) :
    Says transcript (ask (σ := Database) (.commitPosting debit credit p))
      (Commits debit credit p) :=
  says_ask (c := .commitPosting debit credit p) says_commitPosting

/-- An action that does not reach the database. -/
theorem says_beside {a : Action (Ledger Database) α}
    (h : ∀ l, ((a.runIn l).2).transcript = l.transcript) :
    Says transcript a fun talk r => talk = [] ∧ ∀ v, r = .ok v → True :=
  says_nothing fun l => ⟨h l, rfl, fun _ _ => trivial⟩

/-- Counting always goes on. -/
theorem says_count (c : Category) :
    Says transcript (count t c) fun talk r => talk = [] ∧ r = .ok () := by
  refine says_nothing fun l => ⟨?_, rfl, rfl⟩
  show (if t.counting then { l with counters := advance c l.counters } else l).transcript = _
  split_ifs <;> rfl

theorem says_tryPost : Says transcript (tryPost t access mv) (Tries mv) := by
  unfold tryPost
  refine (says_loadWallet _).bind (fun talk stop ⟨r₁, h, _⟩ => ?_)
    fun talk source ⟨r₁, h, sourceShown⟩ => ?_
  · exact .stopped (.stopped stop (h ▸ (Idle.nil 1).said _ _))
  subst h
  refine (says_loadWallet _).bind (fun talk stop ⟨r₂, h, _⟩ => ?_)
    fun talk dest ⟨r₂, h, destShown⟩ => ?_
  · exact .stopped (.stopped stop (h ▸ ((Idle.nil 1).said _ _).said _ _))
  subst h
  have sourceShown := sourceShown source rfl
  have destShown := destShown dest rfl
  -- Both questions come before whatever the transaction says.
  have read : ∀ {talk : List Exchange}, Idle 1 talk →
      Idle 1 ([.statement (walletById mv.source.id) r₁] ++
        ([.statement (walletById mv.dest.id) r₂] ++ talk)) := fun h => (h.said _ _).said _ _
  have stopped : ∀ stop, Tries mv ([.statement (walletById mv.source.id) r₁] ++
      ([.statement (walletById mv.dest.id) r₂] ++ [])) (.error stop) := fun stop =>
    .stopped (.stopped stop (read (.nil 1)))
  refine (says_ofExcept _).bind_quiet stopped fun _ _ => ?_
  refine (says_ofExcept _).bind_quiet stopped fun sourceAfter debit => ?_
  refine (says_ofExcept _).bind_quiet stopped fun destAfter credit => ?_
  refine (says_beside fun _ => rfl).bind_quiet stopped fun ids _ => ?_
  refine (says_beside fun _ => rfl).bind_quiet stopped fun createdAt _ => ?_
  have prepared : ∀ {said}, Written (source.write sourceAfter) (dest.write destAfter)
      (mv.posting source dest sourceAfter destAfter ids.transfer createdAt) said →
        Prepares mv _ _ :=
    .paid sourceShown destShown debit credit
  refine (says_commit _ _ _).bind (fun talk stop h => .stopped ?_) fun talk outcome h => ?_
  · cases h with
    | unacknowledged e refusal _ written =>
      exact .unacknowledged (q := []) e refusal stop (prepared written) (prepared written).idle
    | stopped _ idle => exact .stopped stop (read idle)
  · cases h with
    | committed written =>
      refine (says_count mv.category).bind (fun _ _ h => nomatch h.2) fun talk _ h =>
        says_pure (.settled ?_)
      rw [h.1, List.append_nil, List.append_nil]
      exact .acknowledged (q := []) (prepared written) (prepared written).idle
    | conflict idle =>
      refine says_pure (.late ?_)
      rw [List.append_nil]
      exact read (idle.opened.append (idle_rollback none))
    | duplicate idle named shown =>
      refine (says_ofExcept _).map fun talk r h => ?_
      obtain ⟨rfl, hr⟩ := h
      rw [List.append_nil]
      have hidle := read (idle.opened.append (idle_rollback none))
      cases r with
      | error stop => exact .stopped (.stopped stop (hidle.append (idle_statement _ _)))
      | ok receipt =>
        obtain ⟨same, rfl⟩ := receipt_of_replay (hr receipt rfl)
        exact .settled (.readBack (q := _) named shown same hidle)

/-- **Trying again** adds the transactions of the attempts that came too late. -/
theorem says_retry {exhausted : Error} {a : Action (Ledger Database) (Option Receipt)}
    (ha : Says transcript a (Tries mv)) (attempts : Nat) :
    Says transcript (retry exhausted a attempts) (Settles mv attempts) := by
  -- Only a late attempt is followed by another, and it has sent no commit.
  induction attempts with
  | zero => exact says_refuse (.stopped _ (.nil 0))
  | succ n ih =>
    have hone : 1 ≤ n + 1 := Nat.succ_le_succ (Nat.zero_le n)
    unfold retry
    refine ha.bind (fun talk stop h => ?_) fun talk o h => ?_
    · cases h with
      | stopped h => exact h.mono hone
    · cases h with
      | settled h => exact says_pure (by rw [List.append_nil]; exact h.mono hone)
      | late idle => exact ih.mono fun talk' r h => (Nat.add_comm 1 n) ▸ h.after idle

theorem says_asked (mv : Movement) :
    Says transcript (earlierPosting mv) fun talk r => Idle 0 talk ∧
      ∀ v, r = .ok (some v) → ∃ ref reply, mv.ref = some ref ∧
        talk = [.statement (postingByRef ref) reply] ∧ reply.Shows Posting.ofRow v := by
  unfold Ledger.earlierPosting
  cases mv.ref with
  | none => exact says_pure ⟨.nil 0, fun v hr => by cases hr⟩
  | some ref => exact says_ask (c := .findPosting ref) (says_earlierPosting (some ref))

/-- **What posting a movement says.** -/
theorem says_post : Says transcript (post t access mv) (Settles mv t.maxAttempts) := by
  have stopped : ∀ stop, Settles mv t.maxAttempts [] (.error stop) := fun stop =>
    .stopped stop (.nil _)
  unfold post
  refine (says_ofExcept _).bind_quiet stopped fun _ _ => ?_
  refine (says_ofExcept _).bind_quiet stopped fun _ _ => ?_
  refine (says_asked mv).bind (fun talk stop h => ?_) fun talk found h => ?_
  · exact .stopped stop (h.1.mono (Nat.zero_le _))
  cases found with
  | none =>
    refine (says_retry says_tryPost _).mono fun talk' r h' => ?_
    exact Nat.zero_add t.maxAttempts ▸ h'.after h.1
  | some p =>
    obtain ⟨ref, reply, named, rfl, shown⟩ := h.2 p rfl
    refine (says_ofExcept _).mono fun talk' r h' => ?_
    rw [h'.1, List.append_nil]
    cases r with
    | error stop => exact .stopped stop ((idle_statement _ _).mono (Nat.zero_le _))
    | ok receipt =>
      obtain ⟨same, rfl⟩ := receipt_of_replay (h'.2 receipt rfl)
      exact .readBack (q := []) named shown same (.nil _)

end Posting

/-! ## 4. At most one commit -/

section Commits

variable {mv : Movement} {n : Nat} {talk : List Exchange} {r : Except Stop Receipt}

theorem countSteps_commit_pos (before after : List Exchange) (refusal : Option ServerError) :
    0 < countSteps .commit (before ++ .step .commit refusal :: after) :=
  List.countP_pos_iff.2 ⟨_, List.mem_append_right _ List.mem_cons_self, rfl⟩

/-- Where one commit was sent, there is one way to point at it. -/
theorem commit_unique {pre before after : List Exchange} (post : List Exchange)
    {x y : Option ServerError} (hpre : countSteps .commit pre = 0)
    (hpost : countSteps .commit post = 0)
    (h : pre ++ .step .commit x :: post = before ++ .step .commit y :: after) :
    before = pre ∧ y = x ∧ after = post := by
  obtain ⟨a, rfl, hrest⟩ | ⟨a, rfl, hrest⟩ := List.append_eq_append_iff.1 h
  · -- The commit that is pointed at comes later.
    cases a with
    | nil =>
      cases hrest
      exact ⟨List.append_nil _, rfl, rfl⟩
    | cons e a =>
      obtain ⟨-, rfl⟩ := List.cons.inj hrest
      exact absurd hpost (Nat.ne_of_gt (countSteps_commit_pos a after y))
  · -- It comes earlier.
    cases a with
    | nil =>
      cases hrest
      exact ⟨(List.append_nil _).symm, rfl, rfl⟩
    | cons e a =>
      obtain ⟨rfl, -⟩ := List.cons.inj hrest
      exact absurd hpre (Nat.ne_of_gt (countSteps_commit_pos before a y))

/-- **What a database hears of one posting.** -/
structure PaysOnce (t : Terms) (mv : Movement) (talk : List Exchange)
    (result : Except Stop Receipt) : Prop where
  starts : countSteps .start talk ≤ t.maxAttempts
  commits : countSteps .commit talk ≤ 1
  /-- Before a commit, all was written that is to be kept; and an acknowledged commit is the last
  thing that is heard, and its posting is the answer. -/
  written : ∀ before refusal after, talk = before ++ .step .commit refusal :: after →
    ∃ earlier paid p, before = earlier ++ paid ∧ Prepares mv p paid ∧
      (refusal = none → after = [] ∧ result = .ok p.receipt)
  /-- A receipt is that of a posting whose commit was acknowledged, or of one that was read back
  under the movement's own reference. -/
  answered : ∀ receipt, result = .ok receipt →
    (∃ earlier paid p, talk = earlier ++ paid ++ [.step .commit none] ∧ Prepares mv p paid ∧
      receipt = p.receipt) ∨
    ∃ earlier ref reply p, talk = earlier ++ [.statement (postingByRef ref) reply] ∧
      mv.ref = some ref ∧ reply.Shows Posting.ofRow p ∧ mv.isRecordedBy p = true ∧
      receipt = p.receipt

theorem Settles.paysOnce {t : Terms} (h : Settles mv t.maxAttempts talk r) :
    PaysOnce t mv talk r := by
  have uncommitted : ∀ {a b : List Exchange} {y}, countSteps .commit talk = 0 →
      talk ≠ a ++ .step .commit y :: b := by
    rintro a b y hzero rfl
    exact absurd hzero (Nat.ne_of_gt (countSteps_commit_pos a b y))
  cases h with
  | acknowledged prepared idle =>
    refine ⟨?_, ?_, fun before refusal after h => ?_, fun receipt h => ?_⟩
    · rw [countSteps_append]
      exact idle.starts
    · rw [countSteps_append, idle.commits]
      exact Nat.le_refl 1
    · obtain ⟨rfl, rfl, rfl⟩ := commit_unique [] idle.commits rfl h
      exact ⟨_, _, _, rfl, prepared, fun _ => ⟨rfl, rfl⟩⟩
    · cases h
      exact .inl ⟨_, _, _, rfl, prepared, rfl⟩
  | unacknowledged e refusal stop prepared idle =>
    refine ⟨?_, ?_, fun before x after h => ?_, fun receipt h => by cases h⟩
    · rw [countSteps_append]
      exact idle.starts
    · rw [countSteps_append, idle.commits]
      exact Nat.le_refl 1
    · obtain ⟨rfl, rfl, rfl⟩ :=
        commit_unique [.step .rollback refusal] idle.commits rfl h
      exact ⟨_, _, _, rfl, prepared, nofun⟩
  | @readBack quiet ref reply p named shown same idle =>
    have hidle := idle.append (idle_statement (postingByRef ref) reply)
    refine ⟨hidle.starts, ?_, fun before x after h => absurd h (uncommitted hidle.commits),
      fun receipt h => ?_⟩
    · rw [hidle.commits]
      exact Nat.zero_le 1
    · cases h
      exact .inr ⟨_, _, _, _, rfl, named, shown, same, rfl⟩
  | stopped stop idle =>
    refine ⟨idle.starts, ?_, fun before x after h => absurd h (uncommitted idle.commits),
      fun receipt h => by cases h⟩
    rw [idle.commits]
    exact Nat.zero_le 1

/-- A posting that is told to wait, or that was made before, was undone and not committed. -/
theorem undone_of_commits {debit credit : BalanceWrite} {p : Posting} {outcome : CommitOutcome}
    (h : Commits debit credit p talk (.ok outcome)) (hother : outcome ≠ .committed) :
    .step .rollback none ∈ talk ∧ countSteps .commit talk = 0 := by
  cases h with
  | committed => exact absurd rfl hother
  | conflict idle =>
    exact ⟨List.mem_append_right _ List.mem_cons_self,
      (idle.opened.append (idle_rollback none)).commits⟩
  | duplicate idle =>
    exact ⟨List.mem_append_left _ (List.mem_append_right _ List.mem_cons_self),
      ((idle.opened.append (idle_rollback none)).append (idle_statement _ _)).commits⟩

end Commits

/-- **One acknowledged commit for one posting,** whatever the database answers and whichever steps
of transactions it refuses. Posting a movement starts no more transactions than it may try. It sends
one commit at most, and only after the three writes of its transaction have each changed a row; if
that commit is acknowledged, the receipt is that of the posting it was for, and any other receipt is
that of a posting which was read back. And where two balances and a posting are answered with a
conflict or with an earlier posting, they were undone. -/
theorem posts_once (t : Terms) (access : Access) (mv : Movement) :
    (∀ l : Ledger Database, ∃ talk,
      ((post t access mv).runIn l).2.transcript = l.transcript ++ talk ∧
        PaysOnce t mv talk ((post t access mv).runIn l).1) ∧
    ∀ (debit credit : BalanceWrite) (p : Posting) (d : Database), ∃ talk,
      ((commitPosting debit credit p).runIn d).2.transcript = d.transcript ++ talk ∧
        ∀ outcome, ((commitPosting debit credit p).runIn d).1 = .ok outcome →
          outcome ≠ .committed → .step .rollback none ∈ talk ∧ countSteps .commit talk = 0 := by
  constructor
  · intro l
    obtain ⟨talk, htalk, hsettles⟩ := (says_post : Says _ (post t access mv) _) l
    exact ⟨talk, htalk, hsettles.paysOnce⟩
  · intro debit credit p d
    obtain ⟨talk, htalk, hcommits⟩ :=
      (says_commitPosting : Says _ (commitPosting debit credit p) _) d
    exact ⟨talk, htalk, fun outcome hr => undone_of_commits (hr ▸ hcommits)⟩

end Ledger

end WalletLedger
