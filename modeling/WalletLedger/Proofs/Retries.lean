/-
Conflicts that nobody sees.

A balance is written on condition that its wallet has not moved on, and an attempt that comes too
late is made again. In the memory nothing moves a wallet between the reading and the writing, so an
attempt comes too late only as often as conflicts are pending, and each of them is used up by one
write. An attempt is `Optimistic`: it fails before it writes, whatever is pending, or else it waits
as long as a conflict is pending and then goes the way that it goes without one.

Two operations repeat such attempts, and both draw on the one number of pending conflicts. Each of
them only reads before the first attempt (`Guarded`). So fewer conflicts than attempts are
`Invisible`, and with at least as many the operation ends before any write, as it would without
them, or has nothing to show but that it gave up.

What can be told before any write is said without the operations. A change of a balance is refused
because the wallet is missing or the new balance is out of order (`WalletTable.Refuses`); a movement
is refused for that, because it may not be made, or because its reference is another movement's, and
it may have been recorded earlier (`WalletTable.Foresees`). That others were faster is none of these
causes, so an operation that gives up without having tried ends in neither of the two ways.
-/
import WalletLedger.Proofs.Agreement
import WalletLedger.Proofs.Tables

set_option autoImplicit false

namespace WalletLedger

open WalletLedger.Action

/-! ## 1. Pending conflicts -/

/-- The rows with so many conflicts pending. -/
def Memory.withPending (m : Memory) (n : Nat) : Memory :=
  m.withWallets { m.wallets with conflicts := n }

/-- A receipt without its identifier and its time. -/
def Receipt.undated (r : Receipt) : Receipt := { r with transferId := .ofNat 0, date := 0 }

namespace Ledger

variable {l : Ledger Memory} {α β : Type}

/-- **The ledger at an instant,** with so many conflicts pending. -/
def busy (l : Ledger Memory) (n : Nat) (c : Instant) : Ledger Memory :=
  { l with stores := l.stores.withPending n, clock := c }

def withPending (l : Ledger Memory) (n : Nat) : Ledger Memory := l.busy n l.clock

/-- The ledger without what two runs may differ in: the time, the conflicts that are left, and the
identifiers and times of the postings. -/
def erased (l : Ledger Memory) : Ledger Memory :=
  { l with stores := (l.stores.withPending 0).undated, clock := 0 }

/-- **What two runs left is the same:** all rows, and all that is kept beside them, up to the
identifiers and times of the postings that they added to the log. -/
structure LeftAlike (l l₁ l₂ : Ledger Memory) : Prop where
  rows : l₁.erased = l₂.erased
  added : ∃ new₁ new₂, l₁.stores.wallets.log = l.stores.wallets.log ++ new₁ ∧
    l₂.stores.wallets.log = l.stores.wallets.log ++ new₂

theorem leftAlike_busy (n n' : Nat) (c c' : Instant) : LeftAlike l (l.busy n c) (l.busy n' c') :=
  ⟨rfl, [], [], (List.append_nil _).symm, (List.append_nil _).symm⟩

/-- **A result that is a failure,** for one of some causes. -/
def FailsFor (causes : Error → Prop) : Except Error α → Prop
  | .error cause => causes cause
  | .ok _ => False

/-- **Fewer conflicts than attempts change nothing.** With more of them the action ends in one of
two ways. What comes of it is `foreseen`, which giving up is not: then nothing is written, and not
one conflict is used up. Or it gives up, each attempt having used up a conflict, and it would have
succeeded without them, if it may try at all. -/
structure Invisible (exhausted : Error) (attempts : Nat) (same : α → α → Prop)
    (foreseen : Except Error α → Prop) (l : Ledger Memory) (a : Action (Ledger Memory) α) :
    Prop where
  fewer : ∀ n < attempts,
    Likewise same (a.runIn (l.withPending n)).1 (a.runIn (l.withPending 0)).1 ∧
      LeftAlike l (a.runIn (l.withPending n)).2 (a.runIn (l.withPending 0)).2
  enough : ∀ n ≥ attempts,
    (∃ result, foreseen result ∧ result ≠ .error exhausted ∧
      a.runIn (l.withPending n) = (result.mapError Stop.refused, l.withPending n) ∧
      a.runIn (l.withPending 0) = (result.mapError Stop.refused, l.withPending 0)) ∨
    (∃ clock, a.runIn (l.withPending n) =
      (.error (.refused exhausted), l.busy (n - attempts) clock)) ∧
      (0 < attempts → ∃ v, (a.runIn (l.withPending 0)).1 = .ok v)

/-! ## 2. Reading -/

/-- **An action that only reads,** and not how many conflicts are pending. -/
def Unaware (l : Ledger Memory) (a : Action (Ledger Memory) α) (x : Except Error α) : Prop :=
  ∀ n c, a.runIn (l.busy n c) = (x.mapError Stop.refused, l.busy n c)

theorem unaware_ofExcept (x : Except Error α) : Unaware l (ofExcept x) x := by
  intro n c
  cases x <;> rfl

/-- **A call is the answer of the memory.** -/
theorem runIn_ask (c : Call α) (l : Ledger Memory) :
    (ask c).runIn l = match l.stores.answer c with
      | .ok (v, m) => (.ok v, { l with stores := m })
      | .error cause => (.error (.refused cause), l) := by
  rw [ask, runIn_zoom]
  show (((Memory.call c).runIn l.stores).1,
    { l with stores := ((Memory.call c).runIn l.stores).2 }) = _
  rw [Memory.call, runIn_ofFun]
  cases l.stores.answer c <;> rfl

theorem unaware_ask {c : Call α} {v : α}
    (h : ∀ n, (l.stores.withPending n).answer c = .ok (v, l.stores.withPending n)) :
    Unaware l (ask c) (.ok v) := by
  intro n k
  have hanswer : (l.busy n k).stores.answer c = .ok (v, l.stores.withPending n) := h n
  rw [runIn_ask, hanswer]
  rfl

section Bind

variable {a : Action (Ledger Memory) α} {f : α → Action (Ledger Memory) β}

theorem Unaware.runIn_bind {v : α} (h : Unaware l a (.ok v)) (n : Nat) (c : Instant) :
    (a >>= f).runIn (l.busy n c) = (f v).runIn (l.busy n c) := by
  rw [Action.runIn_bind, h]
  rfl

theorem Unaware.bind {v : α} {y : Except Error β} (h : Unaware l a (.ok v))
    (hf : Unaware l (f v) y) : Unaware l (a >>= f) y :=
  fun n c => (h.runIn_bind n c).trans (hf n c)

theorem Unaware.stops {cause : Error} (h : Unaware l a (.error cause)) :
    Unaware l (a >>= f) (.error cause) := by
  intro n c
  rw [Action.runIn_bind, h]
  rfl

end Bind

/-- What reading a wallet by its number comes to. -/
def loaded (l : Ledger Memory) (id : Int) : Except Error Wallet :=
  match l.stores.wallets.wallet? id with
  | none => .error .walletNotFound
  | some w => .ok w

theorem loaded_eq_ok {id : Int} {w : Wallet} :
    l.loaded id = .ok w ↔ l.stores.wallets.wallet? id = some w := by
  unfold loaded
  cases l.stores.wallets.wallet? id <;> simp

theorem unaware_loadWallet (id : Int) : Unaware l (loadWallet id) (l.loaded id) := by
  refine (unaware_ask (v := l.stores.wallets.wallet? id) fun _ => rfl).bind ?_
  unfold loaded
  cases l.stores.wallets.wallet? id <;> exact fun _ _ => rfl

theorem unaware_earlierPosting (mv : Movement) :
    Unaware l (earlierPosting mv) (.ok (mv.ref.bind l.stores.wallets.byRef?)) := by
  unfold earlierPosting
  cases mv.ref with
  | none => exact fun _ _ => rfl
  | some ref => exact unaware_ask fun _ => rfl

/-! ## 3. Attempts -/

/-- **An attempt that fails before it writes, or waits while a conflict is pending.** It fails for
one of the causes that are foreseen. Without a conflict it succeeds, and the time at which it is
made makes no difference. -/
inductive Optimistic (same : α → α → Prop) (foreseen : Error → Prop) (l : Ledger Memory)
    (a : Action (Ledger Memory) (Option α)) : Prop
  | early (cause : Error) (fails : Unaware l a (.error cause)) (hcause : foreseen cause)
  | writes (tick : Instant → Instant) (result : Instant → α) (left : Instant → Ledger Memory)
      (late : ∀ n c, a.runIn (l.busy (n + 1) c) = (.ok none, l.busy n (tick c)))
      (settles : ∀ c, a.runIn (l.busy 0 c) = (.ok (some (result c)), left c))
      (alike : ∀ c c', same (result c) (result c') ∧ LeftAlike l (left c) (left c'))

section Attempts

variable {same : α → α → Prop} {a : Action (Ledger Memory) (Option α)} {exhausted : Error}

theorem Optimistic.of_unaware {foreseen : Error → Prop} {r : Action (Ledger Memory) β}
    {x : Except Error β} {f : β → Action (Ledger Memory) (Option α)} (hr : Unaware l r x)
    (hx : ∀ cause, x = .error cause → foreseen cause)
    (hf : ∀ v, x = .ok v → Optimistic same foreseen l (f v)) :
    Optimistic same foreseen l (r >>= f) := by
  cases x with
  | error cause => exact .early cause hr.stops (hx cause rfl)
  | ok v =>
    cases hf v rfl with
    | early cause fails hcause => exact .early cause (hr.bind fails) hcause
    | writes tick result left late settles alike =>
      exact .writes tick result left (fun n c => (hr.runIn_bind _ c).trans (late n c))
        (fun c => (hr.runIn_bind 0 c).trans (settles c)) alike

variable {tick : Instant → Instant} {result : Instant → α} {left : Instant → Ledger Memory}

/-- **With an attempt to spare** the last attempt finds no conflict pending. -/
theorem runIn_retry_of_lt
    (late : ∀ n c, a.runIn (l.busy (n + 1) c) = (.ok none, l.busy n (tick c)))
    (settles : ∀ c, a.runIn (l.busy 0 c) = (.ok (some (result c)), left c)) (attempts n : Nat)
    (c : Instant) (h : n < attempts) :
    ∃ c', (retry exhausted a attempts).runIn (l.busy n c) = (.ok (result c'), left c') := by
  -- On the attempts that are left. Each of them finds one conflict fewer, at a later time.
  induction attempts generalizing n c with
  | zero => exact absurd h (Nat.not_lt_zero n)
  | succ attempts ih =>
    unfold retry
    rw [runIn_bind]
    cases n with
    | zero =>
      rw [settles]
      exact ⟨c, rfl⟩
    | succ n =>
      rw [late]
      exact ih n (tick c) (Nat.lt_of_succ_lt_succ h)

/-- **Without one** each attempt uses up a conflict, and that is all. -/
theorem runIn_retry_of_le
    (late : ∀ n c, a.runIn (l.busy (n + 1) c) = (.ok none, l.busy n (tick c))) (attempts n : Nat)
    (c : Instant) (h : attempts ≤ n) :
    ∃ c', (retry exhausted a attempts).runIn (l.busy n c) =
      (.error (.refused exhausted), l.busy (n - attempts) c') := by
  induction attempts generalizing n c with
  | zero => exact ⟨c, rfl⟩
  | succ attempts ih =>
    cases n with
    | zero => exact absurd h (Nat.not_succ_le_zero attempts)
    | succ n =>
      unfold retry
      rw [runIn_bind, late, Nat.add_sub_add_right]
      exact ih n (tick c) (Nat.le_of_succ_le_succ h)

theorem Optimistic.invisible {foreseen : Except Error α → Prop}
    (h : Optimistic same (fun cause => foreseen (.error cause)) l a)
    (hexhausted : ¬foreseen (.error exhausted)) (attempts : Nat) :
    Invisible exhausted attempts same foreseen l (retry exhausted a attempts) := by
  cases h with
  | writes tick result left late settles alike =>
    have spared (n : Nat) (hn : n < attempts) :
        ∃ c, (retry exhausted a attempts).runIn (l.withPending n) = (.ok (result c), left c) :=
      runIn_retry_of_lt late settles attempts n l.clock hn
    constructor
    · intro n hn
      obtain ⟨c, hbusy⟩ := spared n hn
      obtain ⟨c', hcalm⟩ := spared 0 (Nat.zero_lt_of_lt hn)
      rw [hbusy, hcalm]
      exact alike c c'
    · intro n hn
      -- Where no attempt is made at all, the action gives up without conflicts as well.
      refine .inr ⟨runIn_retry_of_le late attempts n l.clock hn, fun hpos => ?_⟩
      obtain ⟨c, hcalm⟩ := spared 0 hpos
      exact ⟨result c, by rw [hcalm]⟩
  | early cause fails hcause =>
    have stops (n : Nat) (hpos : 0 < attempts) : (retry exhausted a attempts).runIn
        (l.withPending n) = (.error (.refused cause), l.withPending n) := by
      obtain ⟨k, rfl⟩ := Nat.exists_eq_succ_of_ne_zero (Nat.ne_of_gt hpos)
      exact fails.stops n l.clock
    constructor
    · intro n hn
      rw [stops n (Nat.zero_lt_of_lt hn), stops 0 (Nat.zero_lt_of_lt hn)]
      exact ⟨rfl, leftAlike_busy ..⟩
    · intro n _
      cases attempts with
      | zero => exact .inr ⟨⟨l.clock, rfl⟩, fun h => absurd h (Nat.lt_irrefl 0)⟩
      | succ k =>
        have hother : (.error cause : Except Error α) ≠ .error exhausted :=
          fun heq => hexhausted (heq ▸ hcause)
        exact .inl ⟨.error cause, hcause, hother, stops n (Nat.succ_pos k),
          stops 0 (Nat.succ_pos k)⟩

end Attempts

/-! ## 4. Reading before the attempts -/

/-- **An action that only reads until it repeats an attempt,** if it comes to that. What comes of it
before is `foreseen`, and so is the cause for which an attempt fails. -/
inductive Guarded (exhausted : Error) (attempts : Nat) (same : α → α → Prop)
    (foreseen : Except Error α → Prop) (l : Ledger Memory) (a : Action (Ledger Memory) α) : Prop
  | reads (x : Except Error α) (h : Unaware l a x) (hx : foreseen x)
  | repeats (attempt : Action (Ledger Memory) (Option α))
      (h : Optimistic same (fun cause => foreseen (.error cause)) l attempt)
      (reached : ∀ n c, a.runIn (l.busy n c) =
        (retry exhausted attempt attempts).runIn (l.busy n c))

section Guards

variable {exhausted : Error} {attempts : Nat} {same : α → α → Prop}
  {foreseen : Except Error α → Prop} {a : Action (Ledger Memory) α}

theorem Guarded.of_unaware {r : Action (Ledger Memory) β} {x : Except Error β}
    {f : β → Action (Ledger Memory) α} (hr : Unaware l r x)
    (hx : ∀ cause, x = .error cause → foreseen (.error cause))
    (hf : ∀ v, x = .ok v → Guarded exhausted attempts same foreseen l (f v)) :
    Guarded exhausted attempts same foreseen l (r >>= f) := by
  cases x with
  | error cause => exact .reads (.error cause) hr.stops (hx cause rfl)
  | ok v =>
    cases hf v rfl with
    | reads x h hx => exact .reads x (hr.bind h) hx
    | repeats attempt h reached =>
      exact .repeats attempt h fun n c => (hr.runIn_bind n c).trans (reached n c)

theorem Guarded.invisible (h : Guarded exhausted attempts same foreseen l a)
    (hsame : ∀ v, same v v) (hexhausted : ¬foreseen (.error exhausted)) :
    Invisible exhausted attempts same foreseen l a := by
  cases h with
  | reads x h hx =>
    have hother : x ≠ .error exhausted := fun heq => hexhausted (heq ▸ hx)
    refine ⟨fun n _ => ?_, fun n _ => .inl ⟨x, hx, hother, h n l.clock, h 0 l.clock⟩⟩
    rw [withPending, withPending, h, h]
    refine ⟨?_, leftAlike_busy ..⟩
    cases x with
    | error cause => rfl
    | ok v => exact hsame v
  | repeats attempt h reached =>
    have hruns (n : Nat) : a.runIn (l.withPending n) =
        (retry exhausted attempt attempts).runIn (l.withPending n) := reached n l.clock
    have hinvisible : Invisible exhausted attempts same foreseen l
        (retry exhausted attempt attempts) := h.invisible hexhausted attempts
    obtain ⟨fewer, enough⟩ := hinvisible
    constructor
    · intro n hn
      rw [hruns, hruns]
      exact fewer n hn
    · intro n hn
      rw [hruns, hruns]
      exact enough n hn

end Guards

end Ledger

/-! ## 5. One wallet -/

/-- **A change of a balance that is refused:** there is no such wallet, or the balance that it would
have is not in order. -/
inductive WalletTable.Refuses (table : WalletTable) (id : Int) (change : Amount) : Error → Prop
  | missing (h : table.wallet? id = none) : Refuses table id change .walletNotFound
  | funds (w : Wallet) (cause : Error) (hw : table.wallet? id = some w)
      (h : w.balanceAfter change = .error cause) : Refuses table id change cause

/-- A balance that is not in order does not become so by trying again. -/
theorem Wallet.isRetryable_of_balanceAfter {w : Wallet} {change : Amount} {cause : Error}
    (h : w.balanceAfter change = .error cause) : cause.isRetryable = false := by
  unfold balanceAfter at h
  split at h
  · cases h
    rfl
  · cases hsum : w.balance.add? change.value with
    | none =>
      rw [hsum] at h
      cases h
      rfl
    | some balance =>
      simp only [hsum] at h
      split at h <;> cases h
      rfl

theorem WalletTable.Refuses.isRetryable {table : WalletTable} {id : Int} {change : Amount}
    {cause : Error} (h : table.Refuses id change cause) : cause.isRetryable = false := by
  cases h with
  | missing => rfl
  | funds w _ _ h => exact Wallet.isRetryable_of_balanceAfter h

/-- Without conflicts pending, a balance that was just computed is written. -/
theorem WalletTable.compareAndSet_eq_of_calm {t : WalletTable} {w : Wallet} {id : Int}
    (hcalm : t.conflicts = 0) (hw : t.wallet? id = some w) (balance : Decimal) :
    t.compareAndSet ⟨id, w.version, balance⟩ =
      .ok (some (written (w.write balance) w), t.write (w.write balance)) := by
  obtain rfl := wallet?_id hw
  have hconflict : t.takeConflict? = none := by rw [takeConflict?, hcalm]
  have hcurrent : t.isCurrent (w.write balance) = .ok true := isCurrent_write hw balance
  have hwritten := wallet?_write_self hw balance
  change t.compareAndSet (w.write balance) = _
  rw [compareAndSet, hconflict]
  simp only [hcurrent, bind, Except.bind, if_true]
  exact congrArg (fun o => Except.ok (o, t.write (w.write balance))) hwritten

namespace Ledger

variable {l : Ledger Memory}

/-- A wallet that is not loaded is missing. -/
theorem refuses_of_loaded {id : Int} {cause : Error} (change : Amount)
    (h : l.loaded id = .error cause) : l.stores.wallets.Refuses id change cause := by
  unfold loaded at h
  split at h
  · next hmissing =>
    cases h
    exact .missing hmissing
  · cases h

/-- **A change of one balance** is written at once, if no conflict is pending. -/
theorem optimistic_tryMutate (id : Int) (change : Amount) :
    Optimistic Eq (l.stores.wallets.Refuses id change) l (tryMutate id change) := by
  unfold tryMutate
  refine .of_unaware (unaware_loadWallet id) (fun _ => refuses_of_loaded change) fun w hw => ?_
  refine .of_unaware (unaware_ofExcept _) (fun cause => .funds w cause (loaded_eq_ok.1 hw))
    fun balance _ => ?_
  have hset := WalletTable.compareAndSet_eq_of_calm (t := (l.stores.withPending 0).wallets) rfl
    (loaded_eq_ok.1 hw) balance
  refine .writes (fun c => c) (fun _ => WalletTable.written (w.write balance) w)
    (fun c => { l.busy 0 c with
      stores := l.stores.withWallets ((l.stores.withPending 0).wallets.write (w.write balance)) })
    (fun n c => ?_) (fun c => ?_) fun c c' => ⟨rfl, rfl, [], [], ?_, ?_⟩
  · rw [runIn_ask]
    rfl
  · have hanswer : (l.busy 0 c).stores.answer (.compareAndSet ⟨id, w.version, balance⟩) =
        .ok (some (WalletTable.written (w.write balance) w), (l.stores.withPending 0).withWallets
          ((l.stores.withPending 0).wallets.write (w.write balance))) :=
      congrArg (Memory.answering (l.stores.withPending 0).withWallets) hset
    rw [runIn_ask, hanswer]
    rfl
  · exact (List.append_nil _).symm
  · exact (List.append_nil _).symm

end Ledger

/-! ## 6. Two wallets and a posting -/

/-- **What a movement comes to before anything is written:** it is not in order, it was recorded
earlier, or its wallets do not allow it, as they are described or as they are. -/
inductive WalletTable.Foresees (table : WalletTable) (access : Access) (mv : Movement) :
    Except Error Receipt → Prop
  | unfit (cause : Error) (h : mv.check = .error cause) : Foresees table access mv (.error cause)
  | barred (cause : Error) (h : access.check mv.source mv.dest = .error cause) :
      Foresees table access mv (.error cause)
  | recorded (p : Posting) (h : mv.ref.bind table.byRef? = some p) :
      Foresees table access mv (mv.replay p)
  | kinds (source dest : Wallet) (cause : Error)
      (hsource : table.wallet? mv.source.id = some source)
      (hdest : table.wallet? mv.dest.id = some dest)
      (h : access.check source dest = .error cause) : Foresees table access mv (.error cause)
  | debit (cause : Error) (h : table.Refuses mv.source.id mv.debit cause) :
      Foresees table access mv (.error cause)
  | credit (cause : Error) (h : table.Refuses mv.dest.id mv.destAmount cause) :
      Foresees table access mv (.error cause)

section Causes

variable {access : Access} {mv : Movement} {cause : Error}

theorem Movement.isRetryable_of_check (h : mv.check = .error cause) :
    cause.isRetryable = false := by
  unfold check at h
  split_ifs at h <;> cases h <;> rfl

theorem Movement.isRetryable_of_replay {p : Posting} (h : mv.replay p = .error cause) :
    cause.isRetryable = false := by
  unfold replay at h
  split_ifs at h
  cases h
  rfl

theorem Access.isRetryable_of_check {source dest : Wallet}
    (h : access.check source dest = .error cause) : cause.isRetryable = false := by
  cases access with
  | custody => cases h
  | generic =>
    unfold check at h
    split_ifs at h
    cases h
    rfl

/-- **Giving up is not foreseen.** -/
theorem WalletTable.Foresees.isRetryable {table : WalletTable}
    (h : table.Foresees access mv (.error cause)) : cause.isRetryable = false := by
  generalize hx : (.error cause : Except Error Receipt) = x at h
  cases h with
  | recorded p h => exact Movement.isRetryable_of_replay hx.symm
  | unfit e h =>
    cases hx
    exact Movement.isRetryable_of_check h
  | barred e h | kinds _ _ e _ _ h =>
    cases hx
    exact Access.isRetryable_of_check h
  | debit e h | credit e h =>
    cases hx
    exact h.isRetryable

end Causes

namespace Memory

variable {m : Memory} {p : Posting}

/-- Postings that differ in their identifiers and times make the same of the rows. -/
theorem undated_withPosting (m : Memory) (source dest : Wallet) (a b : Decimal) {p p' : Posting}
    (h : p.undated = p'.undated) :
    (m.withPosting source dest a b p).undated = (m.withPosting source dest a b p').undated := by
  have htable (table : WalletTable) : (table.append p).undated = (table.append p').undated := by
    rw [← WalletTable.append_undated, ← WalletTable.append_undated, h]
  exact congrArg (fun table => { m.withWallets table with posted := m.posted + 1 }) (htable _)

end Memory

namespace Ledger

variable {l : Ledger Memory} {t : Terms} {access : Access} {mv : Movement}

theorem runIn_count (c : Category) (l : Ledger Memory) : (count t c).runIn l =
    (.ok (), { l with counters := if t.counting then advance c l.counters else l.counters }) := by
  rw [count, adjust, runIn_ofFun]
  split <;> rfl

/-- Reading the time and asking for what depends on it. -/
theorem runIn_now_ask {α β : Type} {c : Instant → Call β}
    {f : Instant → β → Action (Ledger Memory) α} {n : Nat} {k : Instant} {v : β} {m : Memory}
    (h : (l.stores.withPending n).answer (c (k + 1)) = .ok (v, m)) :
    (now >>= fun time => ask (c time) >>= f time).runIn (l.busy n k) =
      (f (k + 1) v).runIn { l.busy n (k + 1) with stores := m } := by
  have hanswer : (l.busy n (k + 1)).stores.answer (c (k + 1)) = .ok (v, m) := h
  rw [runIn_bind]
  show (ask (c (k + 1)) >>= f (k + 1)).runIn (l.busy n (k + 1)) = _
  rw [runIn_bind, runIn_ask, hanswer]

/-- **A posting** whose reference is free is made at once, if no conflict is pending. -/
theorem optimistic_tryPost (hfree : mv.ref.bind l.stores.wallets.byRef? = none) :
    Optimistic (fun r r' => r.undated = r'.undated)
      (fun cause => l.stores.wallets.Foresees access mv (.error cause)) l
      (tryPost t access mv) := by
  unfold tryPost
  refine .of_unaware (unaware_loadWallet _)
    (fun cause h => .debit cause (refuses_of_loaded _ h)) fun source hsource => ?_
  refine .of_unaware (unaware_loadWallet _)
    (fun cause h => .credit cause (refuses_of_loaded _ h)) fun dest hdest => ?_
  rw [loaded_eq_ok] at hsource hdest
  refine .of_unaware (unaware_ofExcept _)
    (fun cause => .kinds source dest cause hsource hdest) fun _ _ => ?_
  refine .of_unaware (unaware_ofExcept _)
    (fun cause h => .debit cause (.funds source cause hsource h)) fun a _ => ?_
  refine .of_unaware (unaware_ofExcept _)
    (fun cause h => .credit cause (.funds dest cause hdest h)) fun b _ => ?_
  refine .of_unaware (x := .ok l.stores.fresh) (fun _ _ => rfl) nofun fun ids _ => ?_
  have hsource : (l.stores.withPending 0).wallets.wallet? mv.source.id = some source := hsource
  have hdest : (l.stores.withPending 0).wallets.wallet? mv.dest.id = some dest := hdest
  let posting : Instant → Posting := fun c => mv.posting source dest a b ids.transfer (c + 1)
  have hanswer (c : Instant) : (l.stores.withPending 0).answer
      (.commitPosting (source.write a) (dest.write b) (posting c)) =
        .ok (.committed, (l.stores.withPending 0).withPosting source dest a b (posting c)) :=
    Memory.answer_commit_free (p := posting c) rfl hsource hdest hfree a b
  -- A late attempt has read the clock already, so the next one starts at a later time.
  refine .writes (· + 1) (fun c => (posting c).receipt)
    (fun c => { l.busy 0 (c + 1) with
      stores := (l.stores.withPending 0).withPosting source dest a b (posting c)
      counters := if t.counting then advance mv.category l.counters else l.counters })
    (fun n c => ?_) (fun c => ?_) fun c c' => ⟨rfl, ?_, [posting c], [posting c'], rfl, rfl⟩
  · rw [runIn_now_ask (v := .versionConflict) (m := l.stores.withPending n) rfl]
    rfl
  · rw [runIn_now_ask (hanswer c)]
    show (count t mv.category >>= fun _ => pure (some (posting c).receipt)).runIn _ = _
    rw [runIn_bind, runIn_count]
    rfl
  · have undated : (posting c).undated = (posting c').undated := rfl
    have hrows := Memory.undated_withPosting (l.stores.withPending 0) source dest a b undated
    exact congrArg (fun rows => { l with
      stores := rows
      clock := 0
      counters := if t.counting then advance mv.category l.counters else l.counters }) hrows

/-! ## 7. The two operations -/

/-- **Posting a movement** is answered from the log, or repeats an attempt to write. -/
theorem guarded_post : Guarded (.contention mv.source.id t.maxAttempts) t.maxAttempts
    (fun r r' => r.undated = r'.undated) (l.stores.wallets.Foresees access mv) l
    (post t access mv) := by
  unfold post
  refine .of_unaware (unaware_ofExcept _) (fun cause => .unfit cause) fun _ _ => ?_
  refine .of_unaware (unaware_ofExcept _) (fun cause => .barred cause) fun _ _ => ?_
  refine .of_unaware (unaware_earlierPosting mv) nofun fun found hfound => ?_
  cases found with
  | some earlier =>
    -- The reference is used, so nothing has to be written.
    exact .reads _ (unaware_ofExcept _) (.recorded earlier (Except.ok.inj hfound))
  | none => exact .repeats _ (optimistic_tryPost (Except.ok.inj hfound)) fun _ _ => rfl

/-- **Conflicts are not seen.** Posting a movement, and changing the balance of one wallet, end in
the same way with and without conflicts pending, as long as there are fewer of them than attempts;
what they leave behind is the same up to the identifiers and times of new postings. With more of
them there are two ways. Either they end before any write as they would without conflicts, refused
for a cause that can be told from the rows, or answered with the posting that has the movement's
reference. Or they give up for the one cause that says so, and have changed nothing but the clock
and the number of conflicts, of which each attempt used up one. -/
theorem retries_invisible (t : Terms) (access : Access) (mv : Movement) (id : Int)
    (change : Amount) (l : Ledger Memory) :
    Invisible (.contention mv.source.id t.maxAttempts) t.maxAttempts
        (fun r r' => r.undated = r'.undated) (l.stores.wallets.Foresees access mv) l
        (post t access mv) ∧
      Invisible (.contention id t.maxAttempts) t.maxAttempts Eq
        (FailsFor (l.stores.wallets.Refuses id change)) l (mutateBalance t id change) := by
  have hpost : ¬l.stores.wallets.Foresees access mv
      (.error (.contention mv.source.id t.maxAttempts)) := fun h => Bool.noConfusion h.isRetryable
  have hchange : ¬l.stores.wallets.Refuses id change (.contention id t.maxAttempts) :=
    fun h => Bool.noConfusion h.isRetryable
  constructor
  · exact guarded_post.invisible (fun _ => rfl) hpost
  · exact (optimistic_tryMutate id change).invisible hchange t.maxAttempts

end Ledger

end WalletLedger
