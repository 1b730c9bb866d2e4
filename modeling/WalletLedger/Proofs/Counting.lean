/-
The counters and the log.

A ledger that counts advances the counter of a category each time that one of its own attempts to
post is told that it was made. The log is told by the stores. So the two agree as long as the stores
say what they do: a call that fails must not have been made. Where that is so, the counters are at
every moment the number of records of each category (`Act.countsLog_runAll`), whatever was refused,
repeated, told to wait or taken back on the way.

`Ledger.Tallies` is what each step of a run does to both: some records are appended, and the
counters are advanced by just these. It carries single calls, because they append nothing, and
postings, because only a commit that is made is counted; so every service goes along it.

A reader finds the counters under names and not under categories. No two categories have the same
name, and a counter is there if and only if its category was posted.
-/
import WalletLedger.Proofs.Indexes
import WalletLedger.Proofs.Traversal

set_option autoImplicit false

namespace WalletLedger

open WalletLedger.Action

/-- **The name of a counter tells its category.** -/
theorem Category.counter_injective : Function.Injective Category.counter := by
  intro c d h
  cases c <;> cases d <;> first | rfl | exact absurd h (by decide)

/-! ## 1. Counters -/

namespace Ledger

/-- **The counters count something:** each category that occurs has one counter, and no other has
any. -/
structure Counts (counters : List (Category × ℕ)) (number : Category → ℕ) : Prop where
  value : ∀ c, (counters.lookup c).getD 0 = number c
  positive : ∀ e ∈ counters, 0 < e.2
  once : (counters.map Prod.fst).Nodup

variable {counters : List (Category × ℕ)} {number : Category → ℕ} {c d : Category}

theorem counts_nil : Counts [] fun _ => 0 := ⟨fun _ => rfl, fun _ h => (nomatch h), .nil⟩

theorem lookup_advance (c d : Category) (counters : List (Category × ℕ)) :
    ((advance c counters).lookup d).getD 0 =
      (counters.lookup d).getD 0 + if c = d then 1 else 0 := by
  induction counters with
  | nil =>
    by_cases h : c = d
    · simp [advance, h]
    · simp [advance, List.lookup_cons, h, beq_false_of_ne (Ne.symm h)]
  | cons e rest ih =>
    obtain ⟨k, n⟩ := e
    rw [advance]
    by_cases hk : k = c
    · subst hk
      rw [if_pos rfl, List.lookup_cons, List.lookup_cons]
      by_cases h : d = k
      · simp [h]
      · simp [beq_false_of_ne h, Ne.symm h]
    · rw [if_neg hk, List.lookup_cons, List.lookup_cons]
      by_cases h : d = k
      · subst h
        simp [Ne.symm hk]
      · rw [beq_false_of_ne h]
        exact ih

theorem keys_advance (c : Category) (counters : List (Category × ℕ)) :
    (advance c counters).map Prod.fst =
      if c ∈ counters.map Prod.fst then counters.map Prod.fst
      else counters.map Prod.fst ++ [c] := by
  induction counters with
  | nil => rfl
  | cons e rest ih =>
    obtain ⟨k, n⟩ := e
    rw [advance]
    by_cases hk : k = c
    · simp [hk]
    · rw [if_neg hk, List.map_cons, ih]
      by_cases hmem : c ∈ rest.map Prod.fst
      · rw [if_pos hmem, List.map_cons, if_pos (List.mem_cons_of_mem k hmem)]
      · have hnot : c ∉ k :: rest.map Prod.fst := by simp [Ne.symm hk, hmem]
        rw [if_neg hmem, List.map_cons, if_neg hnot, List.cons_append]

theorem positive_advance (h : ∀ e ∈ counters, 0 < e.2) : ∀ e ∈ advance c counters, 0 < e.2 := by
  induction counters with
  | nil => simp [advance]
  | cons e rest ih =>
    obtain ⟨k, n⟩ := e
    have hrest : ∀ e ∈ rest, 0 < e.2 := fun e he => h e (List.mem_cons_of_mem _ he)
    rw [advance]
    split_ifs
    · exact List.forall_mem_cons.2 ⟨Nat.succ_pos n, hrest⟩
    · exact List.forall_mem_cons.2 ⟨h (k, n) List.mem_cons_self, ih hrest⟩

/-- **One more of a category.** -/
theorem Counts.advance (h : Counts counters number) (c : Category) :
    Counts (Ledger.advance c counters) fun d => number d + if c = d then 1 else 0 := by
  refine ⟨fun d => ?_, positive_advance h.positive, ?_⟩
  · rw [lookup_advance, h.value]
  · rw [keys_advance]
    split_ifs with hmem
    · exact h.once
    · rw [List.nodup_append]
      refine ⟨h.once, List.nodup_singleton c, fun k hk k' hk' heq => hmem ?_⟩
      rw [← List.mem_singleton.1 hk', ← heq]
      exact hk

/-- **What has a counter** is what occurs. -/
theorem Counts.mem_iff (h : Counts counters number) {n : ℕ} :
    (c, n) ∈ counters ↔ number c = n ∧ 0 < n := by
  rw [← lookup_eq_some_iff_mem h.once, ← h.value c]
  constructor
  · intro hlookup
    rw [hlookup]
    exact ⟨rfl, h.positive _ ((lookup_eq_some_iff_mem h.once).1 hlookup)⟩
  · rintro ⟨hn, hpos⟩
    cases hlookup : counters.lookup c with
    | none =>
      rw [hlookup] at hn
      exact absurd hn hpos.ne
    | some m =>
      rw [hlookup] at hn
      exact congrArg some hn

/-- The counters after some records. -/
def tally (counters : List (Category × ℕ)) (ps : List Posting) : List (Category × ℕ) :=
  ps.foldl (fun counters p => advance p.category counters) counters

/-- **Counting records one by one** counts them all. -/
theorem Counts.tally (ps : List Posting) : ∀ {counters number}, Counts counters number →
    Counts (tally counters ps) fun c => number c + ps.countP (·.category = c) := by
  induction ps with
  | nil => exact fun h => h
  | cons p ps ih =>
    intro counters number h
    have hrest := ih (h.advance p.category)
    refine ⟨fun c => (hrest.value c).trans ?_, hrest.positive, hrest.once⟩
    simp only [List.countP_cons, decide_eq_true_eq]
    omega

/-! ## 2. What a step does to the log and to the counters -/

variable {α : Type} {t : Terms} {l l' l'' : Ledger (Faulty Memory)}

/-- The number of records of a category. -/
def recorded (l : Ledger (Faulty Memory)) (c : Category) : ℕ :=
  l.memory.wallets.log.countP (·.category = c)

/-- Nothing is posted and nothing is counted, and no faults are armed. -/
structure Unposted (l l' : Ledger (Faulty Memory)) : Prop where
  log : l'.memory.wallets.log = l.memory.wallets.log
  counters : l'.counters = l.counters
  modes : ∀ mode, l'.CanFail mode → l.CanFail mode

/-- **What is posted is counted,** if calls that fail are not made. -/
def Tallies (t : Terms) (l l' : Ledger (Faulty Memory)) : Prop :=
  l.Harmless → l'.Harmless ∧ ∃ ps, l'.memory.wallets.log = l.memory.wallets.log ++ ps ∧
    l'.counters = if t.counting then tally l.counters ps else l.counters

theorem Unposted.trans (h : l.Unposted l') (h' : l'.Unposted l'') : l.Unposted l'' :=
  ⟨h'.log.trans h.log, h'.counters.trans h.counters, fun mode hm => h.modes mode (h'.modes mode hm)⟩

theorem Unposted.tallies (h : l.Unposted l') : Tallies t l l' := by
  intro hl
  refine ⟨fun hafter => hl (h.modes _ hafter), [], ?_, ?_⟩
  · rw [h.log, List.append_nil]
  · rw [h.counters]
    split_ifs <;> rfl

theorem Tallies.trans (h : Tallies t l l') (h' : Tallies t l' l'') : Tallies t l l'' := by
  intro hl
  obtain ⟨hl', ps, hlog, hcounters⟩ := h hl
  obtain ⟨hl'', qs, hlog', hcounters'⟩ := h' hl'
  refine ⟨hl'', ps ++ qs, by rw [hlog', hlog, List.append_assoc], ?_⟩
  rw [hcounters', hcounters]
  split_ifs
  · exact List.foldl_append.symm
  · rfl

/-- The stores do not know of the counters. -/
theorem ends_ask_counters (c : Call α) :
    (ask c).Ends (fun _ l' => l'.counters = l.counters)
      (fun _ l' => l'.counters = l.counters) l := by
  unfold ask
  exact ends_zoom.2 (ends_iff.2 ⟨fun _ _ => rfl, fun _ _ => rfl⟩)

end Ledger

/-- A call that is no commit leaves the log as it is. -/
theorem Memory.log_of_answer {α : Type} {c : Call α} {m m' : Memory} {a : α}
    (h : m.answer c = .ok (a, m')) (hc : c.isCommit = false) :
    m'.wallets.log = m.wallets.log := by
  cases hreaches : c.reachesWallets with
  | false => rw [wallets_of_answer h hreaches]
  | true =>
    cases c with
    | createOwner =>
      obtain ⟨t, hcreate, rfl⟩ := answering_eq h
      obtain ⟨-, -, rfl⟩ := WalletTable.createOwner_eq hcreate
      rfl
    | setFlags =>
      obtain ⟨t, hset, rfl⟩ := answering_eq h
      obtain rfl := WalletTable.setFlags_eq hset
      rfl
    | createWallet =>
      obtain ⟨t, hcreate, rfl⟩ := answering_eq h
      obtain ⟨-, -, -, -, rfl⟩ := WalletTable.createWallet_eq hcreate
      rfl
    | compareAndSet =>
      obtain ⟨t, hset, rfl⟩ := answering_eq h
      rcases WalletTable.compareAndSet_inv hset with ⟨-, n, rfl⟩ | ⟨w, -, -, rfl⟩ <;> rfl
    | commitPosting => cases hc
    | _ => cases hreaches

namespace Ledger

variable {α : Type} {t : Terms} {l l' : Ledger (Faulty Memory)}

theorem carries_unposted : Carries Unposted where
  trans h h' := h.trans h'
  beside {l l'} hstores hcounters :=
    ⟨by rw [memory, hstores, memory], hcounters, fun mode hm => by rwa [CanFail, ← hstores]⟩
  call c hc := goes_of_ends fun l => by
    have hask : (ask c).Ends
        (fun _ l' => l'.memory.wallets.log = l.memory.wallets.log ∧
          ∀ mode, l'.CanFail mode → l.CanFail mode)
        (fun _ l' => l'.memory.wallets.log = l.memory.wallets.log ∧
          ∀ mode, l'.CanFail mode → l.CanFail mode) l :=
      ends_ask (fun _ _ h ha => ⟨Memory.log_of_answer ha hc, h.modes⟩)
        (fun _ _ h _ _ => ⟨by rw [h.memory], h.modes⟩) (fun _ _ h => ⟨by rw [h.memory], h.modes⟩)
        fun _ _ _ h _ ha => ⟨Memory.log_of_answer ha hc, h.modes⟩
    exact (hask.and (ends_ask_counters c)).mono (fun _ _ h => ⟨h.1.1, h.2, h.1.2⟩)
      fun _ _ h => ⟨h.1.1, h.2, h.1.2⟩

theorem carries_tallies : Carries (Tallies t) where
  trans h h' := h.trans h'
  beside hstores hcounters := (carries_unposted.beside hstores hcounters).tallies
  call c hc l := (carries_unposted.call c hc l).tallies

/-! ## 3. Posting -/

/-- A record that was appended is counted. -/
theorem tallies_count {p : Posting} (hmodes : ∀ mode, l'.CanFail mode → l.CanFail mode)
    (hlog : l'.memory.wallets.log = l.memory.wallets.log ++ [p])
    (hcounters : l'.counters = l.counters) :
    Tallies t l
      (if t.counting then { l' with counters := advance p.category l'.counters } else l') := by
  intro hl
  have hl' : l'.Harmless := fun hafter => hl (hmodes _ hafter)
  split_ifs with hcounting
  · exact ⟨hl', [p], hlog, congrArg (advance p.category) hcounters⟩
  · exact ⟨hl', [p], hlog, hcounters⟩

/-- **A commit appends its record, or it leaves the log alone.** Only a fault that strikes
afterwards conceals which. -/
theorem ends_commit (debit credit : BalanceWrite) (p : Posting) :
    (ask (.commitPosting debit credit p)).Ends
      (fun o l' => (∀ mode, l'.CanFail mode → l.CanFail mode) ∧
        (o = .committed ∧ l'.memory.wallets.log = l.memory.wallets.log ++ [p] ∨
          o ≠ .committed ∧ l'.memory.wallets.log = l.memory.wallets.log))
      (fun _ l' => l.Harmless → (∀ mode, l'.CanFail mode → l.CanFail mode) ∧
        l'.memory.wallets.log = l.memory.wallets.log) l := by
  refine ends_ask (fun o l' h ha => ⟨h.modes, ?_⟩) (fun o l' h _ ho => ⟨h.modes, ?_⟩)
    (fun _ l' h _ => ⟨h.modes, by rw [h.memory]⟩) fun _ _ _ _ hafter _ hl => absurd hafter hl
  · rcases WalletTable.commit_inv (Memory.commit_of_answer ha) with ⟨rfl, -, ht⟩ | ⟨hne, n, ht⟩
    · exact .inl ⟨rfl, by rw [ht]; rfl⟩
    · exact .inr ⟨hne, by rw [ht]⟩
  · cases ho
    exact .inr ⟨nofun, by rw [h.memory]⟩

/-- **Only a commit that is made is counted,** and it is counted in its own category. -/
theorem goes_commit (debit credit : BalanceWrite) {p : Posting} {mv : Movement}
    (hp : p.category = mv.category) :
    Goes (Tallies t) (do
      match ← ask (.commitPosting debit credit p) with
      | .committed =>
        count t mv.category
        return some p.receipt
      | .duplicate earlier => some <$> ofExcept (mv.replay earlier)
      | .versionConflict => return none : Action (Ledger (Faulty Memory)) (Option Receipt)) := by
  refine goes_of_ends fun l => (ends_bind _).2 ?_
  refine ((ends_commit debit credit p).and (ends_ask_counters _)).mono (fun o l' h => ?_)
    fun _ l' h hl => ?_
  · obtain ⟨⟨hmodes, hcommit⟩, hcounters⟩ := h
    cases o with
    | committed =>
      obtain ⟨-, hlog⟩ := hcommit.resolve_right fun hnot => hnot.1 rfl
      rw [← hp]
      exact tallies_count hmodes hlog hcounters
    | duplicate earlier =>
      obtain ⟨-, hlog⟩ := hcommit.resolve_left nofun
      have hkept : Tallies t l l' := (Unposted.mk hlog hcounters hmodes).tallies
      refine (ends_map _).2 ?_
      cases mv.replay earlier <;> exact hkept
    | versionConflict =>
      obtain ⟨-, hlog⟩ := hcommit.resolve_left nofun
      exact (Unposted.mk hlog hcounters hmodes).tallies
  · obtain ⟨hmodes, hlog⟩ := h.1 hl
    exact (Unposted.mk hlog h.2 hmodes).tallies hl

theorem goes_tryPost (access : Access) (mv : Movement) :
    Goes (Tallies t) (tryPost t access mv) := by
  have h := carries_tallies (t := t)
  unfold tryPost
  refine h.goes_bind (h.goes_loadWallet _) fun _ => h.goes_bind (h.goes_loadWallet _) fun _ =>
    h.goes_bind (h.goes_ofExcept _) fun _ => h.goes_bind (h.goes_ofExcept _) fun _ =>
    h.goes_bind (h.goes_ofExcept _) fun _ => h.goes_bind h.goes_fresh fun _ =>
    h.goes_bind h.goes_now fun _ => ?_
  exact goes_commit _ _ rfl

theorem goes_earlierPosting {R : Ledger (Faulty Memory) → Ledger (Faulty Memory) → Prop}
    (h : Carries R) (mv : Movement) : Goes R (earlierPosting mv) := by
  unfold earlierPosting
  split
  · exact h.goes_pure _
  · exact h.call _ rfl

theorem carriesPosts_tallies : CarriesPosts t (Tallies t) where
  toCarries := carries_tallies
  post access mv := by
    have h := carries_tallies (t := t)
    unfold post
    refine h.goes_bind (h.goes_ofExcept _) fun _ => h.goes_bind (h.goes_ofExcept _) fun _ =>
      h.goes_bind (goes_earlierPosting h mv) fun earlier => ?_
    cases earlier with
    | some p => exact h.goes_ofExcept _
    | none => exact h.goes_retry (goes_tryPost access mv) t.maxAttempts

end Ledger

/-! ## 4. Runs -/

/-- **An act that arms no fault which strikes after the call.** -/
def Act.IsHarmless : Act → Prop
  | .serve (.arm faults) => ∀ fault ∈ faults, fault.mode ≠ .after
  | _ => True

namespace Act

open Ledger

variable {t : Terms} {l : Ledger (Faulty Memory)}

/-- **What an act posts is counted.** -/
theorem tallies_after {a : Act} (ha : a.IsHarmless) : Tallies t l (a.after t l) := by
  by_cases hservice : a.IsService
  · exact carriesPosts_tallies.goes_act hservice l
  · intro hl
    cases a with
    | serve op =>
      cases op with
      | inject conflicts => exact Unposted.tallies ⟨rfl, rfl, fun _ hm => hm⟩ hl
      | arm faults =>
        have hnone : ((serve (.arm faults)).after t l).Harmless := by
          rintro ⟨fault, hfault, hmode⟩
          exact ha fault hfault hmode
        refine ⟨hnone, [], (List.append_nil _).symm, ?_⟩
        split_ifs <;> rfl
      | _ => exact absurd trivial hservice
    | _ => exact absurd trivial hservice

theorem tallies_runAll (acts : List Act) : ∀ {l}, (∀ a ∈ acts, a.IsHarmless) →
    Tallies t l (runAll t l acts) := by
  induction acts with
  | nil => exact fun _ => Unposted.tallies ⟨rfl, rfl, fun _ hm => hm⟩
  | cons a acts ih =>
    intro l hacts
    exact (tallies_after (hacts a List.mem_cons_self)).trans
      (ih fun b hb => hacts b (List.mem_cons_of_mem a hb))

end Act

namespace Ledger

variable {t : Terms} {l l₀ : Ledger (Faulty Memory)}

/-- **Opening a ledger** posts nothing, and the counters start anew. -/
theorem openWith_ok {s : Settings} {counting : Bool}
    (h : (openWith s counting).runIn l = (.ok t, l₀)) :
    t.counting = counting ∧ l₀.counters = [] ∧
      l₀.memory.wallets.log = l.memory.wallets.log ∧
      ∀ mode, l₀.CanFail mode → l.CanFail mode := by
  unfold openWith at h
  obtain ⟨_, l₁, h₁, h⟩ := runIn_bind_eq_ok.1 h
  obtain ⟨_, l₂, h₂, h⟩ := runIn_bind_eq_ok.1 h
  obtain ⟨ttlSecs, l₃, h₃, h⟩ := runIn_bind_eq_ok.1 h
  have hpre : l.Unposted l₃ := by
    have hregister := carries_unposted.goes_registerMissing s.currencies l
    have hbootstrap := carries_unposted.goes_bootstrapSystemOwner s.ledger.systemUuid l₁
    have httl := carries_unposted.goes_orAbort s.reservation.ttl? l₂
    rw [h₁] at hregister
    rw [h₂] at hbootstrap
    rw [h₃] at httl
    exact (hregister.trans hbootstrap).trans httl
  -- The services start anew, and one event is reported.
  cases h
  exact ⟨rfl, rfl, hpre.log, hpre.modes⟩

/-- The counters as they are read, under their names. -/
def snapshot (l : Ledger (Faulty Memory)) : List (String × ℕ) :=
  l.counters.map fun e => (e.1.counter, e.2)

/-- **The counters agree with the log.** The counter of each category is the number of its records;
a counter is there for each category that has records and for nothing else, once. -/
structure CountsLog (l : Ledger (Faulty Memory)) : Prop where
  counted : ∀ c, l.counted c = l.recorded c
  named : ∀ name n, (name, n) ∈ l.snapshot ↔ ∃ c, c.counter = name ∧ l.recorded c = n ∧ 0 < n
  once : (l.snapshot.map Prod.fst).Nodup

theorem Counts.countsLog (h : Counts l.counters l.recorded) : l.CountsLog := by
  refine ⟨h.value, fun name n => ?_, ?_⟩
  · simp only [snapshot, List.mem_map, Prod.exists, Prod.mk.injEq, h.mem_iff]
    constructor
    · rintro ⟨c, n, hc, rfl, rfl⟩
      exact ⟨c, rfl, hc⟩
    · rintro ⟨c, rfl, hc⟩
      exact ⟨c, n, hc, rfl, rfl⟩
  · have hkeys : l.snapshot.map Prod.fst = (l.counters.map Prod.fst).map Category.counter := by
      rw [snapshot, List.map_map, List.map_map]
      rfl
    rw [hkeys]
    exact h.once.map Category.counter_injective

end Ledger

open Ledger in
/-- **The counters agree with the log after every run.** A ledger is opened with counters, over
stores that hold no postings yet; then anything is done with it, in any order, with any outcome, as
long as calls that fail are not made. -/
theorem Act.countsLog_runAll {s : Settings} {t : Terms} {l l₀ : Ledger (Faulty Memory)}
    (hl : l.Harmless) (hlog : l.memory.wallets.log = [])
    (hopen : (openWith s true).runIn l = (.ok t, l₀)) {acts : List Act}
    (hacts : ∀ a ∈ acts, a.IsHarmless) : (runAll t l₀ acts).CountsLog := by
  obtain ⟨hcounting, hcounters₀, hlog₀, hmodes⟩ := openWith_ok hopen
  obtain ⟨-, ps, hps, hcounters⟩ := tallies_runAll (t := t) acts hacts fun hafter =>
    hl (hmodes _ hafter)
  rw [hlog₀, hlog, List.nil_append] at hps
  rw [hcounting, if_pos rfl, hcounters₀] at hcounters
  refine Counts.countsLog ?_
  have htally := counts_nil.tally ps
  rw [hcounters]
  refine ⟨fun c => (htally.value c).trans ?_, htally.positive, htally.once⟩
  rw [recorded, hps, Nat.zero_add]

namespace Small

/-- Settings under which the small ledger is opened again. -/
def settings : Settings where
  logLevel := "info"
  logDir := "logs"
  logFile := "ledger.log"
  useJson := false
  rotation := "daily"
  databaseUrl := none
  ledger := ⟨"system", 4⟩
  routing := ⟨4, .depthFirst⟩
  reservation := ⟨3600, 60, 10, 60⟩
  currencies := []
  policies := [⟨⟨true, units 1, units 5⟩, "GOLD", "net"⟩]

/-- The small ledger, opened again. -/
def reopened : Ledger (Faulty Memory) := ((Ledger.openWith settings true).runIn ledger).2

/-- A trade and its repetition; one that has to wait; one that fails, and one that is refused; and a
request for a payout. -/
def mixed : List Act := [
  .serve (.transfer (transfer "ann" "system" 10 (some "first"))),
  .serve (.transfer (transfer "ann" "system" 10 (some "first"))),
  .serve (.inject 1),
  .serve (.transfer (transfer "ann" "system" 5 none)),
  .serve (.arm [⟨"commit_posting", .before, 0, 1⟩]),
  .serve (.transfer (transfer "ann" "system" 5 none)),
  .serve (.transfer (transfer "ann" "system" 100 none)),
  .serve (.request (request 20))]

/-- Two trades and one request are counted. -/
example : (Act.runAll terms reopened mixed).snapshot =
    [("trade_event", 2), ("withdraw_request_event", 1)] := by
  decide +kernel

end Small

open WalletLedger.Small in
theorem Act.countsLog_runAll_small :
    ledger.Harmless ∧ ledger.memory.wallets.log = [] ∧
      (Ledger.openWith settings true).runIn ledger = (.ok terms, reopened) ∧
      (∀ a ∈ mixed, a.IsHarmless) ∧ (runAll terms reopened mixed).CountsLog := by
  have hl : ledger.Harmless := by
    have harmed : ledger.stores.armed = [] := by decide +kernel
    exact Ledger.sure_of_unarmed harmed _
  have hlog : ledger.memory.wallets.log = [] := by decide +kernel
  have hopen : (Ledger.openWith settings true).runIn ledger = (.ok terms, reopened) := rfl
  have hacts : ∀ a ∈ mixed, a.IsHarmless := by simp [mixed, IsHarmless]
  exact ⟨hl, hlog, hopen, hacts, countsLog_runAll hl hlog hopen hacts⟩

end WalletLedger
