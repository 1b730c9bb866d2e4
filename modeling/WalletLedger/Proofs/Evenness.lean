/-
Even records.

A record within one currency is even if as much arrives as leaves. The services put their movements
together from one amount (`Movement.ofAmount`), so whatever they record is even. The engine itself
takes a movement with two amounts and compares neither with the other, so what it records for a
caller is as even as the caller's command, and no more.

`Ledger.Adds` says which records a step appends. Every act adds records of one kind
(`Act.adds_after`), the log only grows, and so the log of a run is even just if no uneven command
was recorded in it (`Act.log_even_iff`). A command is recorded only if the rows take it, that is, if
a posting of it can be made between the wallets it names, and unless a call fails or others write in
between, that is enough (`Act.takes_of_recorded`, `Act.recorded_of_takes`).
-/
import WalletLedger.Proofs.Acts
import WalletLedger.Proofs.Sure

set_option autoImplicit false

namespace WalletLedger

open WalletLedger.Action

/-! ## 1. Records that a step adds -/

/-- **Within one currency as much arrives as leaves.** -/
def Posting.IsEven (p : Posting) : Prop :=
  p.source.amount.currency = p.dest.amount.currency →
    p.source.amount.value.toRat = p.dest.amount.value.toRat

/-- The same of a command. -/
def Movement.IsEven (mv : Movement) : Prop :=
  mv.sourceAmount.currency = mv.destAmount.currency →
    mv.sourceAmount.value.toRat = mv.destAmount.value.toRat

/-- A record has the amounts of its command. -/
def Movement.Amounts (mv : Movement) (p : Posting) : Prop :=
  p.source.amount = mv.sourceAmount ∧ p.dest.amount = mv.destAmount

theorem Movement.Amounts.isEven_iff {mv : Movement} {p : Posting} (h : mv.Amounts p) :
    p.IsEven ↔ mv.IsEven := by
  rw [Posting.IsEven, Movement.IsEven, h.1, h.2]

/-- A posting with one amount, which leaves and arrives. -/
def Posting.HasOneAmount (p : Posting) : Prop := p.source.amount = p.dest.amount

theorem Posting.HasOneAmount.isEven {p : Posting} (h : p.HasOneAmount) : p.IsEven :=
  fun _ => congrArg (fun a => a.value.toRat) h

/-- A service that posts records one posting, which has one amount. -/
theorem Change.records {m m' : Memory} {e : Effect} (h : Change m e m') (he : e.IsPosting)
    (hservice : ∀ access p, e ≠ .movement access p) :
    ∃ p, m'.wallets.log = m.wallets.log ++ [p] ∧ p.HasOneAmount := by
  cases h with
  | transfer hposts heven =>
    obtain ⟨hsource, hdest⟩ := hposts.amounts
    exact ⟨_, hposts.log, hsource.trans (heven.symm.trans hdest.symm)⟩
  | movement => exact absurd rfl (hservice _ _)
  | _ => exact he.elim

namespace Ledger

variable {α : Type} {t : Terms} {P : Posting → Prop} {l l' l'' : Ledger (Faulty Memory)}

/-- **The log grows,** and only by records of one kind. -/
def Adds (P : Posting → Prop) (l l' : Ledger (Faulty Memory)) : Prop :=
  ∃ ps, l'.memory.wallets.log = l.memory.wallets.log ++ ps ∧ ∀ p ∈ ps, P p

theorem Adds.of_log (h : l'.memory.wallets.log = l.memory.wallets.log) : Adds P l l' :=
  ⟨[], by rw [h, List.append_nil], fun _ hp => absurd hp List.not_mem_nil⟩

theorem Adds.trans (h : Adds P l l') (h' : Adds P l' l'') : Adds P l l'' := by
  obtain ⟨ps, hps, hP⟩ := h
  obtain ⟨qs, hqs, hP'⟩ := h'
  refine ⟨ps ++ qs, by rw [hqs, hps, List.append_assoc], fun p hp => ?_⟩
  exact (List.mem_append.1 hp).elim (hP p) (hP' p)

instance : IsTrans (Ledger (Faulty Memory)) (Adds P) := ⟨fun _ _ _ h h' => h.trans h'⟩

instance : Std.Refl (Adds P) := ⟨fun _ => .of_log rfl⟩

theorem Adds.mem (h : Adds P l l') {p : Posting} (hp : p ∈ l.memory.wallets.log) :
    p ∈ l'.memory.wallets.log := by
  obtain ⟨ps, hps, -⟩ := h
  exact hps ▸ List.mem_append_left ps hp

theorem Adds.mono {P' : Posting → Prop} (h : Adds P l l') (hP : ∀ p, P p → P' p) :
    Adds P' l l' := by
  obtain ⟨ps, hps, hall⟩ := h
  exact ⟨ps, hps, fun p hp => hP p (hall p hp)⟩

/-- All records are of one kind just if the old ones and the new ones are. -/
theorem Adds.forall (h : Adds P l l') (hl : ∀ p ∈ l.memory.wallets.log, P p) :
    ∀ p ∈ l'.memory.wallets.log, P p := by
  obtain ⟨ps, hps, hall⟩ := h
  intro p hp
  rw [hps] at hp
  exact (List.mem_append.1 hp).elim (hl p) (hall p)

/-- **Writes of the services** add records of one amount each. -/
theorem Evolves.adds {f : Effect → Prop} (h : l.Evolves f l')
    (hf : ∀ e, f e → ∀ access p, e ≠ .movement access p) : Adds Posting.HasOneAmount l l' := by
  refine h.preserves (I := fun m => ∃ ps, m.wallets.log = l.memory.wallets.log ++ ps ∧
    ∀ p ∈ ps, p.HasOneAmount) (fun m e m' he hc hm => ?_) (refl_of (Adds _) l)
  obtain ⟨ps, hps, hall⟩ := hm
  by_cases hposting : e.IsPosting
  · obtain ⟨p, hlog, hp⟩ := hc.records hposting (hf e he)
    refine ⟨ps ++ [p], by rw [hlog, hps, List.append_assoc], fun q hq => ?_⟩
    rcases List.mem_append.1 hq with hq | hq
    · exact hall q hq
    · exact List.mem_singleton.1 hq ▸ hp
  · exact ⟨ps, (hc.log hposting).1.trans hps, hall⟩

theorem Posted.adds {access : Access} {mv : Movement} {p : Posting}
    (h : l.Posted access mv p l') : Adds mv.Amounts l l' := by
  obtain ⟨table, hposts, hm⟩ := h.made
  refine ⟨[p], ?_, fun q hq => List.mem_singleton.1 hq ▸ hposts.amounts⟩
  rw [hm]
  exact hposts.log

/-- **The engine records what it is told.** -/
theorem adds_post (access : Access) (mv : Movement) :
    Within (Adds mv.Amounts) (post t access mv) (fun _ _ => True) l :=
  within_post_of (fun _ _ h => .of_log h.quiet.log_of_quiet.1) fun _ _ _ h => h.adds

/-- A call that leaves the log alone. -/
theorem adds_of_aside {c : Call α}
    (h : ∀ a m, l.memory.answer c = .ok (a, m) → m.wallets.log = l.memory.wallets.log) :
    Within (Adds P) (ask c) (fun _ _ => True) l := by
  have hstill : ∀ l', l.Still l' → Adds P l l' := fun _ hl => .of_log (by rw [hl.memory])
  exact ends_ask (fun a _ _ ha => ⟨.of_log (h a _ ha), trivial⟩)
    (fun _ l' hl _ _ => ⟨hstill l' hl, trivial⟩) (fun _ l' hl => hstill l' hl)
    fun _ a _ _ _ ha => .of_log (h a _ ha)

/-- Opening a wallet records nothing. -/
theorem adds_createWallet (owner : Owner) (initial : Amount) (kind : WalletKind) :
    Within (Adds P) (createWallet owner initial kind) (fun _ _ => True) l := by
  refine adds_of_aside fun w m h => ?_
  obtain ⟨table, hcreate, rfl⟩ := Memory.answering_eq h
  obtain ⟨-, -, -, -, rfl⟩ := WalletTable.createWallet_eq hcreate
  rfl

/-- A request moves one amount, forth or forth and back. -/
theorem bearsRequests_adds : BearsRequests t (Adds Posting.HasOneAmount) where
  quiet _ _ h := .of_log h.log_of_quiet.1
  post _ access _ _ amount _ _ _ := (adds_post access _).weaken fun _ h =>
    h.mono fun _ hp => hp.1.trans hp.2.symm
  row _ _ _ := adds_of_aside fun w m h => by
    obtain ⟨table, -, rfl⟩ := Memory.answering_eq h
    rfl

end Ledger

/-! ## 2. Commands that the rows take -/

namespace Ledger

variable {t : Terms} {l l₁ l' : Ledger (Faulty Memory)} {access : Access} {mv : Movement}

/-- A command that may not touch the wallets it describes comes to nothing. -/
theorem ends_post_allowed :
    (post t access mv).Ends (fun _ _ => access.check mv.source mv.dest = .ok ())
      (fun _ l' => l.Still l' ∨ access.check mv.source mv.dest = .ok ()) l := by
  unfold post
  refine (Still.refl l).next still_ofExcept (fun _ _ => .inl) fun _ l₁ h₁ _ => ?_
  refine h₁.next still_ofExcept (fun _ _ => .inl) fun _ l₂ _ hallowed => ?_
  exact ends_iff.2 ⟨fun _ _ => hallowed, fun _ _ => .inr hallowed⟩

/-- What is posted while others are told to wait could have been posted before. -/
theorem takes_of_posted {p : Posting} (hallowed : access.check mv.source mv.dest = .ok ())
    (hwaits : l.Waits l₁) (hposted : l₁.Posted access mv p l') :
    l.memory.wallets.Takes access mv := by
  obtain ⟨n, hn⟩ := hwaits.memory
  obtain ⟨table, hposts, -⟩ := hposted.made
  rw [hn] at hposts
  cases hposts with
  | made source dest sourceAfter destAfter id createdAt checked hsource hdest allowed debit credit
      unused =>
    exact ⟨hallowed, _, _, .made source dest sourceAfter destAfter id createdAt checked hsource
      hdest allowed debit credit unused⟩

/-- **Nothing but the rows decides** whether a command is recorded: no call fails, nobody is told to
wait, and it is tried at all. -/
structure Unhindered (t : Terms) (l : Ledger (Faulty Memory)) : Prop where
  sure : l.Sure
  calm : l.memory.wallets.conflicts = 0
  tried : 0 < t.maxAttempts

end Ledger

/-! ## 3. Records that an act adds -/

/-- No service gives the engine a movement that it did not put together itself. -/
theorem Operation.May.ne_movement {policies : WithdrawalPolicies} {op : Operation} {e : Effect}
    (h : op.May policies e) (access : Access) (p : Posting) : e ≠ .movement access p := by
  have moves : ∀ {a : Access} {refs : Option String → Prop}, e.Moves a refs →
      e ≠ .movement access p := by
    rintro _ _ hmoves rfl
    cases hmoves with | quiet e h => cases h
  cases op with
  | createWallet =>
    obtain ⟨w, rfl, -⟩ := h
    nofun
  | mutateBalance => rcases h with rfl | rfl <;> nofun
  | transfer | deposit | depositManually => exact moves h
  | advance | recover => exact h.elim (fun he => he ▸ nofun) moves
  | request c =>
    rcases h with h | ⟨w, policy, rfl, -⟩
    · exact moves h
    · nofun
  | decide => exact h.elim (fun he => he ▸ nofun) moves
  | withdrawManually c =>
    rcases h with h | ⟨w, rfl, -⟩
    · exact moves h
    · nofun
  | quote | setPolicy | arm | elapse => exact h.elim
  | createOwner | setPermissions | registerCurrency | setActive | addTransitive
  | deleteTransitive | addRate | updateRate | deleteRate | forbid | allow | reserve | cancel
  | sweep | process | inject =>
    have he : e = _ := h
    rw [he]
    nofun

namespace Operation

open Ledger

/-- **A service adds records of one amount each.** -/
theorem adds_after {t : Terms} {l : Ledger (Faulty Memory)} (op : Operation) :
    Adds Posting.HasOneAmount l (op.after t l) := by
  by_cases hordinary : op.IsOrdinary
  · by_cases hrequest : ∃ c, op = .request c
    · obtain ⟨c, rfl⟩ := hrequest
      refine runIn_discard (I := Adds _ l) ?_
      exact Ends.mono (bearsRequests_adds.request c) (fun _ _ h => h.1) fun _ _ h => h
    · have hrun := (within_run (t := t) (l := l) op
        (fun c hc => absurd ⟨c, hc⟩ hrequest) hordinary).moves
      exact hrun.adds fun e he => he.ne_movement
  · exact .of_log (by rw [memory_after op hordinary])

end Operation

namespace Act

open Ledger

/-- The records of an act: those of a command have its amounts, all others have one amount. -/
def Records : Act → Posting → Prop
  | .post _ mv => mv.Amounts
  | _ => Posting.HasOneAmount

variable {t : Terms} {l : Ledger (Faulty Memory)}

/-- **What an act adds to the log.** -/
theorem adds_after (a : Act) : Adds a.Records l (a.after t l) := by
  have hmoves : ∀ {α : Type} {service : Action (Ledger (Faulty Memory)) α} {P : Posting → Prop},
      Within (Adds P) service (fun _ _ => True) l →
        Adds P l ((discard service : Action (Ledger (Faulty Memory)) Unit).runIn l).2 := fun h =>
    Operation.runIn_discard (Ends.mono h (fun _ _ hv => hv.1) fun _ _ hs => hs)
  cases a with
  | serve op => exact op.adds_after
  | post access mv => exact hmoves (adds_post access mv)
  | openWallet owner initial kind => exact hmoves (adds_createWallet owner initial kind)
  | takeWallet owner currency kind =>
    exact hmoves (within_findOrCreateWallet_of (fun _ _ h => .of_log (by rw [h.memory]))
      fun _ => adds_createWallet _ _ _)
  | resume r =>
    have hpermits : PermitsSettling fun e =>
        e = .reservation ∨ e.Moves .generic Operation.IsLegRef :=
      Operation.permitsSettling (.inl rfl) fun _ => .inr
    refine hmoves ((within_resume hpermits r).weaken fun _ h => h.adds fun e he access p => ?_)
    rintro rfl
    rcases he with he | he
    · cases he
    · cases he with | quiet e h => cases h

/-- A command that is even or leaves no record keeps the log even; so does everything else. -/
theorem even_after {a : Act} (hl : ∀ p ∈ l.memory.wallets.log, p.IsEven)
    (ha : ∀ access mv, a = .post access mv → ¬mv.IsEven →
      (a.after t l).memory.wallets.log = l.memory.wallets.log) :
    ∀ p ∈ (a.after t l).memory.wallets.log, p.IsEven := by
  have hadds := adds_after (t := t) (l := l) a
  cases a with
  | post access mv =>
    by_cases hmv : mv.IsEven
    · exact (hadds.mono fun p hp => hp.isEven_iff.2 hmv).forall hl
    · rw [ha access mv rfl hmv]
      exact hl
  | _ => exact (hadds.mono fun p hp => hp.isEven).forall hl

theorem adds_runAll (acts : List Act) : Adds (fun _ => True) l (runAll t l acts) := by
  induction acts generalizing l with
  | nil => exact refl_of _ l
  | cons a acts ih => exact ((adds_after a).mono fun _ _ => trivial).trans ih

/-- **Only what the rows take is recorded,** whatever fails. -/
theorem takes_of_recorded {access : Access} {mv : Movement}
    (h : ((post access mv).after t l).memory.wallets.log ≠ l.memory.wallets.log) :
    l.memory.wallets.Takes access mv := by
  refine Or.resolve_left (Operation.runIn_discard (I := fun l' => l'.memory.wallets.log =
    l.memory.wallets.log ∨ l.memory.wallets.Takes access mv) ?_) h
  have unposted : ∀ l', l.Waits l' → l'.memory.wallets.log = l.memory.wallets.log :=
    fun _ hwaits => hwaits.quiet.log_of_quiet.1
  refine (ends_post.and ends_post_allowed).mono (fun _ l' hdone => ?_) fun _ l' hdone => ?_
  · cases hdone.1 with
    | replayed _ _ _ _ waits => exact .inl (unposted l' waits)
    | made p l₁ _ waits posted => exact .inr (takes_of_posted hdone.2 waits posted)
  · cases hdone.1 with
    | refused _ waits => exact .inl (unposted l' waits)
    | struck p l₁ _ _ waits posted =>
      rcases hdone.2 with hstill | hallowed
      · exact .inl (unposted l' hstill.waits)
      · exact .inr (takes_of_posted hallowed waits posted)

/-- **If nothing hinders it, what the rows take is recorded,** be it even or not. -/
theorem recorded_of_takes (hl : l.Unhindered t) {access : Access} {mv : Movement}
    (hmv : l.memory.wallets.Takes access mv) :
    ((post access mv).after t l).memory.wallets.log ≠ l.memory.wallets.log := by
  refine Operation.runIn_discard (I := fun l' => l'.memory.wallets.log ≠
    l.memory.wallets.log) ?_
  refine (((succeeds_post_taken hmv hl.calm hl.tried).ends hl.sure).and ends_post).mono
    (fun _ l' hdone => ?_) fun _ _ hdone => hdone.1.elim
  cases hdone.2 with
  | replayed _ _ earlier => exact nomatch hmv.unused.symm.trans earlier
  | made p l₁ _ waits posted =>
    obtain ⟨table, hposts, hm⟩ := posted.made
    have hlog : l'.memory.wallets.log = l.memory.wallets.log ++ [p] := by
      rw [hm, ← waits.quiet.log_of_quiet.1]
      exact hposts.log
    rw [hlog]
    simp

/-- **When all records are even.** In every run of every ledger, whatever the acts are and however
they end: each record within one currency has equal amounts just if this held at the start and no
command with two different amounts in one currency was recorded. What is recorded is up to the
commands and the rows that they find. Any command that is recorded is one that the rows take, and if
nothing hinders it, it is recorded just if they take it. -/
theorem log_even_iff (acts : List Act) :
    ((∀ p ∈ (runAll t l acts).memory.wallets.log, p.IsEven) ↔
      (∀ p ∈ l.memory.wallets.log, p.IsEven) ∧
      ∀ earlier access mv later, acts = earlier ++ .post access mv :: later → ¬mv.IsEven →
        ((post access mv).after t (runAll t l earlier)).memory.wallets.log =
          (runAll t l earlier).memory.wallets.log) ∧
    ∀ earlier access mv later, acts = earlier ++ .post access mv :: later →
      (((post access mv).after t (runAll t l earlier)).memory.wallets.log ≠
          (runAll t l earlier).memory.wallets.log →
        (runAll t l earlier).memory.wallets.Takes access mv) ∧
      ((runAll t l earlier).Unhindered t →
        (runAll t l earlier).memory.wallets.Takes access mv →
          ((post access mv).after t (runAll t l earlier)).memory.wallets.log ≠
            (runAll t l earlier).memory.wallets.log) := by
  refine ⟨?_, fun _ _ _ _ _ => ⟨takes_of_recorded, fun h => recorded_of_takes h⟩⟩
  constructor
  · intro h
    refine ⟨fun p hp => h p ((adds_runAll acts).mem hp), ?_⟩
    rintro earlier access mv later rfl hmv
    obtain ⟨ps, hps, hall⟩ := adds_after (t := t) (l := runAll t l earlier) (.post access mv)
    cases ps with
    | nil => rw [hps, List.append_nil]
    | cons p ps =>
      -- The first record of the command is in the log for good, and it is uneven.
      have hmem : p ∈ ((post access mv).after t (runAll t l earlier)).memory.wallets.log :=
        hps ▸ List.mem_append_right _ List.mem_cons_self
      have hrun : runAll t l (earlier ++ .post access mv :: later) =
          runAll t ((post access mv).after t (runAll t l earlier)) later := by
        rw [runAll, List.foldl_append]
        rfl
      have heven := h p (hrun ▸ (adds_runAll later).mem hmem)
      exact absurd ((hall p List.mem_cons_self).isEven_iff.1 heven) hmv
  · rintro ⟨hl, hacts⟩
    induction acts generalizing l with
    | nil => exact hl
    | cons a acts ih =>
      refine ih (even_after hl fun access mv ha hmv => ?_)
        fun earlier access mv later hlater hmv => ?_
      · subst ha
        exact hacts [] access mv acts rfl hmv
      · exact hacts (a :: earlier) access mv later (by rw [hlater]; rfl) hmv

end Act

namespace Small

/-- Ten of gold leave the owner's wallet, and twenty reach the system's. -/
def unevenMovement : Movement where
  source := ⟨3, 2, "ann", "GOLD", .main, units 50, 0⟩
  dest := ⟨1, 1, "system", "GOLD", .main, units 1000, 0⟩
  sourceAmount := ⟨"GOLD", units 10⟩
  destAmount := ⟨"GOLD", units 20⟩
  description := none
  ref := none
  category := .trade

end Small

open WalletLedger.Small in
/-- The rows take this command and nothing hinders it, so it is recorded for what it is. -/
theorem Act.log_even_iff_small :
    ledger.Unhindered terms ∧ ledger.memory.wallets.Takes .generic unevenMovement ∧
      ¬unevenMovement.IsEven ∧
      ¬∀ p ∈ (runAll terms ledger [.post .generic unevenMovement]).memory.wallets.log,
        p.IsEven := by
  have hunhindered : ledger.Unhindered terms :=
    ⟨Ledger.sure_of_unarmed rfl, by decide +kernel, by decide⟩
  have haffords : ledger.memory.Affords .generic unevenMovement :=
    { checked := by decide +kernel
      allowed := rfl
      debit := ⟨units 40, by decide +kernel⟩
      credit := ⟨units 1020, by decide +kernel⟩
      source := by decide +kernel
      dest := by decide +kernel
      unused := rfl
      unhurried := by decide +kernel }
  have huneven : ¬unevenMovement.IsEven := by
    intro heven
    have hvalues : (units 10).toRat = (units 20).toRat := heven rfl
    exact absurd ((Decimal.sameValue_iff _ _).2 hvalues) (by decide +kernel)
  have hstart : runAll terms ledger [] = ledger := List.foldl_nil
  obtain ⟨heven, hrecorded⟩ :=
    log_even_iff (t := terms) (l := ledger) [.post .generic unevenMovement]
  refine ⟨hunhindered, haffords.takes, huneven, fun hall => ?_⟩
  have hlog := (heven.1 hall).2 [] .generic unevenMovement [] rfl huneven
  have htaken := (hrecorded [] .generic unevenMovement [] rfl).2
  -- By itself the empty run would be evaluated, from the first wallet on.
  rw [hstart] at hlog htaken
  exact htaken hunhindered haffords.takes hlog

open WalletLedger.Small in
/-- **Ten of gold come from nowhere.** -/
theorem Act.uneven_record :
    ((Act.runAll terms ledger [.post .generic unevenMovement]).memory.wallets.log.map fun p =>
      (p.source.amount, p.dest.amount)) = [(⟨"GOLD", units 10⟩, ⟨"GOLD", units 20⟩)] ∧
    ((Act.runAll terms ledger [.post .generic unevenMovement]).memory.wallets.wallets.map fun w =>
      (w.currency, w.balance)) =
        [("GOLD", units 1020), ("SILVER", units 900), ("GOLD", units 40)] ∧
    ¬∀ p ∈ (Act.runAll terms ledger [.post .generic unevenMovement]).memory.wallets.log,
      p.IsEven := by
  have hlog : ((Act.runAll terms ledger [.post .generic unevenMovement]).memory.wallets.log.map
      fun p => (p.source.amount, p.dest.amount)) =
      [(⟨"GOLD", units 10⟩, ⟨"GOLD", units 20⟩)] := by decide +kernel
  refine ⟨hlog, by decide +kernel, fun h => ?_⟩
  obtain ⟨p, hp, hamounts⟩ := List.map_eq_singleton_iff.1 hlog
  obtain ⟨hsource, hdest⟩ := Prod.mk.inj hamounts
  have heven := h p (hp ▸ List.mem_singleton_self p)
  rw [Posting.IsEven, hsource, hdest] at heven
  exact absurd ((Decimal.sameValue_iff _ _).2 (heven rfl)) (by decide +kernel)

end WalletLedger
