/-
Calls to stores that may fail.

`Fault.consult` decides how a call fails, if it does, and `Faulty.call` then makes the call or does
not make it. A service sees only four endings, whatever the pattern of the faults is, and
`ends_ask` is about these four: the call was answered; it was not made and answered that there is
nothing; it was not made, or was refused, and stopped; it was made and stopped all the same. The
third mode of faults is the only one that leaves a write behind a stop, and the second the only one
that gives a wrong answer, so a proof that must exclude one of them has a premise to do so.

Reading is summed up once more (`within_read`), because most calls read, and so are the sequences of
steps that only read (`Still.next`), because most services begin with one.
-/
import WalletLedger.Proofs.Changes

set_option autoImplicit false

namespace WalletLedger

open WalletLedger.Action

/-! ## 1. Faults -/

/-- Consulting the faults uses them up and arms no others. -/
theorem Fault.mem_of_mem_consult {method : String} {armed : List Fault} {fault : Fault}
    (h : fault ∈ (Fault.consult method armed).2) : ∃ f ∈ armed, f.mode = fault.mode := by
  induction armed with
  | nil => cases h
  | cons f rest ih =>
    unfold consult at h
    split_ifs at h
    · rcases List.mem_cons.1 h with rfl | hmem
      · exact ⟨f, List.mem_cons_self, rfl⟩
      · exact ⟨fault, List.mem_cons_of_mem f hmem, rfl⟩
    · rcases List.mem_cons.1 h with rfl | hmem
      · exact ⟨f, List.mem_cons_self, rfl⟩
      · exact ⟨fault, List.mem_cons_of_mem f hmem, rfl⟩
    · rcases List.mem_cons.1 h with rfl | hmem
      · exact ⟨fault, List.mem_cons_self, rfl⟩
      · obtain ⟨g, hg, hmode⟩ := ih hmem
        exact ⟨g, List.mem_cons_of_mem f hg, hmode⟩

/-- The way in which a call fails is that of a fault that is armed. -/
theorem Fault.mode_of_consult {method : String} {armed : List Fault} {mode : FaultMode}
    (h : (Fault.consult method armed).1 = some mode) : ∃ f ∈ armed, f.mode = mode := by
  induction armed with
  | nil => cases h
  | cons f rest ih =>
    unfold consult at h
    split_ifs at h
    · exact ⟨f, List.mem_cons_self, Option.some.inj h⟩
    · obtain ⟨g, hg, hmode⟩ := ih h
      exact ⟨g, List.mem_cons_of_mem f hg, hmode⟩

/-! ## 2. The four endings of a call -/

theorem Memory.answering_eq {α τ : Type} {put : τ → Memory} {r : Except Error (α × τ)} {a : α}
    {m : Memory} (h : Memory.answering put r = .ok (a, m)) : ∃ t, r = .ok (a, t) ∧ m = put t := by
  cases r with
  | error cause => cases h
  | ok r =>
    cases h
    exact ⟨r.2, rfl, rfl⟩

theorem Memory.writing_eq {τ : Type} {put : τ → Memory} {r : Except Error τ} {u : Unit}
    {m : Memory} (h : Memory.writing put r = .ok (u, m)) : ∃ t, r = .ok t ∧ m = put t := by
  cases r with
  | error cause => cases h
  | ok t =>
    cases h
    exact ⟨t, rfl, rfl⟩

/-- A reservation that is stored uses up its number. -/
theorem Memory.answer_insertReservation {m m' : Memory} {r : Reservation} {u : Unit}
    (h : m.answer (.insertReservation r) = .ok (u, m')) :
    ∃ table, m.reservations.insert r = .ok table ∧
      m' = { m.withReservations table with reserved := m.reserved + 1 } := by
  simp only [answer] at h
  cases hinsert : m.reservations.insert r with
  | error cause => rw [hinsert] at h; cases h
  | ok table =>
    rw [hinsert] at h
    cases h
    exact ⟨table, rfl, rfl⟩

/-- A claim is made of an idle reservation, or it is not made; if it is made, an attempt is used
up. -/
theorem Memory.answer_beginSettlement {m m' : Memory} {number : String} {s : Settlement} {b : Bool}
    (h : m.answer (.beginSettlement number s) = .ok (b, m')) :
    ∃ r, m.reservations.find? number = some r ∧ b = r.isIdle ∧
      ((b = false ∧ m' = m) ∨ (b = true ∧ m' =
        { m.withReservations (m.reservations.amended number fun x =>
          { x with settlement := some s }) with claimed := m.claimed + 1 })) := by
  simp only [answer] at h
  cases hbegin : m.reservations.begin number s with
  | error cause => rw [hbegin] at h; cases h
  | ok result =>
    obtain ⟨claimed, table⟩ := result
    rw [hbegin] at h
    obtain ⟨r, hr, hb, hcases⟩ := ReservationTable.changeIf_eq hbegin
    rcases hcases with ⟨rfl, rfl⟩ | ⟨rfl, rfl⟩
    · cases h
      exact ⟨r, hr, hb, .inl ⟨rfl, rfl⟩⟩
    · cases h
      exact ⟨r, hr, hb, .inr ⟨rfl, rfl⟩⟩

/-- A commit is answered by the wallets, and a posting that is made uses up an identifier. -/
theorem Memory.answer_commitPosting {m m' : Memory} {debit credit : BalanceWrite} {p : Posting}
    {outcome : CommitOutcome} (h : m.answer (.commitPosting debit credit p) = .ok (outcome, m')) :
    ∃ table posted, m.wallets.commit debit credit p = .ok (outcome, table) ∧
      m' = { m.withWallets table with posted } := by
  simp only [answer] at h
  cases hcommit : m.wallets.commit debit credit p with
  | error cause => rw [hcommit] at h; cases h
  | ok result =>
    obtain ⟨outcome', table⟩ := result
    rw [hcommit] at h
    cases outcome' <;> (cases h; exact ⟨table, _, rfl, rfl⟩)

/-- **A call that fails in some way,** or that is let through. -/
def Memory.struck {α : Type} (m : Memory) (c : Call α) : Option FaultMode → Except Stop α × Memory
  | none => (Memory.call c).runIn m
  | some .before => (.error (Faulty.injected c), m)
  | some .after =>
    match (Memory.call c).runIn m with
    | (.ok _, m') => (.error (Faulty.injected c), m')
    | (.error stop, m') => (.error stop, m')
  | some .miss =>
    match c.nothing? with
    | some a => (.ok a, m)
    | none => (.error (Faulty.injected c), m)

namespace Ledger

variable {α : Type} {c : Call α} {l : Ledger (Faulty Memory)}

/-- **A call consults the faults, and then it is struck as they say.** -/
theorem runIn_ask_struck (c : Call α) :
    (ask c).runIn l =
      ((l.memory.struck c (Fault.consult c.name l.stores.armed).1).1,
        { l with stores :=
          ⟨(l.memory.struck c (Fault.consult c.name l.stores.armed).1).2,
            (Fault.consult c.name l.stores.armed).2⟩ }) := by
  have hcall : (Faulty.call c).runIn l.stores =
      ((l.memory.struck c (Fault.consult c.name l.stores.armed).1).1,
        ⟨(l.memory.struck c (Fault.consult c.name l.stores.armed).1).2,
          (Fault.consult c.name l.stores.armed).2⟩) := by
    unfold Faulty.call
    simp only [runIn_bind, runIn_get, runIn_set]
    generalize Fault.consult c.name l.stores.armed = consulted
    obtain ⟨mode, armed⟩ := consulted
    have hforward : (Faulty.forward c).runIn ⟨l.memory, armed⟩ =
        (((Memory.call c).runIn l.memory).1, ⟨((Memory.call c).runIn l.memory).2, armed⟩) := rfl
    cases mode with
    | none => exact hforward
    | some mode =>
      cases mode with
      | before => rfl
      | after =>
        show (Faulty.forward c >>= fun _ => throw (Faulty.injected c)).runIn ⟨l.memory, armed⟩ = _
        rw [runIn_bind, hforward, Memory.struck]
        generalize (Memory.call c).runIn l.memory = answered
        obtain ⟨result, m⟩ := answered
        cases result <;> rfl
      | miss =>
        rw [Memory.struck]
        cases c.nothing? <;> rfl
  rw [ask, runIn_zoom]
  simp only [Stores.call, hcall]

/-- **A call, as the faults see it.** Whatever stops it is a refusal: that of the stores, or that of
a fault. -/
theorem ends_ask_cases {Q : α → Ledger (Faulty Memory) → Prop}
    {E : Stop → Ledger (Faulty Memory) → Prop}
    (answered : ∀ a l', l.Follows l' → l.memory.answer c = .ok (a, l'.memory) → Q a l')
    (missed : ∀ a l', l.Still l' → l.CanFail .miss → c.nothing? = some a → Q a l')
    (refused : ∀ cause l', l.Still l' → l.memory.answer c = .error cause → E (.refused cause) l')
    (prevented : ∀ cause mode l', l.Still l' → l.CanFail mode → E (.refused cause) l')
    (struck : ∀ cause a l', l.Follows l' → l.CanFail .after →
      l.memory.answer c = .ok (a, l'.memory) → E (.refused cause) l') :
    (ask c).Ends Q E l := by
  have hstill : l.Still
      { l with stores := ⟨l.memory, (Fault.consult c.name l.stores.armed).2⟩ } :=
    ⟨⟨rfl, fun _ ⟨_, hf, hmode⟩ => hmode ▸ Fault.mem_of_mem_consult hf⟩, rfl⟩
  have hfollows : ∀ m, l.Follows
      { l with stores := ⟨m, (Fault.consult c.name l.stores.armed).2⟩ } :=
    fun m => ⟨rfl, hstill.modes⟩
  have hmode : ∀ mode, (Fault.consult c.name l.stores.armed).1 = some mode → l.CanFail mode :=
    fun _ => Fault.mode_of_consult
  unfold Ends
  rw [runIn_ask_struck]
  -- All that matters of the plan: what is armed later was armed before, and so was what strikes.
  generalize Fault.consult c.name l.stores.armed = consulted at hstill hfollows hmode ⊢
  obtain ⟨mode, armed⟩ := consulted
  cases mode with
  | none =>
    rw [Memory.struck, Memory.call, runIn_ofFun]
    cases h : l.memory.answer c with
    | ok r => exact answered r.1 _ (hfollows r.2) h
    | error cause => exact refused cause _ hstill h
  | some mode =>
    cases mode with
    | before => exact prevented _ .before _ hstill (hmode _ rfl)
    | after =>
      -- The call goes through first, so its own refusal comes before the fault.
      rw [Memory.struck, Memory.call, runIn_ofFun]
      cases h : l.memory.answer c with
      | ok r => exact struck _ r.1 _ (hfollows r.2) (hmode _ rfl) h
      | error cause => exact refused cause _ hstill h
    | miss =>
      rw [Memory.struck]
      cases hnothing : c.nothing? with
      | none => exact prevented _ .miss _ hstill (hmode _ rfl)
      | some a => exact missed a _ hstill (hmode _ rfl) hnothing

/-- **A call, as a service sees it.** -/
theorem ends_ask {Q : α → Ledger (Faulty Memory) → Prop}
    {E : Stop → Ledger (Faulty Memory) → Prop}
    (answered : ∀ a l', l.Follows l' → l.memory.answer c = .ok (a, l'.memory) → Q a l')
    (missed : ∀ a l', l.Still l' → l.CanFail .miss → c.nothing? = some a → Q a l')
    (stopped : ∀ stop l', l.Still l' → E stop l')
    (struck : ∀ stop a l', l.Follows l' → l.CanFail .after →
      l.memory.answer c = .ok (a, l'.memory) → E stop l') :
    (ask c).Ends Q E l :=
  ends_ask_cases answered missed (fun _ l' h _ => stopped _ l' h)
    (fun _ _ l' h _ => stopped _ l' h) fun _ => struck _

/-- **Reading** writes nothing, and it answers what is there unless a fault says that nothing is. -/
theorem within_read {x : α} (h : l.memory.answer c = .ok (x, l.memory)) :
    Within Still (ask c) (fun a _ => a = x ∨ (l.CanFail .miss ∧ c.nothing? = some a)) l := by
  refine ends_ask ?_ ?_ ?_ ?_
  · intro a l' hl ha
    rw [h] at ha
    have hpair := Except.ok.inj ha
    exact ⟨⟨hl, (congrArg Prod.snd hpair).symm⟩, .inl (congrArg Prod.fst hpair).symm⟩
  · intro a l' hl hmiss ha
    exact ⟨hl, .inr ⟨hmiss, ha⟩⟩
  · intro stop l' hl
    exact hl
  · intro stop a l' hl _ ha
    rw [h] at ha
    exact ⟨hl, (congrArg Prod.snd (Except.ok.inj ha)).symm⟩

/-- What is found is there, whatever the faults are. -/
theorem within_find {β : Type} {c : Call (Option β)} {x : Option β}
    (h : l.memory.answer c = .ok (x, l.memory)) (hc : c.nothing? = some none) :
    Within Still (ask c) (fun a _ => ∀ b, a = some b → x = some b) l := by
  refine (within_read h).mono fun a l' _ ha b hb => ?_
  rcases ha with rfl | ⟨-, ha⟩
  · exact hb
  · rw [hc, hb] at ha
    cases ha

/-- **Writing.** Whatever happens, the memory is as before or as the call leaves it. -/
theorem within_ask {f : Effect → Prop} {Q : α → Memory → Prop}
    (answered : ∀ a m, l.memory.answer c = .ok (a, m) → l.memory.Writes f m ∧ Q a m)
    (missed : ∀ a, c.nothing? = some a → Q a l.memory) :
    Within (Evolves f) (ask c) (fun a l' => Q a l'.memory) l := by
  refine ends_ask ?_ ?_ ?_ ?_
  · intro a l' hl ha
    exact ⟨⟨hl, (answered a _ ha).1⟩, (answered a _ ha).2⟩
  · intro a l' hl _ ha
    refine ⟨.of_still hl, ?_⟩
    show Q a l'.memory
    rw [hl.memory]
    exact missed a ha
  · intro stop l' hl
    exact .of_still hl
  · intro stop a l' hl _ ha
    exact ⟨hl, (answered a _ ha).1⟩

/-! ## 3. What is kept beside the stores -/

theorem within_now : Within Still now (fun _ _ => True) l := ⟨⟨⟨rfl, fun _ => id⟩, rfl⟩, trivial⟩

theorem within_fresh : Within Still fresh (fun ids _ => ids = l.memory.fresh) l :=
  ⟨.refl l, rfl⟩

theorem within_report (e : Event) : Within Still (report e) (fun _ _ => True) l :=
  ⟨⟨⟨rfl, fun _ => id⟩, rfl⟩, trivial⟩

theorem within_peek (g : Ledger (Faulty Memory) → α) :
    Within Still (peek g) (fun a _ => a = g l) l :=
  ⟨.refl l, rfl⟩

/-- Counting always goes on. -/
theorem ends_count (t : Terms) (k : Category) {Q : Unit → Ledger (Faulty Memory) → Prop}
    {E : Stop → Ledger (Faulty Memory) → Prop} (h : ∀ l', l.Still l' → Q () l') :
    (count t k).Ends Q E l := by
  show Q () (if t.counting then { l with counters := advance k l.counters } else l)
  split_ifs
  · exact h _ ⟨⟨rfl, fun _ => id⟩, rfl⟩
  · exact h l (.refl l)

/-- The graph is nothing that outlives an operation. -/
theorem within_setGraph (graph : Option Graph) :
    Within Still (adjust fun l => { l with graph }) (fun _ _ => True) l :=
  ⟨⟨⟨rfl, fun _ => id⟩, rfl⟩, trivial⟩

section Rules

variable {β : Type} {f : Effect → Prop} {a : Action (Ledger (Faulty Memory)) α}
  {Q : α → Ledger (Faulty Memory) → Prop}

/-- What moves nothing moves within any bounds. -/
theorem within_of_still (h : Within Still a Q l) : Within (Evolves f) a Q l :=
  h.weaken fun _ => .of_still

/-- **Reading first:** what follows starts from the same memory. -/
theorem within_bind_still {b : α → Action (Ledger (Faulty Memory)) β}
    {Q' : β → Ledger (Faulty Memory) → Prop} (h : Within Still a Q l)
    (hb : ∀ v l', l.Still l' → Q v l' → Within (Evolves f) (b v) Q' l') :
    Within (Evolves f) (a >>= b) Q' l :=
  h.and_then
    (fun v l' hl hv => Ends.mono (hb v l' hl hv)
      (fun _ _ hw => ⟨(Evolves.of_still hl).trans hw.1, hw.2⟩)
      fun _ _ => (Evolves.of_still hl).trans)
    fun _ _ => .of_still

end Rules

/-! ## 4. Looking up

A service looks up and checks what it needs before it writes anything. Each step of that is told
what it found, and a refusal leaves the memory as it was at the beginning.
-/

section Lookups

theorem still_require {cause : Error} {b : Bool} :
    Within Still (require cause b) (fun _ _ => b = true) l := within_require id

theorem still_ofExcept {r : Except Error α} :
    Within Still (ofExcept r) (fun v _ => r = .ok v) l := within_ofExcept fun _ => id

theorem still_orRefuse {cause : Error} {o : Option α} :
    Within Still (orRefuse cause o) (fun v _ => o = some v) l := within_orRefuse fun _ => id

theorem still_orAbort {o : Option α} :
    Within Still (orAbort o) (fun v _ => o = some v) l := within_orAbort fun _ => id

/-- **One more step,** after others that wrote nothing. -/
theorem Still.next {β : Type} {l₁ : Ledger (Faulty Memory)} {a : Action (Ledger (Faulty Memory)) α}
    {b : α → Action (Ledger (Faulty Memory)) β} {Q : α → Ledger (Faulty Memory) → Prop}
    {Q' : β → Ledger (Faulty Memory) → Prop} {E : Stop → Ledger (Faulty Memory) → Prop}
    (h : l.Still l₁) (ha : Within Still a Q l₁) (stopped : ∀ stop l', l.Still l' → E stop l')
    (rest : ∀ v l', l.Still l' → Q v l' → (b v).Ends Q' E l') : (a >>= b).Ends Q' E l₁ :=
  ha.and_then (fun v l' hl hv => rest v l' (h.trans hl) hv) fun stop l' hl =>
    stopped stop l' (h.trans hl)

end Lookups

end Ledger

end WalletLedger
