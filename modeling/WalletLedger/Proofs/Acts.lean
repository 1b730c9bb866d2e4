/-
What callers can do to the wallets.

An act is an operation, or a call of the engine or of the wallets with owners and wallets as the
caller has them: out of date, or made up. Nothing that is claimed of a wallet in a command is
believed. The engine looks up both wallets by their numbers and computes from what it finds, and a
wallet is opened under the number that its owner is said to have, if the key is free.

So whatever the acts are, each of them is a turn of the table of wallets (`Act.turns_after`), except
for the change of a single balance, which writes one balance at most once (`Act.edits_after`). What
one act keeps, a run of acts keeps.
-/
import WalletLedger.Proofs.Accounts
import WalletLedger.Proofs.Runs

set_option autoImplicit false

namespace WalletLedger

open WalletLedger.Action

/-! ## 1. Turns of a ledger -/

theorem Effect.Quiet.isTurn {e : Effect} (h : e.Quiet) : e.IsTurn .zero := by
  cases h with
  | wallet w empty => exact empty
  | _ => trivial

theorem Effect.Moves.isTurn {access : Access} {refs : Option String → Prop} {e : Effect}
    (h : e.Moves access refs) : e.IsTurn .zero := by
  cases h with
  | quiet e h => exact h.isTurn
  | transfer => trivial

namespace Ledger

variable {l l' : Ledger (Faulty Memory)} {t : Terms} {opening : Decimal}

/-- **The table of wallets takes a turn,** and the wallets that it opens begin with one balance. -/
def Turns (opening : Decimal) (l l' : Ledger (Faulty Memory)) : Prop :=
  ∃ ps, l.memory.wallets.Turns (fun _ => opening) ps l'.memory.wallets

theorem Turns.of_wallets (h : l'.memory.wallets = l.memory.wallets) : l.Turns opening l' :=
  ⟨[], h ▸ .refl _⟩

theorem Turns.trans {l'' : Ledger (Faulty Memory)} (h : l.Turns opening l')
    (h' : l'.Turns opening l'') : l.Turns opening l'' := by
  obtain ⟨ps, hps⟩ := h
  obtain ⟨qs, hqs⟩ := h'
  exact ⟨ps ++ qs, hps.append hqs⟩

instance : IsTrans (Ledger (Faulty Memory)) (Turns opening) := ⟨fun _ _ _ h h' => h.trans h'⟩

instance : Std.Refl (Turns opening) := ⟨fun _ => .of_wallets rfl⟩

theorem Still.turns (h : l.Still l') : l.Turns opening l' := .of_wallets (by rw [h.memory])

/-- Writes that are turns compose to one. -/
theorem Evolves.turns {f : Effect → Prop} (h : l.Evolves f l')
    (hf : ∀ e, f e → e.IsTurn opening) : l.Turns opening l' := by
  refine h.preserves
    (I := fun m => ∃ ps, l.memory.wallets.Turns (fun _ => opening) ps m.wallets)
    (fun m e m' he hc hm => ?_) ⟨[], .refl _⟩
  obtain ⟨ps, hps⟩ := hm
  obtain ⟨qs, hqs⟩ := hc.turns (hf e he)
  exact ⟨ps ++ qs, hps.append hqs⟩

theorem Waits.turns (h : l.Waits l') : l.Turns opening l' :=
  Evolves.turns h fun e (he : e = .conflict) => he ▸ trivial

theorem Posted.turns {access : Access} {mv : Movement} {p : Posting}
    (h : l.Posted access mv p l') : l.Turns opening l' := by
  obtain ⟨table, hposts, hm⟩ := h.made
  refine ⟨[p], ?_⟩
  rw [hm]
  exact .posted hposts

section Services

variable {α : Type}

/-- A call that does not reach the wallets is a turn in which nothing happens. -/
theorem turns_of_aside {c : Call α}
    (h : ∀ a m, l.memory.answer c = .ok (a, m) → m.wallets = l.memory.wallets) :
    Within (Turns opening) (ask c) (fun _ _ => True) l :=
  ends_ask (fun a _ _ ha => ⟨.of_wallets (h a _ ha), trivial⟩)
    (fun _ _ hl _ _ => ⟨hl.turns, trivial⟩) (fun _ _ hl => hl.turns)
    fun _ a _ _ _ ha => .of_wallets (h a _ ha)

/-- **Posting is a turn,** whatever the command says of its wallets. -/
theorem turns_post (access : Access) (mv : Movement) :
    Within (Turns opening) (post t access mv) (fun _ _ => True) l :=
  within_post_of (fun _ _ h => h.turns) fun _ _ _ h => h.turns

/-- **Opening a wallet is a turn,** be its owner registered or not. -/
theorem turns_createWallet (owner : Owner) (initial : Amount) (kind : WalletKind) :
    Within (Turns initial.value) (createWallet owner initial kind) (fun _ _ => True) l := by
  have hopened : ∀ w m, l.memory.answer
      (.createWallet owner ⟨owner.id, initial.currency, kind⟩ initial) = .ok (w, m) →
      ∃ ps, l.memory.wallets.Turns (fun _ => initial.value) ps m.wallets := by
    intro w m h
    obtain ⟨table, hcreate, rfl⟩ := Memory.answering_eq h
    exact ⟨[], .createWallet hcreate⟩
  exact ends_ask (fun w l' _ h => ⟨hopened w _ h, trivial⟩) (fun _ _ hl _ _ => ⟨hl.turns, trivial⟩)
    (fun _ _ hl => hl.turns) fun _ w l' _ _ h => hopened w _ h

/-- **Finding a wallet or opening one** moves the ledger as opening one does. -/
theorem within_findOrCreateWallet_of
    {R : Ledger (Faulty Memory) → Ledger (Faulty Memory) → Prop} [IsTrans _ R] [Std.Refl R]
    {owner : Owner} {currency : String} {kind : WalletKind}
    (hstill : ∀ l l', Still l l' → R l l')
    (hopen : ∀ l, Within R (createWallet owner (.zero currency) kind) (fun _ _ => True) l) :
    Within R (findOrCreateWallet owner currency kind) (fun _ _ => True) l := by
  unfold findOrCreateWallet
  refine ((within_findWallet owner currency kind).weaken (hstill l)).bind fun found l₁ _ _ => ?_
  cases found with
  | some w => exact within_pure trivial
  | none =>
    refine (hopen l₁).attempt.bind fun r l₂ _ _ => ?_
    cases r with
    | ok w => exact within_pure trivial
    | error cause =>
      cases cause with
      | walletExists =>
        exact ((within_requireWallet owner currency kind).weaken (hstill l₂)).mono
          fun _ _ _ _ => trivial
      | _ => exact within_refuse _

theorem turns_findOrCreateWallet (owner : Owner) (currency : String) (kind : WalletKind) :
    Within (Turns .zero) (findOrCreateWallet owner currency kind) (fun _ _ => True) l :=
  within_findOrCreateWallet_of (fun _ _ h => h.turns) fun _ => turns_createWallet _ _ _

end Services

/-! ### Requests -/

/-- **A relation along which a request can go:** getting ready, posting within one currency and
storing a row are moves along it. -/
structure BearsRequests (t : Terms) (R : Ledger (Faulty Memory) → Ledger (Faulty Memory) → Prop) :
    Prop where
  quiet : ∀ l l', Evolves Effect.Quiet l l' → R l l'
  post : ∀ l access source dest amount category description ref,
    Within R (post t access (.ofAmount source dest amount category description ref))
      (fun _ _ => True) l
  row : ∀ l draft now, Within R (ask (.insertWithdrawal draft now)) (fun _ _ => True) l

namespace BearsRequests

variable {R : Ledger (Faulty Memory) → Ledger (Faulty Memory) → Prop}

theorem of_still {α : Type} {a : Action (Ledger (Faulty Memory)) α}
    {Q : α → Ledger (Faulty Memory) → Prop} (h : BearsRequests t R) (ha : Within Still a Q l) :
    Within R a Q l :=
  ha.weaken fun l' hl => h.quiet l l' (.of_still hl)

variable [IsTrans _ R]

/-- Returning what was set aside. -/
theorem unstage (h : BearsRequests t R) (ownerUuid : String) (amount : Amount) (cashoutId : Int)
    (staged : Receipt) :
    Within R (Ledger.unstage t ownerUuid amount cashoutId staged) (fun _ _ => True) l := by
  unfold Ledger.unstage
  refine (h.of_still (within_requireOwner ownerUuid)).bind fun owner l₁ _ _ => ?_
  refine (h.of_still (within_loadWallet cashoutId)).bind fun cashout l₂ _ _ => ?_
  refine (h.of_still (within_requireWallet owner amount.currency .main)).bind fun main l₃ _ _ => ?_
  exact h.post _ _ _ _ _ _ _ _

variable [Std.Refl R]

theorem stage (h : BearsRequests t R) (c : WithdrawalRequest) (owner : Owner) (currency : Currency)
    (source cashout : Wallet) (amount : Amount) (net fee : Decimal) :
    Within R (Ledger.stage t c owner currency source cashout amount net fee)
      (fun _ _ => True) l := by
  unfold Ledger.stage
  refine (h.post _ _ _ _ _ _ _ _).bind fun staged l₁ _ _ => ?_
  refine (h.of_still within_now).bind fun now l₂ _ _ => ?_
  refine (h.row _ _ _).attempt.bind fun r l₃ _ _ => ?_
  cases r with
  | ok row => exact within_pure trivial
  | error cause =>
    exact (h.unstage _ _ _ staged).attempt.bind fun _ l₄ _ _ => within_refuse cause

/-- **A request goes along it** even where a wallet of the owner is somebody else's. -/
theorem request (h : BearsRequests t R) (c : WithdrawalRequest) :
    Within R (requestWithdrawal t c) (fun _ _ => True) l := by
  refine ends_requestWithdrawal c (fun _ l' hl => h.quiet l l' hl)
    fun owner currency source cashout amount policy net l₁ granted => ?_
  have moved := h.quiet _ _ granted.moved
  exact Ends.mono (h.stage c owner currency source cashout amount net policy.fee)
    (fun _ _ hl => ⟨trans_of R moved hl.1, trivial⟩) fun _ _ hl => trans_of R moved hl

end BearsRequests

theorem bearsRequests_turns : BearsRequests t (Turns .zero) where
  quiet _ _ h := h.turns fun _ he => he.isTurn
  post _ access _ _ _ _ _ _ := turns_post access _
  row _ _ _ := turns_of_aside fun w m h => by
    obtain ⟨table, -, rfl⟩ := Memory.answering_eq h
    rfl

end Ledger

/-! ## 2. Acts -/

/-- The balance with which an operation opens wallets. -/
def Operation.opening : Operation → Decimal
  | .createWallet _ initial _ => initial.value
  | _ => .zero

/-- Whether an operation changes a balance by itself. -/
def Operation.IsEdit : Operation → Prop
  | .mutateBalance _ _ => True
  | _ => False

theorem Operation.May.isTurn {policies : WithdrawalPolicies} {op : Operation} {e : Effect}
    (h : op.May policies e) (hop : ¬op.IsEdit) : e.IsTurn op.opening := by
  cases op with
  | createWallet uuid initial kind =>
    obtain ⟨w, rfl, hbalance, -⟩ := h
    exact hbalance
  | mutateBalance => exact absurd trivial hop
  | transfer | deposit | depositManually => exact Effect.Moves.isTurn h
  | advance | recover => exact h.elim (fun he => he ▸ trivial) Effect.Moves.isTurn
  | request c =>
    rcases h with h | ⟨w, policy, rfl, -⟩
    · exact h.isTurn
    · trivial
  | decide => exact h.elim (fun he => he ▸ trivial) Effect.Moves.isTurn
  | withdrawManually c =>
    rcases h with h | ⟨w, rfl, -⟩
    · exact h.isTurn
    · trivial
  | quote | setPolicy | arm | elapse => exact h.elim
  | createOwner | setPermissions | registerCurrency | setActive | addTransitive
  | deleteTransitive | addRate | updateRate | deleteRate | forbid | allow | reserve | cancel
  | sweep | process | inject =>
    have he : e = _ := h
    rw [he]
    trivial

/-- **An operation that is not an edit is a turn.** -/
theorem Operation.turns_after {t : Terms} {l : Ledger (Faulty Memory)} (op : Operation)
    (hop : ¬op.IsEdit) : l.Turns op.opening (op.after t l) := by
  by_cases hordinary : op.IsOrdinary
  · by_cases hrequest : ∃ c, op = .request c
    · obtain ⟨c, rfl⟩ := hrequest
      refine Operation.runIn_discard (I := l.Turns .zero) ?_
      exact Ends.mono (Ledger.bearsRequests_turns.request c) (fun _ _ h => h.1) fun _ _ h => h
    · have hrun := (Operation.within_run (t := t) (l := l) op
        (fun c hc => absurd ⟨c, hc⟩ hrequest) hordinary).moves
      exact hrun.turns fun e he => he.isTurn hop
  · exact .of_wallets (by rw [Operation.memory_after op hordinary])

/-- **What a caller can do.** -/
inductive Act where
  | serve (op : Operation)
  /-- The engine is given a movement between wallets as the caller describes them. -/
  | post (access : Access) (mv : Movement)
  /-- A wallet is opened for an owner as the caller describes them. -/
  | openWallet (owner : Owner) (initial : Amount) (kind : WalletKind)
  | takeWallet (owner : Owner) (currency : String) (kind : WalletKind)
  /-- A settlement is resumed for a reservation as the caller describes it. -/
  | resume (r : Reservation)

namespace Act

def run (t : Terms) : Act → Action (Ledger (Faulty Memory)) Unit
  | .serve op => op.run t
  | .post access mv => discard (Ledger.post t access mv)
  | .openWallet owner initial kind => discard (Ledger.createWallet owner initial kind)
  | .takeWallet owner currency kind => discard (Ledger.findOrCreateWallet owner currency kind)
  | .resume r => discard (Ledger.resume t r)

/-- The ledger after an act, however it ended. -/
def after (t : Terms) (l : Ledger (Faulty Memory)) (a : Act) : Ledger (Faulty Memory) :=
  ((a.run t).runIn l).2

def runAll (t : Terms) (l : Ledger (Faulty Memory)) (acts : List Act) : Ledger (Faulty Memory) :=
  acts.foldl (after t) l

/-- **The states of all runs of acts.** -/
def Reachable (t : Terms) (l : Ledger (Faulty Memory)) : Prop :=
  ∃ ids clock acts, l = runAll t (.initial ids clock) acts

/-- The balance with which an act opens wallets. -/
def opening : Act → Decimal
  | .serve op => op.opening
  | .openWallet _ initial _ => initial.value
  | _ => .zero

/-- Whether an act changes a balance by itself. -/
def IsEdit : Act → Prop
  | .serve op => op.IsEdit
  | _ => False

variable {t : Terms} {l : Ledger (Faulty Memory)}

/-- **An act that is not an edit is a turn.** -/
theorem turns_after (a : Act) (ha : ¬a.IsEdit) : l.Turns a.opening (a.after t l) := by
  have hmoves : ∀ {α : Type} {service : Action (Ledger (Faulty Memory)) α} {opening : Decimal},
      Within (Ledger.Turns opening) service (fun _ _ => True) l →
        l.Turns opening
          ((discard service : Action (Ledger (Faulty Memory)) Unit).runIn l).2 := fun h =>
    Operation.runIn_discard (Ends.mono h (fun _ _ hv => hv.1) fun _ _ hs => hs)
  cases a with
  | serve op => exact op.turns_after ha
  | post access mv => exact hmoves (Ledger.turns_post access mv)
  | openWallet owner initial kind => exact hmoves (Ledger.turns_createWallet owner initial kind)
  | takeWallet owner currency kind =>
    exact hmoves (Ledger.turns_findOrCreateWallet owner currency kind)
  | resume r =>
    have hpermits : Ledger.PermitsSettling fun e =>
        e = .reservation ∨ e.Moves .generic Operation.IsLegRef :=
      Operation.permitsSettling (.inl rfl) fun _ => .inr
    refine hmoves ((Ledger.within_resume hpermits r).weaken fun _ h => h.turns fun e he => ?_)
    exact he.elim (fun he => he ▸ trivial) Effect.Moves.isTurn

/-- **An edit** writes one balance, at most once. -/
theorem edits_after (id : Int) (change : Amount) :
    l.Waits ((serve (.mutateBalance id change)).after t l) ∨
      ∃ l₁, l.Waits l₁ ∧ l₁.Edited id change ((serve (.mutateBalance id change)).after t l) := by
  refine Operation.runIn_discard
    (I := fun l' => l.Waits l' ∨ ∃ l₁, l.Waits l₁ ∧ l₁.Edited id change l') ?_
  exact Ends.mono (Ledger.ends_mutateBalance id change) (fun _ _ h => .inr h) fun _ _ h => h

end Act

end WalletLedger
