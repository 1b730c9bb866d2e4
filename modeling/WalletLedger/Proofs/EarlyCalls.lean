/-
Early calls.

A few calls come late: they are made when funds were moved or a row was claimed already, and what
went before must be undone if they fail (`lateCalls`). All other calls come early. Services that
move funds are made of early calls, and `Early` says so of an action, with one constructor for each
way of making one.

By induction on how it is made, three things follow for every such action. If it never aborts, it is
refused for a cause when it has no value (`Early.refuses`). A fault that waits for a late call is
still waiting when the action is over (`Early.keeps`). And where all faults are spent, the action
runs as if none had been armed (`Early.runIn_rearmed`).
-/
import WalletLedger.Ledger.Withdrawals
import WalletLedger.Proofs.Calls

set_option autoImplicit false

namespace WalletLedger

open WalletLedger.Action

/-- **An action that does not abort:** if it has no value, there is a cause. -/
def Action.Refuses {σ α : Type} (a : Action σ α) : Prop :=
  ∀ s, a.Ends (fun _ _ => True) (fun stop _ => ∃ cause, stop = .refused cause) s

/-- An attempt at an action that does not abort goes on in any case. -/
theorem Action.Refuses.ends_attempt {σ α : Type} {a : Action σ α} (ha : a.Refuses) {s : σ}
    {Q : Except Error α → σ → Prop} {E : Stop → σ → Prop}
    (h : a.Ends (fun v s' => Q (.ok v) s') (fun _ s' => ∀ cause, Q (.error cause) s') s) :
    a.attempt.Ends Q E s := by
  refine Action.ends_attempt.2 (Ends.mono (h.and (ha s)) (fun _ _ hv => hv.1)
    fun stop s' hstop => ?_)
  obtain ⟨hQ, cause, rfl⟩ := hstop
  exact ⟨fun cause' _ => hQ cause', nofun⟩

namespace Ledger

/-! ## 1. Actions that are made of early calls -/

/-- **The late calls:** a row is told how it ended, or it is put back, or it is stored after its
funds were moved. -/
def lateCalls : List String :=
  ["revert", "set_final_transaction", "find_by_request_transaction", "withdraw_insert"]

/-- **An action that is made of early calls,** and that aborts only if it may. -/
inductive Early (aborts : Prop) : {α : Type} → Action (Ledger (Faulty Memory)) α → Prop where
  | pure {α : Type} (v : α) : Early aborts (Pure.pure v)
  | refuse {α : Type} (cause : Error) : Early aborts (Action.refuse (α := α) cause)
  | abort {α : Type} (may : aborts) : Early aborts (Action.abort (α := α))
  | bind {α β : Type} {a : Action (Ledger (Faulty Memory)) α}
      {f : α → Action (Ledger (Faulty Memory)) β} (first : Early aborts a)
      (rest : ∀ v, Early aborts (f v)) : Early aborts (a >>= f)
  | attempt {α : Type} {a : Action (Ledger (Faulty Memory)) α} (made : Early aborts a) :
      Early aborts a.attempt
  | ask {α : Type} (c : Call α) (early : lateCalls.contains c.name = false) :
      Early aborts (Ledger.ask c)
  | fresh : Early aborts Ledger.fresh
  /-- A step beside the stores, which does not look at them. -/
  | beside {α : Type} (f : Ledger (Faulty Memory) → α × Ledger (Faulty Memory))
      (blind : ∀ l stores, f { l with stores } = ((f l).1, { (f l).2 with stores })) :
      Early aborts (ofFun fun l => (.ok (f l).1, (f l).2))

namespace Early

variable {aborts : Prop} {α β : Type} {t : Terms}

theorem ofExcept (r : Except Error α) : Early aborts (Action.ofExcept r) := by
  cases r with
  | ok v => exact .pure v
  | error cause => exact .refuse cause

theorem orRefuse (cause : Error) (o : Option α) : Early aborts (Action.orRefuse cause o) := by
  cases o with
  | some v => exact .pure v
  | none => exact .refuse cause

theorem orAbort (may : aborts) (o : Option α) : Early aborts (Action.orAbort o) := by
  cases o with
  | some v => exact .pure v
  | none => exact .abort may

theorem require (cause : Error) (b : Bool) : Early aborts (Action.require cause b) := by
  cases b with
  | true => exact .pure ()
  | false => exact .refuse cause

theorem map {a : Action (Ledger (Faulty Memory)) α} (ha : Early aborts a) (f : α → β) :
    Early aborts (f <$> a) := by
  rw [map_eq_pure_bind]
  exact ha.bind fun v => .pure (f v)

theorem peek (g : Ledger (Faulty Memory) → α) (blind : ∀ l stores, g { l with stores } = g l) :
    Early aborts (Ledger.peek g) :=
  .beside (fun l => (g l, l)) fun l stores => Prod.ext (blind l stores) rfl

theorem now : Early aborts Ledger.now :=
  .beside (fun l => (l.clock + 1, { l with clock := l.clock + 1 })) fun _ _ => rfl

theorem report (e : Event) : Early aborts (Ledger.report e) :=
  .beside (fun l => ((), { l with events := e :: l.events })) fun _ _ => rfl

theorem count (k : Category) : Early aborts (Ledger.count t k) := by
  refine .beside (fun l =>
    ((), if t.counting then { l with counters := advance k l.counters } else l)) fun l stores => ?_
  split_ifs <;> rfl

theorem retry {exhausted : Error} {a : Action (Ledger (Faulty Memory)) (Option α)}
    (ha : Early aborts a) (attempts : Nat) : Early aborts (Ledger.retry exhausted a attempts) := by
  induction attempts with
  | zero => exact .refuse exhausted
  | succ n ih =>
    unfold Ledger.retry
    refine ha.bind fun o => ?_
    cases o with
    | some v => exact .pure v
    | none => exact ih

/-! ### Services -/

theorem requireCurrency (symbol : String) : Early aborts (Ledger.requireCurrency symbol) :=
  (Early.ask (.findCurrency symbol) rfl).bind fun _ => .orRefuse _ _

theorem requireActive (symbol : String) : Early aborts (Ledger.requireActive symbol) :=
  (requireCurrency symbol).bind fun currency => (Early.require _ _).bind fun _ => .pure currency

theorem requireOwner (uuid : String) : Early aborts (Ledger.requireOwner uuid) :=
  (Early.ask (.findOwner uuid) rfl).bind fun _ => .orRefuse _ _

theorem findOrCreateOwner (uuid : String) : Early aborts (Ledger.findOrCreateOwner uuid) := by
  unfold Ledger.findOrCreateOwner createOwner
  refine (Early.ask (.findOwner uuid) rfl).bind fun found => ?_
  cases found with
  | some owner => exact .pure owner
  | none =>
    refine (Early.attempt ?_).bind fun created => ?_
    · exact (Early.ask (.createOwner _ _ _ _) rfl).bind fun owner =>
        (Early.report _).bind fun _ => .pure owner
    · cases created with
      | ok owner => exact .pure owner
      | error _ => exact requireOwner uuid

theorem requireWallet (owner : Owner) (currency : String) (kind : WalletKind) :
    Early aborts (Ledger.requireWallet owner currency kind) :=
  (Early.ask (.findWallet _) rfl).bind fun _ => .orRefuse _ _

theorem loadWallet (id : Int) : Early aborts (Ledger.loadWallet id) :=
  (Early.ask (.findWalletById id) rfl).bind fun _ => .orRefuse _ _

theorem findOrCreateWallet (owner : Owner) (currency : String) (kind : WalletKind) :
    Early aborts (Ledger.findOrCreateWallet owner currency kind) := by
  unfold Ledger.findOrCreateWallet
  refine (Early.ask (.findWallet _) rfl).bind fun found => ?_
  cases found with
  | some wallet => exact .pure wallet
  | none =>
    refine (Early.ask (.createWallet _ _ _) rfl).attempt.bind fun created => ?_
    cases created with
    | ok wallet => exact .pure wallet
    | error cause =>
      cases cause with
      | walletExists => exact requireWallet owner currency kind
      | _ => exact .refuse _

theorem findPosting (ref : String) : Early aborts (Ledger.findPosting ref) :=
  .ask (.findPosting ref) rfl

theorem tryPost (access : Access) (mv : Movement) :
    Early aborts (Ledger.tryPost t access mv) := by
  unfold Ledger.tryPost
  refine (loadWallet _).bind fun source => (loadWallet _).bind fun dest => ?_
  refine (Early.ofExcept _).bind fun _ => (Early.ofExcept _).bind fun sourceAfter => ?_
  refine (Early.ofExcept _).bind fun destAfter => ?_
  refine Early.fresh.bind fun ids => Early.now.bind fun createdAt => ?_
  refine (Early.ask (.commitPosting _ _ _) rfl).bind fun outcome => ?_
  cases outcome with
  | committed => exact (Early.count _).bind fun _ => .pure _
  | duplicate earlier => exact (Early.ofExcept _).map _
  | versionConflict => exact .pure none

theorem post (access : Access) (mv : Movement) : Early aborts (Ledger.post t access mv) := by
  unfold Ledger.post earlierPosting
  refine (Early.ofExcept _).bind fun _ => (Early.ofExcept _).bind fun _ => ?_
  refine Early.bind ?_ fun found => ?_
  · cases mv.ref with
    | none => exact .pure none
    | some ref => exact findPosting ref
  · cases found with
    | some earlier => exact .ofExcept _
    | none => exact (tryPost access mv).retry _

theorem transfer (r : TransferRequest) : Early aborts (Ledger.transfer t r) := by
  unfold Ledger.transfer
  refine (Early.require _ _).bind fun _ => (requireActive _).bind fun currency => ?_
  refine (Early.ofExcept _).bind fun amount => (requireOwner _).bind fun sender => ?_
  refine (requireWallet _ _ _).bind fun source => (findOrCreateOwner _).bind fun receiver => ?_
  exact (findOrCreateWallet _ _ _).bind fun dest => post _ _

theorem unstage (ownerUuid : String) (amount : Amount) (cashoutId : Int) (staged : Receipt) :
    Early aborts (Ledger.unstage t ownerUuid amount cashoutId staged) := by
  unfold Ledger.unstage
  refine (requireOwner _).bind fun owner => (loadWallet _).bind fun cashout => ?_
  exact (requireWallet _ _ _).bind fun main => post _ _

end Early

/-! ## 2. What follows for all of them -/

section

variable {α : Type} {a : Action (Ledger (Faulty Memory)) α}
  {l : Ledger (Faulty Memory)}

/-- **An early action that does not abort is refused for a cause,** if it has no value. -/
theorem Early.refuses (ha : Early False a) : a.Refuses := by
  induction ha with
  | pure v => exact fun _ => trivial
  | refuse cause => exact fun _ => ⟨cause, rfl⟩
  | abort may => exact may.elim
  | bind _ _ first rest =>
    exact fun l => (ends_bind _).2 (Ends.mono (first l) (fun v l' _ => rest v l') fun _ _ => id)
  | attempt _ made =>
    refine fun l => ends_attempt.2 (Ends.mono (made l) (fun _ _ => id) fun stop l' hstop => ?_)
    exact ⟨fun _ _ => trivial, fun haborted => by obtain ⟨cause, rfl⟩ := hstop; cases haborted⟩
  | ask c =>
    exact fun _ => ends_ask_cases (fun _ _ _ _ => trivial) (fun _ _ _ _ _ => trivial)
      (fun cause _ _ _ => ⟨cause, rfl⟩) (fun cause _ _ _ _ => ⟨cause, rfl⟩)
      fun cause _ _ _ _ _ => ⟨cause, rfl⟩
  | fresh => exact fun _ => trivial
  | beside f => exact fun _ => trivial

/-- A call consults the faults once, however it ends. -/
theorem ends_ask_armed (c : Call α) {I : List Fault → Prop}
    (h : I (Fault.consult c.name l.stores.armed).2) :
    (ask c).Ends (fun _ l' => I l'.stores.armed) (fun _ l' => I l'.stores.armed) l := by
  rw [ends_iff, runIn_ask_struck]
  exact ⟨fun _ _ => h, fun _ _ => h⟩

/-- **What early calls leave true of the faults** is true of them when the action is over. -/
theorem Early.keeps {I : List Fault → Prop}
    (hI : ∀ name armed, lateCalls.contains name = false → I armed → I (Fault.consult name armed).2)
    (ha : Early True a) : ∀ {l : Ledger (Faulty Memory)}, I l.stores.armed →
      a.Ends (fun _ l' => I l'.stores.armed) (fun _ l' => I l'.stores.armed) l := by
  induction ha with
  | pure v => exact id
  | refuse cause => exact id
  | abort may => exact id
  | bind _ _ first rest =>
    exact fun h => (ends_bind _).2 (Ends.mono (first h) (fun v _ => rest v) fun _ _ => id)
  | attempt _ made =>
    exact fun h => ends_attempt.2 (Ends.mono (made h) (fun _ _ => id) fun _ _ h' =>
      ⟨fun _ _ => h', fun _ => h'⟩)
  | ask c early => exact fun h => ends_ask_armed c (hI _ _ early h)
  | fresh => exact id
  | beside f blind =>
    intro l h
    show I (f l).2.stores.armed
    rw [congrArg Prod.snd (blind l l.stores)]
    exact h

/-- The same stores with other faults in front of them. -/
def rearmed (l : Ledger (Faulty Memory)) (armed : List Fault) : Ledger (Faulty Memory) :=
  { l with stores := ⟨l.memory, armed⟩ }

/-- **Faults that are spent** strike no call, whatever its name is. -/
def Spent (armed : List Fault) : Prop := ∀ name, Fault.consult name armed = (none, armed)

theorem spent_nil : Spent [] := fun _ => rfl

/-- **A call that no fault strikes** is the answer of the memory. -/
theorem runIn_ask_of_passed {armed : List Fault} (c : Call α)
    (h : Fault.consult c.name l.stores.armed = (none, armed)) :
    (ask c).runIn l =
      match l.memory.answer c with
      | .ok (v, m) => (.ok v, { l with stores := ⟨m, armed⟩ })
      | .error cause => (.error (.refused cause), l.rearmed armed) := by
  rw [runIn_ask_struck, h, Memory.struck, Memory.call, runIn_ofFun]
  cases l.memory.answer c <;> rfl

/-- A call that is not made says so. -/
theorem runIn_ask_of_prevented {armed : List Fault} (c : Call α)
    (h : Fault.consult c.name l.stores.armed = (some .before, armed)) :
    (ask c).runIn l =
      (.error (.refused (.database (.injected c.name))), l.rearmed armed) := by
  rw [runIn_ask_struck, h]
  rfl

theorem runIn_ask_of_spent (h : Spent l.stores.armed) (c : Call α) :
    (ask c).runIn l =
      match l.memory.answer c with
      | .ok (v, m) => (.ok v, { l with stores := { l.stores with stores := m } })
      | .error cause => (.error (.refused cause), l) :=
  runIn_ask_of_passed c (h c.name)

/-- **Where all faults are spent, an early action runs as if none had been armed.** -/
theorem Early.runIn_rearmed {armed : List Fault} (h : Spent armed) (ha : Early True a) :
    ∀ l : Ledger (Faulty Memory), l.stores.armed = [] →
      a.runIn (l.rearmed armed) = ((a.runIn l).1, (a.runIn l).2.rearmed armed) := by
  induction ha with
  | pure v => exact fun l _ => rfl
  | refuse cause => exact fun l _ => rfl
  | abort may => exact fun l _ => rfl
  | @bind _ _ a f first _ ihfirst ihrest =>
    intro l hl
    have hunarmed := ends_iff.1
      (first.keeps (I := (· = [])) (fun _ _ _ harmed => by rw [harmed]; rfl) hl)
    rw [runIn_bind, runIn_bind, ihfirst l hl]
    generalize a.runIn l = r at hunarmed ⊢
    obtain ⟨result, l'⟩ := r
    cases result with
    | ok v => exact ihrest v l' (hunarmed.1 v rfl)
    | error stop => rfl
  | @attempt _ a _ made =>
    intro l hl
    rw [Action.attempt, runIn_ofFun, runIn_ofFun, made l hl]
    generalize a.runIn l = r
    obtain ⟨result, l'⟩ := r
    cases result with
    | ok v => rfl
    | error stop => cases stop <;> rfl
  | ask c early =>
    intro l hl
    rw [runIn_ask_of_spent (l := l.rearmed armed) h, runIn_ask_of_spent (hl ▸ spent_nil)]
    show (match l.memory.answer c with | .ok (v, m) => _ | .error cause => _) = _
    cases l.memory.answer c <;> rfl
  | fresh => exact fun l _ => rfl
  | beside f blind =>
    intro l _
    have hstores : (f l).2.stores = l.stores := congrArg (·.2.stores) (blind l l.stores)
    show ((Except.ok (f (l.rearmed armed)).1, (f (l.rearmed armed)).2) : Except Stop _ × _) = _
    rw [rearmed, blind l ⟨l.memory, armed⟩]
    show _ = (Except.ok (f l).1, (f l).2.rearmed armed)
    rw [rearmed, memory, memory, hstores]

end

end Ledger

end WalletLedger
