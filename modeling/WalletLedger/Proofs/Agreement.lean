/-
Runs that differ in identifiers and times only.

An operation that is carried out once more from the same rows reads another clock and may draw
other identifiers, so it does not write the same rows again. Nothing depends on the difference: no
service looks at the identifier or the time of a posting. `Action.Agrees` says so of two actions:
started from related states, both have values that are related, or both stop alike, and the states
they leave are related again. Each way of building an action has its rule, as for `Action.Ends`,
and a proof about a service applies one rule for each line of it.

The relation on ledgers is `Ledger.Alike`: the rows are the same up to the identifiers and times of
the postings in the log. The clock, the graph, the counters and the events are not restricted, so it
also relates a ledger to one that has lost what it held beside its stores.
-/
import WalletLedger.Proofs.Sure

set_option autoImplicit false

namespace WalletLedger

open WalletLedger.Action

/-! ## 1. Agreement -/

/-- **Two results are alike:** values that are related, or the same failure. -/
def Likewise {ε α β : Type} (R : α → β → Prop) : Except ε α → Except ε β → Prop
  | .ok v, .ok w => R v w
  | .error e, .error e' => e = e'
  | _, _ => False

theorem likewise_of_map {ε α β γ : Type} {f : α → γ} {g : β → γ} {x : Except ε α} {y : Except ε β}
    (h : x.map f = y.map g) : Likewise (fun v w => f v = g w) x y := by
  cases x <;> cases y
  · exact Except.error.inj h
  · cases h
  · cases h
  · exact Except.ok.inj h

theorem likewise_refl {ε α : Type} (x : Except ε α) : Likewise Eq x x :=
  likewise_of_map (f := id) (g := id) rfl

namespace Action

variable {σ α β γ δ : Type} {I : σ → σ → Prop} {R : α → β → Prop}

/-- **Two actions agree** on related states. -/
def Agrees (I : σ → σ → Prop) (R : α → β → Prop) (a : Action σ α) (b : Action σ β) : Prop :=
  ∀ s s', I s s' →
    Likewise R (a.runIn s).1 (b.runIn s').1 ∧ I (a.runIn s).2 (b.runIn s').2

section Rules

variable {a : Action σ α} {b : Action σ β}

theorem agrees_pure {v : α} {w : β} (h : R v w) : Agrees I R (pure v) (pure w) :=
  fun _ _ hs => ⟨h, hs⟩

theorem agrees_refuse (cause : Error) : Agrees I R (refuse cause) (refuse cause) :=
  fun _ _ hs => ⟨rfl, hs⟩

theorem agrees_ofExcept {x : Except Error α} {y : Except Error β} (h : Likewise R x y) :
    Agrees I R (ofExcept x) (ofExcept y) := by
  cases x <;> cases y
  · obtain rfl := h
    exact agrees_refuse _
  · exact h.elim
  · exact h.elim
  · exact agrees_pure h

theorem agrees_orRefuse (cause : Error) (o : Option α) :
    Agrees I Eq (orRefuse cause o : Action σ α) (orRefuse cause o) := by
  cases o with
  | none => exact agrees_refuse cause
  | some v => exact agrees_pure rfl

theorem agrees_require (cause : Error) (c : Bool) :
    Agrees I Eq (require cause c : Action σ Unit) (require cause c) := by
  cases c with
  | false => exact agrees_refuse cause
  | true => exact agrees_pure rfl

/-- **The rule for sequences:** what follows agrees for any two related values. -/
theorem Agrees.bind {S : γ → δ → Prop} {f : α → Action σ γ} {g : β → Action σ δ}
    (h : Agrees I R a b) (hf : ∀ v w, R v w → Agrees I S (f v) (g w)) :
    Agrees I S (a >>= f) (b >>= g) := by
  intro s s' hs
  obtain ⟨hresult, hleft⟩ := h s s' hs
  rw [runIn_bind, runIn_bind]
  generalize a.runIn s = x at hresult hleft
  generalize b.runIn s' = y at hresult hleft
  obtain ⟨x, sx⟩ := x
  obtain ⟨y, sy⟩ := y
  cases x <;> cases y
  · exact ⟨hresult, hleft⟩
  · exact hresult.elim
  · exact hresult.elim
  · exact hf _ _ hresult sx sy hleft

/-- The same value on both sides is handed on as one. -/
theorem Agrees.next {a b : Action σ α} {S : γ → δ → Prop} {f : α → Action σ γ}
    {g : α → Action σ δ} (h : Agrees I Eq a b) (hf : ∀ v, Agrees I S (f v) (g v)) :
    Agrees I S (a >>= f) (b >>= g) := by
  refine h.bind ?_
  rintro v _ rfl
  exact hf v

theorem Agrees.map {S : γ → δ → Prop} {f : α → γ} {g : β → δ} (h : Agrees I R a b)
    (hf : ∀ v w, R v w → S (f v) (g w)) : Agrees I S (f <$> a) (g <$> b) := by
  rw [map_eq_pure_bind, map_eq_pure_bind]
  exact h.bind fun v w hvw => agrees_pure (hf v w hvw)

/-- If one is refused, the other is refused for the same cause. -/
theorem Agrees.attempt (h : Agrees I R a b) : Agrees I (Likewise R) a.attempt b.attempt := by
  intro s s' hs
  obtain ⟨hresult, hleft⟩ := h s s' hs
  simp only [Action.attempt, runIn_ofFun]
  generalize a.runIn s = x at hresult hleft
  generalize b.runIn s' = y at hresult hleft
  obtain ⟨x, sx⟩ := x
  obtain ⟨y, sy⟩ := y
  cases x with
  | ok v =>
    cases y with
    | ok w => exact ⟨hresult, hleft⟩
    | error => exact hresult.elim
  | error stop =>
    cases y with
    | ok w => exact hresult.elim
    | error stop' =>
      obtain rfl := hresult
      cases stop <;> exact ⟨rfl, hleft⟩

/-- **The rule for attempts:** both have a value, or both are refused for one cause. -/
theorem Agrees.attempt_bind {S : γ → δ → Prop} {f : Except Error α → Action σ γ}
    {g : Except Error β → Action σ δ} (h : Agrees I R a b)
    (hok : ∀ v w, R v w → Agrees I S (f (.ok v)) (g (.ok w)))
    (herror : ∀ cause, Agrees I S (f (.error cause)) (g (.error cause))) :
    Agrees I S (a.attempt >>= f) (b.attempt >>= g) := by
  refine h.attempt.bind fun x y hxy => ?_
  cases x <;> cases y
  · obtain rfl := hxy
    exact herror _
  · exact hxy.elim
  · exact hxy.elim
  · exact hok _ _ hxy

/-- **An agreement carries a value over.** -/
theorem Agrees.of_ok (h : Agrees I R a b) {s s' t : σ} {v : α} (hs : I s s')
    (ha : a.runIn s = (.ok v, t)) : ∃ w t', b.runIn s' = (.ok w, t') ∧ R v w ∧ I t t' := by
  obtain ⟨hresult, hleft⟩ := h s s' hs
  rw [ha] at hresult hleft
  cases hb : b.runIn s' with
  | mk y t' =>
    rw [hb] at hresult hleft
    cases y with
    | ok w => exact ⟨w, t', rfl, hresult, hleft⟩
    | error stop => exact hresult.elim

end Rules

end Action

/-! ## 2. Rows without identifiers and times -/

/-- A posting without its identifier and its time. -/
def Posting.undated (p : Posting) : Posting := { p with id := .ofNat 0, createdAt := 0 }

/-- The records of one movement differ in nothing else. -/
theorem Movement.posting_undated (mv : Movement) (source dest : Wallet) (a b : Decimal)
    (id id' : TransferId) (time time' : Instant) :
    (mv.posting source dest a b id time).undated = (mv.posting source dest a b id' time').undated :=
  rfl

def WalletTable.undated (t : WalletTable) : WalletTable :=
  { t with log := t.log.map Posting.undated }

/-- **The rows,** with the identifiers and times of all postings erased. -/
def Memory.undated (m : Memory) : Memory := m.withWallets m.wallets.undated

def CommitOutcome.undated : CommitOutcome → CommitOutcome
  | .duplicate earlier => .duplicate earlier.undated
  | other => other

namespace WalletTable

variable (t : WalletTable)

theorem byRef?_undated (ref : String) :
    t.undated.byRef? ref = (t.byRef? ref).map Posting.undated := by
  simp only [byRef?, undated]
  cases t.refs.lookup ref with
  | none => rfl
  | some place => exact List.getElem?_map

theorem append_undated (p : Posting) : t.undated.append p.undated = (t.append p).undated := by
  simp only [append, undated, List.map_append, List.length_map, List.map_cons, List.map_nil]
  rfl

/-- Erasing before or after a posting comes to the same. -/
theorem commit_undated (debit credit : BalanceWrite) (p : Posting) :
    t.undated.commit debit credit p.undated =
      (t.commit debit credit p).map fun x => (x.1.undated, x.2.undated) := by
  have htaken : p.undated.ref.bind t.undated.byRef? =
      (p.ref.bind t.byRef?).map Posting.undated := by
    show p.ref.bind t.undated.byRef? = _
    cases p.ref with
    | none => rfl
    | some ref => exact t.byRef?_undated ref
  have hconflict : t.undated.takeConflict? = t.takeConflict?.map undated := by
    simp only [takeConflict?, undated]
    cases t.conflicts <;> rfl
  have hcurrent : ∀ w, t.undated.isCurrent w = t.isCurrent w := fun _ => rfl
  unfold commit
  rw [hconflict, htaken]
  cases t.takeConflict? with
  | some t' => rfl
  | none =>
    cases p.ref.bind t.byRef? with
    | some earlier => rfl
    | none =>
      simp only [Option.map_none, hcurrent]
      -- The versions are looked at in the wallets, which are the same.
      cases t.isCurrent debit with
      | error cause => rfl
      | ok debited =>
        cases t.isCurrent credit with
        | error cause => cases debited <;> rfl
        | ok credited =>
          cases debited <;> cases credited <;> try rfl
          exact congrArg (fun x => Except.ok (CommitOutcome.committed, x))
            (append_undated ((t.write debit).write credit) p)

end WalletTable

namespace Memory

/-- **An answer does not depend on identifiers and times.** -/
def Undated {α : Type} (c : Call α) : Prop :=
  ∀ m : Memory, m.undated.answer c = (m.answer c).map fun x => (x.1, x.2.undated)

theorem undated_createOwner (uuid title level : String) (flags : Int) :
    Undated (.createOwner uuid title level flags) := by
  intro m
  simp only [answer, answering, WalletTable.createOwner]
  show Except.map _ (if (m.wallets.owner? uuid).isSome then _ else _) = _
  split_ifs <;> rfl

theorem undated_createWallet (owner : Owner) (key : WalletKey) (initial : Amount) :
    Undated (.createWallet owner key initial) := by
  intro m
  simp only [answer, answering, WalletTable.createWallet]
  cases WalletTable.checkInitial key initial with
  | error cause => rfl
  | ok _ =>
    show Except.map _ (if (m.wallets.keys.lookup key).isSome then _ else _) = Except.map _
      (Except.map _ (if (m.wallets.keys.lookup key).isSome then _ else _))
    split_ifs <;> rfl

/-- A change of one reservation does not look at the log. -/
theorem undated_changeIf {c : Call Bool} {number : String} {condition : Reservation → Bool}
    {g : Reservation → Reservation}
    (hc : ∀ m : Memory, m.answer c =
      answering m.withReservations (m.reservations.changeIf number condition g)) : Undated c := by
  intro m
  rw [hc, hc]
  show answering _ (m.reservations.changeIf number condition g) = _
  cases m.reservations.changeIf number condition g <;> rfl

/-- Nor does a posting, but for the place of an earlier one. -/
theorem answer_commit_undated (m : Memory) (debit credit : BalanceWrite) (p : Posting) :
    m.undated.answer (.commitPosting debit credit p.undated) =
      (m.answer (.commitPosting debit credit p)).map fun x => (x.1.undated, x.2.undated) := by
  simp only [answer, answering]
  show Except.map _ (Except.map _ (m.wallets.undated.commit debit credit p.undated)) = _
  rw [WalletTable.commit_undated]
  cases m.wallets.commit debit credit p with
  | error cause => rfl
  | ok x =>
    obtain ⟨outcome, table⟩ := x
    cases outcome <;> rfl

end Memory

namespace Ledger

/-- **Two ledgers are alike:** no fault is armed in either, and the rows are the same up to the
identifiers and times of the postings. -/
structure Alike (l l' : Ledger (Faulty Memory)) : Prop where
  sure : l.Sure
  sure' : l'.Sure
  rows : l.memory.undated = l'.memory.undated

section Services

variable {α β : Type} {t : Terms}

/-! ## 3. Primitive actions -/

/-- **Without faults a call is the answer of the memory.** -/
theorem Sure.runIn_ask {l : Ledger (Faulty Memory)} (h : l.Sure) (c : Call α) :
    (ask c).runIn l =
      match l.memory.answer c with
      | .ok (v, m) => (.ok v, { l with stores := { l.stores with stores := m } })
      | .error cause => (.error (.refused cause), l) :=
  runIn_ask_of_spent (h.unarmed ▸ spent_nil) c

/-- **The rule for calls:** it is enough that the answers are the same where `f` erases what may
differ. -/
theorem agrees_ask {c d : Call α} (f : α → β)
    (h : ∀ m m' : Memory, m.undated = m'.undated →
      (m.answer c).map (fun x => (f x.1, x.2.undated)) =
        (m'.answer d).map fun x => (f x.1, x.2.undated)) :
    Agrees Alike (fun v w => f v = f w) (ask c) (ask d) := by
  intro l l' hl
  rw [hl.sure.runIn_ask, hl.sure'.runIn_ask]
  have hanswers := likewise_of_map (h l.memory l'.memory hl.rows)
  generalize l.memory.answer c = x at hanswers
  generalize l'.memory.answer d = y at hanswers
  cases x <;> cases y
  · exact ⟨congrArg Stop.refused hanswers, hl⟩
  · exact hanswers.elim
  · exact hanswers.elim
  · obtain ⟨hvalue, hrows⟩ := Prod.mk.inj hanswers
    exact ⟨hvalue, hl.sure, hl.sure', hrows⟩

/-- A call whose answer does not depend on identifiers and times. -/
theorem agrees_ask_undated {c : Call α} (hc : Memory.Undated c) :
    Agrees Alike Eq (ask c) (ask c) := by
  refine agrees_ask (fun v => v) fun m m' hm => ?_
  rw [← hc, ← hc, hm]

theorem agrees_findPosting (ref : String) :
    Agrees Alike (fun o o' => o.map Posting.undated = o'.map Posting.undated)
      (findPosting ref) (findPosting ref) := by
  refine agrees_ask _ fun m m' hm => ?_
  have hfound := congrArg (fun m => m.wallets.byRef? ref) hm
  simp only [Memory.undated, Memory.withWallets, WalletTable.byRef?_undated] at hfound
  exact congrArg Except.ok (Prod.ext hfound hm)

theorem agrees_commitPosting (debit credit : BalanceWrite) {p p' : Posting}
    (hp : p.undated = p'.undated) :
    Agrees Alike (fun o o' => o.undated = o'.undated)
      (ask (.commitPosting debit credit p)) (ask (.commitPosting debit credit p')) := by
  refine agrees_ask _ fun m m' hm => ?_
  rw [← Memory.answer_commit_undated, ← Memory.answer_commit_undated, hm, hp]

/-- An action that reads what is beside the stores, or writes there, leaves the rows as they are. -/
theorem agrees_beside {R : α → β → Prop} {a : Action (Ledger (Faulty Memory)) α}
    {b : Action (Ledger (Faulty Memory)) β} (ha : ∀ l, ∃ v l', a.runIn l = (.ok v, l') ∧
      l'.stores = l.stores) (hb : ∀ l, ∃ v l', b.runIn l = (.ok v, l') ∧ l'.stores = l.stores)
    (hR : ∀ v w, R v w) : Agrees Alike R a b := by
  intro l l' hl
  obtain ⟨v, l₁, hrun, hstores⟩ := ha l
  obtain ⟨w, l₁', hrun', hstores'⟩ := hb l'
  rw [hrun, hrun']
  refine ⟨hR v w, ?_, ?_, ?_⟩
  · exact fun mode ⟨fault, hfault, hmode⟩ => hl.sure mode ⟨fault, hstores ▸ hfault, hmode⟩
  · exact fun mode ⟨fault, hfault, hmode⟩ => hl.sure' mode ⟨fault, hstores' ▸ hfault, hmode⟩
  · show l₁.stores.stores.undated = l₁'.stores.stores.undated
    rw [hstores, hstores']
    exact hl.rows

theorem agrees_now : Agrees Alike (fun _ _ => True) (now (σ := Faulty Memory)) now :=
  agrees_beside (fun _ => ⟨_, _, rfl, rfl⟩) (fun _ => ⟨_, _, rfl, rfl⟩) fun _ _ => trivial

theorem agrees_fresh : Agrees Alike (fun _ _ => True) (fresh (σ := Faulty Memory)) fresh :=
  agrees_beside (fun _ => ⟨_, _, rfl, rfl⟩) (fun _ => ⟨_, _, rfl, rfl⟩) fun _ _ => trivial

theorem agrees_report (e e' : Event) :
    Agrees Alike Eq (report (σ := Faulty Memory) e) (report e') :=
  agrees_beside (fun _ => ⟨_, _, rfl, rfl⟩) (fun _ => ⟨_, _, rfl, rfl⟩) fun _ _ => rfl

theorem agrees_count (c : Category) :
    Agrees Alike Eq (count (σ := Faulty Memory) t c) (count t c) := by
  refine agrees_beside (fun l => ⟨(), _, rfl, ?_⟩) (fun l => ⟨(), _, rfl, ?_⟩) fun _ _ => rfl <;>
  · dsimp only
    split <;> rfl

/-! ## 4. What transfers are made of -/

theorem agrees_retry {R : α → α → Prop} {exhausted : Error}
    {a : Action (Ledger (Faulty Memory)) (Option α)} (hR : ∀ v w, R v w)
    (ha : Agrees Alike (fun o o' => o.isSome = o'.isSome) a a) (attempts : Nat) :
    Agrees Alike R (retry exhausted a attempts) (retry exhausted a attempts) := by
  induction attempts with
  | zero => exact agrees_refuse exhausted
  | succ n ih =>
    unfold retry
    refine ha.bind fun o o' ho => ?_
    cases o <;> cases o'
    · exact ih
    · cases ho
    · cases ho
    · exact agrees_pure (hR _ _)

theorem agrees_loadWallet (id : Int) : Agrees Alike Eq (loadWallet id) (loadWallet id) := by
  refine (agrees_ask_undated (c := .findWalletById id) fun _ => rfl).next fun found => ?_
  exact agrees_orRefuse _ _

theorem agrees_requireActive (symbol : String) :
    Agrees Alike Eq (requireActive symbol) (requireActive symbol) := by
  unfold requireActive requireCurrency
  refine Agrees.next ?_ fun currency => ?_
  · refine (agrees_ask_undated (c := .findCurrency symbol) fun _ => rfl).next fun found => ?_
    exact agrees_orRefuse _ _
  · exact (agrees_require _ _).next fun _ => agrees_pure rfl

theorem agrees_requireOwner (uuid : String) :
    Agrees Alike Eq (requireOwner uuid) (requireOwner uuid) := by
  refine (agrees_ask_undated (c := .findOwner uuid) fun _ => rfl).next fun found => ?_
  exact agrees_orRefuse _ _

theorem agrees_createOwner (uuid title level : String) :
    Agrees Alike Eq (createOwner uuid title level) (createOwner uuid title level) := by
  refine (agrees_ask_undated (Memory.undated_createOwner uuid title level _)).next fun owner => ?_
  exact (agrees_report _ _).next fun _ => agrees_pure rfl

theorem agrees_findOrCreateOwner (uuid : String) :
    Agrees Alike Eq (findOrCreateOwner uuid) (findOrCreateOwner uuid) := by
  unfold findOrCreateOwner
  refine (agrees_ask_undated (c := .findOwner uuid) fun _ => rfl).next fun found => ?_
  cases found with
  | some owner => exact agrees_pure rfl
  | none =>
    exact (agrees_createOwner uuid _ _).attempt_bind (fun _ _ h => agrees_pure h)
      fun _ => agrees_requireOwner uuid

theorem agrees_requireWallet (owner : Owner) (currency : String) (kind : WalletKind) :
    Agrees Alike Eq (requireWallet owner currency kind) (requireWallet owner currency kind) := by
  unfold requireWallet findWallet
  refine (agrees_ask_undated (c := .findWallet _) fun _ => rfl).next fun found => ?_
  exact agrees_orRefuse _ _

theorem agrees_findOrCreateWallet (owner : Owner) (currency : String) (kind : WalletKind) :
    Agrees Alike Eq (findOrCreateWallet owner currency kind)
      (findOrCreateWallet owner currency kind) := by
  unfold findOrCreateWallet findWallet createWallet
  refine (agrees_ask_undated (c := .findWallet _) fun _ => rfl).next fun found => ?_
  cases found with
  | some wallet => exact agrees_pure rfl
  | none =>
    refine (agrees_ask_undated (Memory.undated_createWallet owner _ _)).attempt_bind
      (fun _ _ h => agrees_pure h) fun cause => ?_
    cases cause with
    | walletExists => exact agrees_requireWallet owner currency kind
    | _ => exact agrees_refuse _

/-! ## 5. Posting -/

theorem agrees_earlierPosting (mv : Movement) :
    Agrees Alike (fun o o' => o.map Posting.undated = o'.map Posting.undated)
      (earlierPosting mv) (earlierPosting mv) := by
  unfold earlierPosting
  cases mv.ref with
  | none => exact agrees_pure rfl
  | some ref => exact agrees_findPosting ref

/-- Whether a movement is replayed does not depend on the identifier and the time either. -/
theorem likewise_replay (mv : Movement) {p p' : Posting} (hp : p.undated = p'.undated) :
    Likewise (fun _ _ => True) (mv.replay p) (mv.replay p') := by
  have hrecorded := congrArg mv.isRecordedBy hp
  have href := congrArg Posting.ref hp
  change mv.isRecordedBy p = mv.isRecordedBy p' at hrecorded
  change p.ref = p'.ref at href
  unfold Movement.replay
  rw [hrecorded, href]
  split
  · trivial
  · rfl

theorem agrees_tryPost (access : Access) (mv : Movement) :
    Agrees Alike (fun o o' => o.isSome = o'.isSome) (tryPost (σ := Faulty Memory) t access mv)
      (tryPost t access mv) := by
  unfold tryPost
  refine (agrees_loadWallet _).next fun source => ?_
  refine (agrees_loadWallet _).next fun dest => ?_
  refine (agrees_ofExcept (likewise_refl _)).next fun _ => ?_
  refine (agrees_ofExcept (likewise_refl _)).next fun sourceAfter => ?_
  refine (agrees_ofExcept (likewise_refl _)).next fun destAfter => ?_
  -- From here on the two runs write postings of their own.
  refine agrees_fresh.bind fun ids ids' _ => agrees_now.bind fun time time' _ => ?_
  refine (agrees_commitPosting _ _ (mv.posting_undated ..)).bind fun outcome outcome' hout => ?_
  cases outcome with
  | committed =>
    cases outcome' with
    | committed => exact (agrees_count mv.category).next fun _ => agrees_pure rfl
    | _ => cases hout
  | duplicate earlier =>
    cases outcome' with
    | duplicate earlier' =>
      have hreplay := likewise_replay mv (CommitOutcome.duplicate.inj hout)
      exact (agrees_ofExcept hreplay).map fun _ _ _ => rfl
    | _ => cases hout
  | versionConflict =>
    cases outcome' with
    | versionConflict => exact agrees_pure rfl
    | _ => cases hout

theorem agrees_post (access : Access) (mv : Movement) :
    Agrees Alike (fun _ _ => True) (post (σ := Faulty Memory) t access mv) (post t access mv) := by
  unfold post
  refine (agrees_ofExcept (likewise_refl _)).next fun _ => ?_
  refine (agrees_ofExcept (likewise_refl _)).next fun _ => ?_
  refine (agrees_earlierPosting mv).bind fun found found' hfound => ?_
  cases found <;> cases found'
  · exact agrees_retry (fun _ _ => trivial) (agrees_tryPost access mv) _
  · cases hfound
  · cases hfound
  · exact agrees_ofExcept (likewise_replay mv (Option.some.inj hfound))

/-- **A transfer agrees with itself** on ledgers that are alike. -/
theorem agrees_transfer (r : TransferRequest) :
    Agrees Alike (fun _ _ => True) (transfer (σ := Faulty Memory) t r) (transfer t r) := by
  unfold transfer
  refine (agrees_require _ _).next fun _ => ?_
  refine (agrees_requireActive _).next fun currency => ?_
  refine (agrees_ofExcept (likewise_refl _)).next fun amount => ?_
  refine (agrees_requireOwner _).next fun sender => ?_
  refine (agrees_requireWallet _ _ _).next fun source => ?_
  refine (agrees_findOrCreateOwner _).next fun receiver => ?_
  refine (agrees_findOrCreateWallet _ _ _).next fun dest => ?_
  exact agrees_post _ _

/-! ## 6. Settling -/

variable {r : Reservation} {s : Settlement}

theorem agrees_postLeg (leg : Leg) :
    Agrees Alike (fun _ _ => True) (postLeg (σ := Faulty Memory) t r s leg) (postLeg t r s leg) :=
  agrees_transfer _

theorem agrees_clearSettlement (number : String) :
    Agrees Alike Eq (ask (σ := Faulty Memory) (.clearSettlement number))
      (ask (.clearSettlement number)) :=
  agrees_ask_undated (Memory.undated_changeIf fun _ => rfl)

theorem agrees_updateStatusIf (number : String) (expected status : ReservationStatus) :
    Agrees Alike Eq (ask (σ := Faulty Memory) (.updateStatusIf number expected status))
      (ask (.updateStatusIf number expected status)) :=
  agrees_ask_undated (Memory.undated_changeIf fun _ => rfl)

theorem agrees_giveUpUnlessPosted :
    Agrees Alike (fun _ _ => True) (giveUpUnlessPosted (σ := Faulty Memory) r s)
      (giveUpUnlessPosted r s) := by
  unfold giveUpUnlessPosted
  refine (agrees_findPosting _).bind fun found found' hfound => ?_
  cases found <;> cases found'
  · exact (agrees_clearSettlement _).next fun _ => agrees_pure trivial
  · cases hfound
  · cases hfound
  · exact agrees_pure trivial

theorem agrees_refundAndGiveUp :
    Agrees Alike (fun _ _ => True) (refundAndGiveUp (σ := Faulty Memory) t r s)
      (refundAndGiveUp t r s) := by
  unfold refundAndGiveUp
  refine (agrees_postLeg .refund).attempt_bind (fun _ _ _ => ?_) fun _ => agrees_pure trivial
  exact (agrees_clearSettlement _).next fun _ => agrees_pure trivial

/-- **A settlement agrees with itself** on ledgers that are alike. -/
theorem agrees_settle :
    Agrees Alike (fun _ _ => True) (settle (σ := Faulty Memory) t r s) (settle t r s) := by
  unfold settle
  refine (agrees_postLeg .withdraw).attempt_bind (fun _ _ _ => ?_) fun _ => ?_
  · refine (agrees_postLeg .deposit).attempt_bind (fun _ _ _ => ?_) fun _ => ?_
    · exact (agrees_updateStatusIf _ _ _).next fun _ => agrees_pure trivial
    · exact agrees_refundAndGiveUp.bind fun _ _ _ => agrees_refuse _
  · exact agrees_giveUpUnlessPosted.bind fun _ _ _ => agrees_refuse _

end Services

end Ledger

end WalletLedger
