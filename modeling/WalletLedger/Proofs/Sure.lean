/-
Runs in which no call fails.

The lemmas of `Services.lean` and `Engine.lean` hold under any faults, so what they say of a stop is
that little was written before it. Where no fault is armed, more can be said: whether an action
succeeds depends on the memory alone (`Succeeds`, and `Reads` where nothing is written). Actions
that succeed compose, so a service that finds everything it looks up does not stop, and neither does
a posting that the rows take (`WalletTable.Takes`, `succeeds_post_taken`).
-/
import WalletLedger.Proofs.EarlyCalls
import WalletLedger.Proofs.Services
import WalletLedger.Proofs.Versions

set_option autoImplicit false

namespace WalletLedger

open WalletLedger.Action

namespace Ledger

variable {α β : Type} {t : Terms}

/-! ## 1. Calls that are answered -/

/-- **Where no fault is armed, the memory answers.** -/
theorem Sure.ends_ask {l : Ledger (Faulty Memory)} (h : l.Sure) {c : Call α}
    {Q : α → Ledger (Faulty Memory) → Prop} {E : Stop → Ledger (Faulty Memory) → Prop}
    (answered : ∀ v l', l.Follows l' → l.memory.answer c = .ok (v, l'.memory) → Q v l')
    (refused : ∀ cause l', l.Still l' → l.memory.answer c = .error cause → E (.refused cause) l') :
    (ask c).Ends Q E l :=
  ends_ask_cases answered (fun _ _ _ hmiss _ => absurd hmiss (h _)) refused
    (fun _ _ _ _ hmode => absurd hmode (h _)) fun _ _ _ _ hafter _ => absurd hafter (h _)

theorem Sure.unarmed {l : Ledger (Faulty Memory)} (h : l.Sure) : l.stores.armed = [] :=
  List.eq_nil_iff_forall_not_mem.2 fun fault hfault => h fault.mode ⟨fault, hfault, rfl⟩

/-- A call that only reads leaves even the faults as they are, since there are none. -/
theorem Sure.answers_ask {l : Ledger (Faulty Memory)} (h : l.Sure) {c : Call α} {v : α}
    (hc : l.memory.answer c = .ok (v, l.memory)) : (ask c).Answers v l := by
  rw [Answers, runIn_ask_of_spent (h.unarmed ▸ spent_nil), hc]
  rfl

namespace Sure

/-! What is looked up and there is answered. -/

variable {l : Ledger (Faulty Memory)}

theorem answers_loadWallet (h : l.Sure) {id : Int} {w : Wallet}
    (hw : l.memory.wallets.wallet? id = some w) : (loadWallet id).Answers w l :=
  (h.answers_ask (c := .findWalletById id) rfl).bind (answers_orRefuse hw)

theorem answers_findPosting (h : l.Sure) (ref : String) :
    (findPosting ref).Answers (l.memory.wallets.byRef? ref) l :=
  h.answers_ask rfl

theorem answers_earlierPosting (h : l.Sure) (mv : Movement) :
    (earlierPosting mv).Answers (mv.ref.bind l.memory.wallets.byRef?) l := by
  unfold earlierPosting
  cases mv.ref with
  | none => exact answers_pure none
  | some ref => exact h.answers_ask rfl

theorem answers_requireActive (h : l.Sure) {symbol : String} {c : Currency}
    (hc : l.memory.currencies.find? symbol = some c) (active : c.isActive = true) :
    (requireActive symbol).Answers c l := by
  unfold requireActive requireCurrency
  refine Answers.bind (v := c) ?_ ((answers_require active).bind (answers_pure c))
  exact (h.answers_ask (c := .findCurrency symbol) rfl).bind (answers_orRefuse hc)

theorem answers_requireOwner (h : l.Sure) {uuid : String} {o : Owner}
    (ho : l.memory.wallets.owner? uuid = some o) : (requireOwner uuid).Answers o l :=
  (h.answers_ask (c := .findOwner uuid) rfl).bind (answers_orRefuse ho)

theorem answers_findOrCreateOwner (h : l.Sure) {uuid : String} {o : Owner}
    (ho : l.memory.wallets.owner? uuid = some o) : (findOrCreateOwner uuid).Answers o l := by
  have hread : (ask (.findOwner uuid)).Answers (some o) l := ho ▸ h.answers_ask rfl
  exact hread.bind (answers_pure o)

section Wallets

variable {owner : Owner} {currency : String} {kind : WalletKind} {w : Wallet}

theorem answers_findWallet (h : l.Sure)
    (hw : l.memory.wallets.find? ⟨owner.id, currency, kind⟩ = some w) :
    (findWallet owner currency kind).Answers (some w) l :=
  hw ▸ h.answers_ask rfl

theorem answers_requireWallet (h : l.Sure)
    (hw : l.memory.wallets.find? ⟨owner.id, currency, kind⟩ = some w) :
    (requireWallet owner currency kind).Answers w l :=
  (h.answers_findWallet hw).bind (answers_orRefuse rfl)

theorem answers_findOrCreateWallet (h : l.Sure)
    (hw : l.memory.wallets.find? ⟨owner.id, currency, kind⟩ = some w) :
    (findOrCreateWallet owner currency kind).Answers w l :=
  (h.answers_findWallet hw).bind (answers_pure w)

end Wallets

end Sure

/-- **From this memory the action succeeds** in every ledger where no fault is armed, and afterwards
none is armed either. -/
def Succeeds (a : Action (Ledger (Faulty Memory)) α) (Q : α → Memory → Prop) (m : Memory) : Prop :=
  ∀ l : Ledger (Faulty Memory), l.Sure → l.memory = m →
    a.Ends (fun v l' => l'.Sure ∧ Q v l'.memory) (fun _ _ => False) l

/-- **The action has a value, and it writes nothing.** -/
def Reads (a : Action (Ledger (Faulty Memory)) α) (v : α) (m : Memory) : Prop :=
  Succeeds a (fun w m' => w = v ∧ m' = m) m

section Answered

variable {a : Action (Ledger (Faulty Memory)) α} {b : α → Action (Ledger (Faulty Memory)) β}
  {Q : α → Memory → Prop} {R : β → Memory → Prop} {v : α} {m m' : Memory}

theorem Succeeds.ends {l : Ledger (Faulty Memory)} (ha : Succeeds a Q l.memory) (h : l.Sure) :
    a.Ends (fun v l' => Q v l'.memory) (fun _ _ => False) l :=
  Ends.mono (ha l h rfl) (fun _ _ hv => hv.2) fun _ _ => id

theorem Succeeds.mono {Q' : α → Memory → Prop} (ha : Succeeds a Q m)
    (hQ : ∀ v m', Q v m' → Q' v m') : Succeeds a Q' m := fun l hl hm =>
  Ends.mono (ha l hl hm) (fun v l' hv => ⟨hv.1, hQ v l'.memory hv.2⟩) fun _ _ => id

/-- Actions that succeed compose. -/
theorem Succeeds.bind (ha : Succeeds a Q m) (hb : ∀ v m', Q v m' → Succeeds (b v) R m') :
    Succeeds (a >>= b) R m := by
  intro l hl hm
  rw [ends_bind]
  exact Ends.mono (ha l hl hm) (fun v l' hv => hb v l'.memory hv.2 l' hv.1 rfl) fun _ _ => id

/-- **After reading** the rest runs from the same memory. -/
theorem Reads.bind (ha : Reads a v m) (hb : Succeeds (b v) R m) : Succeeds (a >>= b) R m := by
  refine Succeeds.bind ha fun w m' hw => ?_
  obtain ⟨rfl, rfl⟩ := hw
  exact hb

theorem succeeds_pure (h : Q v m) : Succeeds (pure v) Q m := by
  rintro l hl rfl
  exact ⟨hl, h⟩

/-- What is answered is read. -/
theorem reads_of_answers
    (h : ∀ l : Ledger (Faulty Memory), l.Sure → l.memory = m → a.Answers v l) : Reads a v m := by
  intro l hl hm
  unfold Ends
  rw [h l hl hm]
  exact ⟨hl, rfl, hm⟩

theorem reads_ofExcept {r : Except Error α} (h : r = .ok v) : Reads (ofExcept r) v m :=
  reads_of_answers fun _ _ _ => answers_ofExcept h

theorem reads_require {cause : Error} {b : Bool} (h : b = true) :
    Reads (require cause b) () m :=
  reads_of_answers fun _ _ _ => answers_require h

theorem reads_fresh : Reads fresh m.fresh m := by
  rintro l hl rfl
  exact ⟨hl, rfl, rfl⟩

/-- The clock is not in the memory, so it may show any time. -/
theorem succeeds_now : Succeeds now (fun _ m' => m' = m) m := fun _ hl hm => ⟨hl, hm⟩

theorem reads_count (k : Category) : Reads (count t k) () m :=
  fun _ hl hm => ends_count t k fun _ hstill => ⟨hstill.sure hl, rfl, hstill.memory.trans hm⟩

/-- A call that the memory accepts has its effect, and the caller hears of it. -/
theorem succeeds_ask {c : Call α} (hc : m.answer c = .ok (v, m')) :
    Succeeds (ask c) (fun w m₁ => w = v ∧ m₁ = m') m := by
  rintro l hl rfl
  refine hl.ends_ask (fun w l' hfollows ha => ?_) fun cause _ _ ha => ?_
  · rw [hc] at ha
    cases ha
    exact ⟨hfollows.sure hl, rfl, rfl⟩
  · rw [hc] at ha
    cases ha

theorem reads_loadWallet {id : Int} {w : Wallet} (hw : m.wallets.wallet? id = some w) :
    Reads (loadWallet id) w m :=
  reads_of_answers fun _ hl hm => hl.answers_loadWallet (hm ▸ hw)

theorem reads_findPosting (ref : String) : Reads (findPosting ref) (m.wallets.byRef? ref) m :=
  reads_of_answers fun _ hl hm => hm ▸ hl.answers_findPosting ref

theorem reads_earlierPosting (mv : Movement) :
    Reads (earlierPosting mv) (mv.ref.bind m.wallets.byRef?) m :=
  reads_of_answers fun _ hl hm => hm ▸ hl.answers_earlierPosting mv

theorem reads_requireActive {symbol : String} {c : Currency}
    (hc : m.currencies.find? symbol = some c) (active : c.isActive = true) :
    Reads (requireActive symbol) c m :=
  reads_of_answers fun _ hl hm => hl.answers_requireActive (hm ▸ hc) active

theorem reads_requireOwner {uuid : String} {o : Owner} (ho : m.wallets.owner? uuid = some o) :
    Reads (requireOwner uuid) o m :=
  reads_of_answers fun _ hl hm => hl.answers_requireOwner (hm ▸ ho)

theorem reads_findOrCreateOwner {uuid : String} {o : Owner}
    (ho : m.wallets.owner? uuid = some o) : Reads (findOrCreateOwner uuid) o m :=
  reads_of_answers fun _ hl hm => hl.answers_findOrCreateOwner (hm ▸ ho)

section Wallets

variable {owner : Owner} {currency : String} {kind : WalletKind} {w : Wallet}

theorem reads_requireWallet (hw : m.wallets.find? ⟨owner.id, currency, kind⟩ = some w) :
    Reads (requireWallet owner currency kind) w m :=
  reads_of_answers fun _ hl hm => hl.answers_requireWallet (hm ▸ hw)

theorem reads_findOrCreateWallet (hw : m.wallets.find? ⟨owner.id, currency, kind⟩ = some w) :
    Reads (findOrCreateWallet owner currency kind) w m :=
  reads_of_answers fun _ hl hm => hl.answers_findOrCreateWallet (hm ▸ hw)

end Wallets

/-- **A change of one reservation is made** where the row that is found meets its condition. -/
theorem succeeds_changeIf {c : Call Bool} {number : String} {r : Reservation}
    {condition : Reservation → Bool} {g : Reservation → Reservation}
    (hc : m.answer c =
      Memory.answering m.withReservations (m.reservations.changeIf number condition g))
    (hr : m.reservations.find? number = some r) (hcondition : condition r = true) :
    Succeeds (ask c) (fun w m' => w = true ∧
      m' = m.withReservations (m.reservations.amended number g)) m := by
  refine succeeds_ask ?_
  rw [hc, ReservationTable.changeIf, hr]
  simp only [hcondition, if_true]
  rfl

end Answered

/-! ## 2. Movements that are taken -/

end Ledger

/-- **The rows take a movement:** a posting of it can be made between the wallets that have its
numbers. It may describe them otherwise than they are, as long as it may move funds between those
that it describes. -/
structure WalletTable.Takes (table : WalletTable) (access : Access) (mv : Movement) : Prop where
  allowed : access.check mv.source mv.dest = .ok ()
  posts : ∃ p table', table.Posts access mv p table'

theorem WalletTable.Takes.checked {table : WalletTable} {access : Access} {mv : Movement}
    (h : table.Takes access mv) : mv.check = .ok () := by
  obtain ⟨-, p, table', hposts⟩ := h
  cases hposts with
  | made _ _ _ _ _ _ checked => exact checked

theorem WalletTable.Takes.unused {table : WalletTable} {access : Access} {mv : Movement}
    (h : table.Takes access mv) : mv.ref.bind table.byRef? = none := by
  obtain ⟨-, p, table', hposts⟩ := h
  cases hposts with
  | made _ _ _ _ _ _ _ _ _ _ _ _ unused => exact unused

/-- **A movement that is in order,** if its wallets are as it describes them. -/
structure Movement.Fits (mv : Movement) (access : Access) : Prop where
  checked : mv.check = .ok ()
  allowed : access.check mv.source mv.dest = .ok ()
  debit : ∃ balance, mv.source.balanceAfter mv.debit = .ok balance
  credit : ∃ balance, mv.dest.balanceAfter mv.destAmount = .ok balance

namespace Memory

variable {m : Memory} {access : Access} {mv : Movement} {p : Posting}

/-- **A movement that can be posted at once:** its wallets are as it describes them, its reference
is new, and nobody is to be told to wait. -/
structure Affords (m : Memory) (access : Access) (mv : Movement) : Prop extends
    mv.Fits access where
  source : m.wallets.wallet? mv.source.id = some mv.source
  dest : m.wallets.wallet? mv.dest.id = some mv.dest
  unused : mv.ref.bind m.wallets.byRef? = none
  unhurried : m.wallets.conflicts = 0

theorem Affords.takes (h : m.Affords access mv) : m.wallets.Takes access mv := by
  obtain ⟨sourceAfter, debit⟩ := h.debit
  obtain ⟨destAfter, credit⟩ := h.credit
  exact ⟨h.allowed, _, _, .made mv.source mv.dest sourceAfter destAfter default 0 h.checked
    h.source h.dest h.allowed debit credit h.unused⟩

/-- The rows with a posting between two wallets, and what it makes of them. -/
def withPosting (m : Memory) (source dest : Wallet) (a b : Decimal) (p : Posting) : Memory :=
  { m.withWallets (((m.wallets.write (source.write a)).write (dest.write b)).append p) with
    posted := m.posted + 1 }

/-- Without conflicts pending, a posting between two wallets that were just read is made, if its
reference is free. -/
theorem answer_commit_free {source dest : Wallet} {i j : Int} (hcalm : m.wallets.conflicts = 0)
    (hsource : m.wallets.wallet? i = some source) (hdest : m.wallets.wallet? j = some dest)
    (hfree : p.ref.bind m.wallets.byRef? = none) (a b : Decimal) :
    m.answer (.commitPosting (source.write a) (dest.write b) p) =
      .ok (.committed, m.withPosting source dest a b p) := by
  obtain rfl := WalletTable.wallet?_id hsource
  obtain rfl := WalletTable.wallet?_id hdest
  have hcommit : m.wallets.commit (source.write a) (dest.write b) p =
      .ok (.committed, ((m.wallets.write (source.write a)).write (dest.write b)).append p) := by
    rw [WalletTable.commit, WalletTable.takeConflict?, hcalm]
    simp only [hfree, WalletTable.isCurrent_write hsource, WalletTable.isCurrent_write hdest, bind,
      Except.bind, if_true]
    rfl
  exact congrArg (fun x => (answering m.withWallets x).map notePosted) hcommit

end Memory

namespace Ledger

variable {t : Terms} {m : Memory} {access : Access} {mv : Movement}

/-- The first attempt has a receipt. -/
theorem succeeds_tryPost (hmv : m.wallets.Takes access mv) (hcalm : m.wallets.conflicts = 0) :
    Succeeds (tryPost t access mv) (fun o _ => o.isSome = true) m := by
  obtain ⟨-, p, table, hposts⟩ := hmv
  cases hposts with
  | made source dest sourceAfter destAfter id createdAt checked hsource hdest allowed debit credit
      unused =>
    unfold tryPost
    refine (reads_loadWallet hsource).bind ((reads_loadWallet hdest).bind ?_)
    refine (reads_ofExcept allowed).bind ?_
    refine (reads_ofExcept debit).bind ((reads_ofExcept credit).bind ?_)
    refine reads_fresh.bind (succeeds_now.bind fun now m₁ hm => ?_)
    rw [hm]
    -- Both versions are those that were read, and nothing else can delay the commit.
    have hanswer := Memory.answer_commit_free
      (p := mv.posting source dest sourceAfter destAfter m.fresh.transfer now) hcalm hsource hdest
      unused sourceAfter destAfter
    refine (succeeds_ask hanswer).bind fun outcome m₂ houtcome => ?_
    obtain ⟨rfl, -⟩ := houtcome
    exact (reads_count mv.category).bind (succeeds_pure rfl)

/-- **What the rows take is posted,** if nobody has to wait and it is tried at all. -/
theorem succeeds_post_taken (hmv : m.wallets.Takes access mv) (hcalm : m.wallets.conflicts = 0)
    (ht : 0 < t.maxAttempts) : Succeeds (post t access mv) (fun _ _ => True) m := by
  have hearlier : Reads (earlierPosting mv) none m := hmv.unused ▸ reads_earlierPosting mv
  unfold post
  refine (reads_ofExcept hmv.checked).bind ((reads_ofExcept hmv.allowed).bind (hearlier.bind ?_))
  obtain ⟨n, hn⟩ := Nat.exists_eq_succ_of_ne_zero (Nat.ne_of_gt ht)
  simp only [hn]
  unfold retry
  refine (succeeds_tryPost hmv hcalm).bind fun o m₁ ho => ?_
  obtain ⟨receipt, rfl⟩ := Option.isSome_iff_exists.1 ho
  exact succeeds_pure trivial

theorem succeeds_post (hmv : m.Affords access mv) (ht : 0 < t.maxAttempts) :
    Succeeds (post t access mv) (fun _ _ => True) m :=
  succeeds_post_taken hmv.takes hmv.unhurried ht

/-- **Without an attempt nothing new is posted.** -/
theorem ends_post_tried {l : Ledger (Faulty Memory)}
    (hmv : mv.ref.bind l.memory.wallets.byRef? = none) :
    (post t access mv).Ends (fun _ _ => 0 < t.maxAttempts) (fun _ _ => True) l := by
  have stopped : ∀ (_ : Stop) l', l.Still l' → True := fun _ _ _ => trivial
  unfold post
  refine (Still.refl l).next still_ofExcept stopped fun _ l₁ h₁ _ => ?_
  refine h₁.next still_ofExcept stopped fun _ l₂ h₂ _ => ?_
  refine h₂.next (within_earlierPosting mv) stopped fun found l₃ h₃ hfound => ?_
  cases found with
  | some p =>
    have hfound := hfound p rfl
    rw [h₂.memory, hmv] at hfound
    cases hfound
  | none =>
    show (retry _ (tryPost t access mv) t.maxAttempts).Ends _ _ _
    cases t.maxAttempts with
    | zero => trivial
    | succ n => exact ends_iff.2 ⟨fun _ _ => Nat.succ_pos n, fun _ _ => trivial⟩

end Ledger

end WalletLedger
