/-
Cashout wallets are out of reach of everything but the withdrawal flow.

A movement brings its own copies of the two wallets, and a caller can make them up: a cashout wallet
can be called a main wallet. The kind that the caller claims is checked first, but it is the kind in
the stores that decides, at each attempt again. So a posting without custody never has a cashout
wallet on either side (`Posts.sparesCashout`), whatever the movement says.

The rest is a frame: the writes of a service that has no custody are not edits, and their postings
are generic (`Effect.IsGeneric`); each of them leaves the cashout wallets as they are
(`Change.sparesCashout`); so any number of them does, and any run of acts. Nothing is assumed of the
ledger that the run starts from, as what is there is not believed either.
-/
import WalletLedger.Proofs.Acts
import WalletLedger.Proofs.Backing

set_option autoImplicit false

namespace WalletLedger

open WalletLedger.Action

/-! ## 1. Tables -/

/-- **A side that is no cashout wallet,** neither by the record nor in the table. -/
def Side.IsGeneric (t : WalletTable) (s : Side) : Prop :=
  s.kind ≠ .cashout ∧ ∃ w, t.wallet? s.walletId = some w ∧ w.kind = s.kind

namespace WalletTable

variable {t t' t'' : WalletTable} {id : Int} {w : Wallet}

/-- **The cashout wallets are left as they are,** in balance, version and everything else, and what
is added to the log is about other wallets. -/
structure SparesCashout (t t' : WalletTable) : Prop where
  kept : ∀ id w, t.wallet? id = some w → w.kind = .cashout → t'.wallet? id = some w
  same : ∀ id w, t.wallet? id = some w → ∃ x, t'.wallet? id = some x ∧ w.Same x
  log : ∃ ps, t'.log = t.log ++ ps ∧ ∀ p ∈ ps, p.source.IsGeneric t' ∧ p.dest.IsGeneric t'

namespace SparesCashout

/-- The wallets and the log are not touched at all. -/
theorem of_eq (hwallets : t'.wallets = t.wallets) (hlog : t'.log = t.log) : t.SparesCashout t' := by
  have hfind : ∀ id, t'.wallet? id = t.wallet? id := fun id => by rw [wallet?, wallet?, hwallets]
  refine ⟨fun id w hw _ => (hfind id).trans hw, fun id w hw => ⟨w, (hfind id).trans hw, .refl w⟩,
    [], ?_, fun _ hp => absurd hp List.not_mem_nil⟩
  rw [hlog, List.append_nil]

/-- A side that is generic stays so, as wallets keep their kinds. -/
theorem isGeneric (h : t.SparesCashout t') {s : Side} (hs : s.IsGeneric t) : s.IsGeneric t' := by
  obtain ⟨hkind, w, hw, hwkind⟩ := hs
  obtain ⟨x, hx, hsame⟩ := h.same _ _ hw
  exact ⟨hkind, x, hx, hsame.kind.symm.trans hwkind⟩

theorem trans (h : t.SparesCashout t') (h' : t'.SparesCashout t'') : t.SparesCashout t'' := by
  refine ⟨fun id w hw hkind => h'.kept id w (h.kept id w hw hkind) hkind, fun id w hw => ?_, ?_⟩
  · obtain ⟨x, hx, hwx⟩ := h.same id w hw
    obtain ⟨y, hy, hxy⟩ := h'.same id x hx
    exact ⟨y, hy, hwx.trans hxy⟩
  · obtain ⟨ps, hps, hgeneric⟩ := h.log
    obtain ⟨qs, hqs, hgeneric'⟩ := h'.log
    refine ⟨ps ++ qs, by rw [hqs, hps, List.append_assoc], fun p hp => ?_⟩
    rcases List.mem_append.1 hp with hp | hp
    · exact (hgeneric p hp).imp h'.isGeneric h'.isGeneric
    · exact hgeneric' p hp

/-- Opening a wallet, of whatever kind. -/
theorem createWallet {owner : Owner} {key : WalletKey} {initial : Amount}
    (h : t.createWallet owner key initial = .ok (w, t')) : t.SparesCashout t' := by
  obtain ⟨-, -, -, -, rfl⟩ := createWallet_eq h
  have hfind : ∀ id v, t.wallet? id = some v → (t.wallets ++ [w]).find? (·.id == id) = some v :=
    fun id v hv => by
      rw [List.find?_append]
      exact Option.or_eq_some_iff.2 (.inl hv)
  exact ⟨fun id v hv _ => hfind id v hv, fun id v hv => ⟨v, hfind id v hv, .refl v⟩,
    [], (List.append_nil _).symm, fun _ hp => absurd hp List.not_mem_nil⟩

end SparesCashout

/-- **A posting without custody** leaves the cashout wallets as they are, whatever the movement says
of its wallets. -/
theorem Posts.sparesCashout {mv : Movement} {p : Posting} (h : t.Posts .generic mv p t') :
    t.SparesCashout t' := by
  have hsame := fun id w (hw : t.wallet? id = some w) => h.same_of_wallet? hw
  refine ⟨fun id w hw hkind => ?_, hsame, [p], h.log, fun q hq => ?_⟩
  · cases h with
    | made source dest _ _ _ _ _ hsource hdest allowed =>
      obtain ⟨hs, hd⟩ := Access.check_generic_iff.1 allowed
      -- The wallets that are written are generic, and this one is not.
      have hne : id ≠ source.id := by
        rintro rfl
        rw [wallet?_id hsource, hsource] at hw
        exact hs (Option.some.inj hw ▸ hkind)
      have hne' : id ≠ dest.id := by
        rintro rfl
        rw [wallet?_id hdest, hdest] at hw
        exact hd (Option.some.inj hw ▸ hkind)
      exact (wallet?_write_of_ne hne').trans ((wallet?_write_of_ne hne).trans hw)
  · obtain rfl := List.mem_singleton.1 hq
    have hstored : ∀ {x : Int} {v : Wallet}, t.wallet? x = some v →
        ∃ y, t'.wallet? v.id = some y ∧ y.kind = v.kind := fun {x v} hv => by
      obtain ⟨y, hy, hvy⟩ := hsame x v hv
      exact ⟨y, (wallet?_id hv).symm ▸ hy, hvy.kind.symm⟩
    cases h with
    | made source dest _ _ _ _ _ hsource hdest allowed =>
      obtain ⟨hs, hd⟩ := Access.check_generic_iff.1 allowed
      exact ⟨⟨hs, hstored hsource⟩, ⟨hd, hstored hdest⟩⟩

end WalletTable

/-! ## 2. Writes without custody -/

/-- The writes of a service without custody. -/
def Effect.IsGeneric : Effect → Prop
  | .edit _ => False
  | .transfer access _ => access = .generic
  | .movement access _ => access = .generic
  | _ => True

theorem Effect.Quiet.isGeneric {e : Effect} (h : e.Quiet) : e.IsGeneric := by
  rcases h with _ | _ | _ <;> trivial

theorem Effect.Moves.isGeneric {refs : Option String → Prop} {e : Effect}
    (h : e.Moves .generic refs) : e.IsGeneric := by
  cases h with
  | quiet _ h => exact h.isGeneric
  | transfer => exact rfl

/-- **One write** without custody leaves the cashout wallets as they are. -/
theorem Change.sparesCashout {m m' : Memory} {e : Effect} (he : e.IsGeneric) (h : Change m e m') :
    m.wallets.SparesCashout m'.wallets := by
  have hwallets := h.wallets
  have hlog := h.log
  cases h with
  | wallet _ h => exact .createWallet h
  | edit => exact he.elim
  | transfer h =>
    cases he
    exact h.sparesCashout
  | movement h =>
    cases he
    exact h.sparesCashout
  | _ => exact .of_eq (hwallets id) (hlog id).1

namespace Ledger

variable {l l' : Ledger (Faulty Memory)} {t : Terms} {f : Effect → Prop}

/-- The cashout wallets of a ledger are left as they are. -/
def SparesCashout (l l' : Ledger (Faulty Memory)) : Prop :=
  l.memory.wallets.SparesCashout l'.memory.wallets

theorem SparesCashout.of_wallets (h : l'.memory.wallets = l.memory.wallets) :
    l.SparesCashout l' :=
  .of_eq (by rw [h]) (by rw [h])

theorem SparesCashout.trans {l'' : Ledger (Faulty Memory)} (h : l.SparesCashout l')
    (h' : l'.SparesCashout l'') : l.SparesCashout l'' :=
  WalletTable.SparesCashout.trans h h'

instance : IsTrans (Ledger (Faulty Memory)) SparesCashout := ⟨fun _ _ _ h h' => h.trans h'⟩

instance : Std.Refl SparesCashout := ⟨fun _ => .of_wallets rfl⟩

theorem Still.sparesCashout (h : l.Still l') : l.SparesCashout l' := .of_wallets (by rw [h.memory])

/-- **Any number of writes** without custody. -/
theorem Evolves.sparesCashout (h : l.Evolves f l') (hf : ∀ e, f e → e.IsGeneric) :
    l.SparesCashout l' :=
  h.preserves (I := fun m => l.memory.wallets.SparesCashout m.wallets)
    (fun _ e _ he hc hm => hm.trans (hc.sparesCashout (hf e he))) (.of_eq rfl rfl)

theorem Waits.sparesCashout (h : l.Waits l') : l.SparesCashout l' :=
  Evolves.sparesCashout h fun e (he : e = .conflict) => he ▸ trivial

theorem Posted.sparesCashout {mv : Movement} {p : Posting} (h : l.Posted .generic mv p l') :
    l.SparesCashout l' := by
  obtain ⟨table, hposts, hm⟩ := h.made
  rw [SparesCashout, hm]
  exact hposts.sparesCashout

/-- **Posting without custody,** whatever is posted and whatever the calls meet. -/
theorem within_post_generic (mv : Movement) :
    Within SparesCashout (post t .generic mv) (fun _ _ => True) l :=
  within_post_of (fun _ _ h => h.sparesCashout) fun _ _ _ h => h.sparesCashout

/-- Opening a wallet, be its owner registered or not. -/
theorem within_createWallet_generic (owner : Owner) (initial : Amount) (kind : WalletKind) :
    Within SparesCashout (createWallet owner initial kind) (fun _ _ => True) l := by
  have hopened : ∀ w m, l.memory.answer
      (.createWallet owner ⟨owner.id, initial.currency, kind⟩ initial) = .ok (w, m) →
      l.memory.wallets.SparesCashout m.wallets := by
    intro w m h
    obtain ⟨table, hcreate, rfl⟩ := Memory.answering_eq h
    exact .createWallet hcreate
  exact ends_ask (fun w l' _ h => ⟨hopened w _ h, trivial⟩)
    (fun _ _ hl _ _ => ⟨hl.sparesCashout, trivial⟩) (fun _ _ hl => hl.sparesCashout)
    fun _ w l' _ _ h => hopened w _ h

end Ledger

/-! ## 3. Acts without custody -/

namespace Operation

variable {t : Terms} {l : Ledger (Faulty Memory)} {policies : WithdrawalPolicies} {op : Operation}

theorem May.isGeneric {e : Effect} (h : op.May policies e) (hcustody : ¬op.IsCustodial)
    (hedit : ¬op.IsEdit) : e.IsGeneric := by
  cases op with
  | createWallet =>
    obtain ⟨w, rfl, -⟩ := h
    trivial
  | mutateBalance => exact absurd trivial hedit
  | transfer | deposit | depositManually => exact Effect.Moves.isGeneric h
  | advance | recover => exact h.elim (fun he => he ▸ trivial) Effect.Moves.isGeneric
  | withdrawManually =>
    rcases h with h | ⟨w, rfl, -⟩
    · exact h.isGeneric
    · trivial
  | request | process | decide => exact absurd trivial hcustody
  | quote | setPolicy | arm | elapse => exact h.elim
  | createOwner | setPermissions | registerCurrency | setActive | addTransitive
  | deleteTransitive | addRate | updateRate | deleteRate | forbid | allow | reserve | cancel
  | sweep | inject =>
    have he : e = _ := h
    rw [he]
    trivial

/-- **An operation outside the withdrawal flow** that is not an edit. -/
theorem sparesCashout_after (op : Operation) (hcustody : ¬op.IsCustodial) (hedit : ¬op.IsEdit) :
    l.SparesCashout (op.after t l) := by
  by_cases hordinary : op.IsOrdinary
  · have hrequest : ∀ c, op = .request c → l.memory.Sound := by
      rintro c rfl
      exact absurd trivial hcustody
    exact (within_run op hrequest hordinary).moves.sparesCashout
      fun e he => he.isGeneric hcustody hedit
  · exact .of_wallets (by rw [memory_after op hordinary])

end Operation

namespace Act

variable {t : Terms} {l : Ledger (Faulty Memory)}

/-- **The acts that have no custody:** everything but the withdrawal flow, postings with custody,
and edits of a balance. -/
def IsGeneric : Act → Prop
  | .serve op => ¬op.IsCustodial ∧ ¬op.IsEdit
  | .post access _ => access = .generic
  | _ => True

/-- **One act** without custody leaves the cashout wallets as they are. -/
theorem sparesCashout_after (a : Act) (ha : a.IsGeneric) : l.SparesCashout (a.after t l) := by
  have hdiscard : ∀ {α : Type} {service : Action (Ledger (Faulty Memory)) α},
      Within Ledger.SparesCashout service (fun _ _ => True) l →
        l.SparesCashout
          ((discard service : Action (Ledger (Faulty Memory)) Unit).runIn l).2 := fun h =>
    Operation.runIn_discard (Ends.mono h (fun _ _ hv => hv.1) fun _ _ hs => hs)
  cases a with
  | serve op => exact op.sparesCashout_after ha.1 ha.2
  | post access mv =>
    cases ha
    exact hdiscard (Ledger.within_post_generic mv)
  | openWallet owner initial kind =>
    exact hdiscard (Ledger.within_createWallet_generic owner initial kind)
  | takeWallet owner currency kind =>
    exact hdiscard (Ledger.within_findOrCreateWallet_of (fun _ _ h => h.sparesCashout)
      fun _ => Ledger.within_createWallet_generic _ _ _)
  | resume r =>
    have hpermits : Ledger.PermitsSettling fun e =>
        e = .reservation ∨ e.Moves .generic Operation.IsLegRef :=
      Operation.permitsSettling (.inl rfl) fun _ => .inr
    refine hdiscard ((Ledger.within_resume hpermits r).weaken fun _ h =>
      h.sparesCashout fun e he => ?_)
    exact he.elim (fun he => he ▸ trivial) Effect.Moves.isGeneric

/-- **A run of acts** without custody leaves the cashout wallets as they are. -/
theorem sparesCashout_runAll (acts : List Act) (hacts : ∀ a ∈ acts, a.IsGeneric) :
    l.SparesCashout (runAll t l acts) := by
  induction acts generalizing l with
  | nil => exact .of_wallets rfl
  | cons a acts ih =>
    rw [List.forall_mem_cons] at hacts
    exact (sparesCashout_after a hacts.1).trans (ih hacts.2)

end Act

namespace Ledger

/-- **Only the withdrawal flow reaches cashout wallets.** In every state of the stores, whatever the
calls meet, and whatever a movement says of its wallets, its amounts and its reference: posting it
without custody leaves every cashout wallet as it was, balance and version included, and no record
of one is made. So does every run of transfers, deposits, payouts that were made elsewhere, and all
that is done for reservations; in fact every run without an operation of the withdrawal flow and
without an edit of a balance. -/
theorem cashout_out_of_reach (t : Terms) (l : Ledger (Faulty Memory)) :
    (∀ mv, l.SparesCashout ((post t .generic mv).runIn l).2) ∧
      ∀ acts : List Act, (∀ a ∈ acts, a.IsGeneric) → l.SparesCashout (Act.runAll t l acts) :=
  ⟨fun mv => (within_post_generic mv).moves, Act.sparesCashout_runAll⟩

end Ledger

namespace Small

/-- The cashout wallet as somebody describes it who would like to empty it. -/
def disguised : Wallet := ⟨3, 2, "ann", "GOLD", .main, units 1000, 0⟩

/-- It is posted from in disguise; the owner asks for a transfer from it; and a deposit is made. -/
def intrusions : List Act := [
  .post .generic
    (.ofAmount disguised ⟨2, 2, "ann", "GOLD", .main, units 0, 0⟩ ⟨"GOLD", units 10⟩ .trade none
      none),
  .serve (.transfer { transfer "ann" "system" 10 none with senderKind := .cashout }),
  .serve (.deposit "GOLD" "ann" .main (units 5) none none)]

end Small

/-- The cashout wallet holds what a request has set aside, and the deposit alone comes through. -/
theorem Ledger.cashout_out_of_reach_small :
    ∃ w, (Operation.runAll Small.terms (initial Small.ids 0)
        Small.payouts).memory.wallets.wallet? 3 = some w ∧
      w.kind = .cashout ∧ w.balance = Small.units 10 ∧
      (∀ a ∈ Small.intrusions, a.IsGeneric) ∧
      (Act.runAll Small.terms (Operation.runAll Small.terms (initial Small.ids 0) Small.payouts)
        Small.intrusions).memory.wallets.wallet? 3 = some w := by
  obtain ⟨w, hw⟩ := Option.isSome_iff_exists.1
    (by decide +kernel : ((Operation.runAll Small.terms (initial Small.ids 0)
      Small.payouts).memory.wallets.wallet? 3).isSome)
  have hstored : ∀ v ∈ (Operation.runAll Small.terms (initial Small.ids 0)
      Small.payouts).memory.wallets.wallets, v.id = 3 →
        v.kind = .cashout ∧ v.balance = Small.units 10 := by decide +kernel
  obtain ⟨hkind, hbalance⟩ := hstored w (WalletTable.mem_of_wallet? hw) (WalletTable.wallet?_id hw)
  have hgeneric : ∀ a ∈ Small.intrusions, a.IsGeneric := by
    rw [Small.intrusions, List.forall_mem_cons, List.forall_mem_cons, List.forall_mem_singleton]
    exact ⟨rfl, ⟨id, id⟩, ⟨id, id⟩⟩
  exact ⟨w, hw, hkind, hbalance, hgeneric,
    ((cashout_out_of_reach Small.terms _).2 Small.intrusions hgeneric).kept 3 w hw hkind⟩

end WalletLedger
