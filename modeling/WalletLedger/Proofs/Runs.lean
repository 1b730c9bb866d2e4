/-
Runs of a ledger.

An operation is what can happen to a ledger from outside: a service is called, the pending conflicts
or the faults of its stores are set, a policy is set, or time passes. A run is a list of operations,
and `Reachable` are the states that some run leads to from an empty ledger. Nothing is assumed of
the order of the operations or of how they end.

`Operation.May` says which effects an operation can have, whatever it meets (`Operation.writes`). A
theorem about runs is then an invariant for each kind of write and a condition on the operations
that excludes the effects it does not stand (`Along`).
-/
import WalletLedger.Proofs.Flows
import WalletLedger.Proofs.SymbolOrder
import WalletLedger.Proofs.Withdrawals
import Mathlib.Data.List.Permutation

set_option autoImplicit false

namespace WalletLedger

open WalletLedger.Action

/-! ## 1. Operations -/

/-- **What can happen to a ledger.** -/
inductive Operation where
  -- Owners and wallets
  | createOwner (uuid title level : String)
  | setPermissions (uuid : String) (trades withdraws deposits : Bool)
  | createWallet (uuid : String) (initial : Amount) (kind : WalletKind)
  | mutateBalance (id : Int) (change : Amount)
  -- Currencies and conversions
  | registerCurrency (c : Currency)
  | setActive (symbol : String) (on : Bool)
  | addTransitive (symbols : List String)
  | deleteTransitive (symbols : List String)
  | addRate (rate : Rate) (ignoreIfExists : Bool)
  | updateRate (rate : Rate)
  | deleteRate (source dest : String)
  | forbid (pair : ForbiddenPair)
  | allow (pair : ForbiddenPair)
  | quote (symbol : String) (value : Decimal) (dest : String)
  -- Transfers
  | transfer (r : TransferRequest)
  | deposit (symbol receiver : String) (kind : WalletKind) (amount : Decimal)
      (description ref : Option String)
  | depositManually (symbol sender receiver : String) (amount : Decimal)
      (description ref : Option String)
  -- Reservations
  | reserve (r : ReserveRequest)
  | advance (number : String) (description ref issuer : Option String)
  | cancel (number : String) (issuer : Option String)
  | sweep (w : WorkerSettings)
  | recover (w : WorkerSettings)
  -- Withdrawals
  | request (c : WithdrawalRequest)
  | process (id : Int)
  | decide (d : Decision)
  | withdrawManually (c : ManualWithdrawal)
  -- Circumstances
  | setPolicy (symbol network : String) (policy : WithdrawalPolicy)
  | inject (conflicts : Nat)
  | arm (faults : List Fault)
  | elapse (ms : Nat)

namespace Operation

open Ledger in
/-- Carrying an operation out; what it answers does not matter here. -/
def run (t : Terms) : Operation → Action (Ledger (Faulty Memory)) Unit
  | .createOwner uuid title level => discard (Ledger.createOwner uuid title level)
  | .setPermissions uuid trades withdraws deposits =>
    discard (Ledger.setPermissions uuid trades withdraws deposits)
  | .createWallet uuid initial kind => do
    discard (Ledger.createWallet (← requireOwner uuid) initial kind)
  | .mutateBalance id change => discard (Ledger.mutateBalance t id change)
  | .registerCurrency c => ask (.addCurrency c)
  | .setActive symbol on => ask (.setActive symbol on)
  | .addTransitive symbols => Ledger.addTransitive symbols
  | .deleteTransitive symbols => discard (Ledger.deleteTransitive symbols)
  | .addRate rate ignoreIfExists => Ledger.addRate rate ignoreIfExists
  | .updateRate rate => discard (Ledger.updateRate rate)
  | .deleteRate source dest => discard (Ledger.deleteRate source dest)
  | .forbid pair => Ledger.forbid pair
  | .allow pair => discard (Ledger.allow pair)
  | .quote symbol value dest => discard (Ledger.quote t symbol value dest)
  | .transfer r => discard (Ledger.transfer t r)
  | .deposit symbol receiver kind amount description ref =>
    discard (Ledger.deposit t symbol receiver kind amount description ref)
  | .depositManually symbol sender receiver amount description ref =>
    discard (Ledger.depositManually t symbol sender receiver amount description ref)
  | .reserve r => discard (Ledger.reserve t r)
  | .advance number description ref issuer =>
    discard (advanceReservation t number description ref issuer)
  | .cancel number issuer => discard (cancelReservation number issuer)
  | .sweep w => discard (Ledger.sweep w)
  | .recover w => discard (Ledger.recover t w)
  | .request c => discard (requestWithdrawal t c)
  | .process id => discard (processWithdrawal id)
  | .decide d => discard (d.run t)
  | .withdrawManually c => discard (Ledger.withdrawManually t c)
  | .setPolicy symbol network policy =>
    adjust fun l => { l with policies := l.policies.set symbol network policy }
  | .inject conflicts =>
    adjust fun l =>
      { l with
        stores :=
          { l.stores with
            stores := l.memory.withWallets { l.memory.wallets with conflicts } } }
  | .arm faults => adjust fun l => { l with stores := { l.stores with armed := faults } }
  | .elapse ms => adjust fun l => { l with clock := l.clock + ms }

/-- The ledger after an operation, however it ended. -/
def after (t : Terms) (l : Ledger (Faulty Memory)) (op : Operation) : Ledger (Faulty Memory) :=
  ((op.run t).runIn l).2

/-- The ledger after one operation after the other. -/
def runAll (t : Terms) (l : Ledger (Faulty Memory)) (ops : List Operation) :
    Ledger (Faulty Memory) :=
  ops.foldl (after t) l

theorem runAll_append (t : Terms) (l : Ledger (Faulty Memory)) (ops rest : List Operation) :
    runAll t l (ops ++ rest) = runAll t (runAll t l ops) rest :=
  List.foldl_append

end Operation

namespace Ledger

/-- A ledger over empty stores that do not fail. -/
def initial (ids : IdSource) (clock : Instant) : Ledger (Faulty Memory) :=
  .start ⟨.empty ids, []⟩ clock

/-- **The states of all runs.** -/
def Reachable (t : Terms) (l : Ledger (Faulty Memory)) : Prop :=
  ∃ ids clock ops, l = Operation.runAll t (initial ids clock) ops

theorem Reachable.runAll {t : Terms} {l : Ledger (Faulty Memory)} (h : Reachable t l)
    (ops : List Operation) : Reachable t (Operation.runAll t l ops) := by
  obtain ⟨ids, clock, earlier, rfl⟩ := h
  exact ⟨ids, clock, earlier ++ ops, (Operation.runAll_append _ _ _ _).symm⟩

/-- A condition on each operation of a run and on the state that it starts from. -/
def Along (t : Terms) (P : Ledger (Faulty Memory) → Operation → Prop) :
    Ledger (Faulty Memory) → List Operation → Prop
  | _, [] => True
  | l, op :: ops => P l op ∧ Along t P (op.after t l) ops

/-- **An invariant of runs:** it holds at the end if it holds at the start and every operation that
meets the condition keeps it. -/
theorem Along.preserves {t : Terms} {P : Ledger (Faulty Memory) → Operation → Prop}
    {I : Ledger (Faulty Memory) → Prop} (step : ∀ l op, P l op → I l → I (op.after t l))
    {ops : List Operation} : ∀ {l}, Along t P l ops → I l → I (Operation.runAll t l ops) := by
  induction ops with
  | nil => exact fun _ hl => hl
  | cons op ops ih => exact fun h hl => ih h.2 (step _ op h.1 hl)

theorem along_append {t : Terms} {P : Ledger (Faulty Memory) → Operation → Prop}
    {ops rest : List Operation} : ∀ {l}, Along t P l (ops ++ rest) ↔
      Along t P l ops ∧ Along t P (Operation.runAll t l ops) rest := by
  induction ops with
  | nil => exact fun {l} => (iff_of_eq (true_and _)).symm
  | cons op ops ih => exact fun {l} => (and_congr_right fun _ => ih).trans and_assoc.symm

end Ledger

/-! ## 2. Currencies and rates -/

namespace CurrencyTable

variable {t t' : CurrencyTable}

/-- Registering a currency leaves the entries of the other symbols as they are: they are found in
the sorted table in the order in which they were. -/
theorem find?_insert (t : CurrencyTable) {c : Currency} {s : String} (h : c.symbol ≠ s) :
    (t.insert c).find? s = t.find? s := by
  have hsub : List.Sublist (t.rows.filter (·.symbol == s)) (t.insert c).rows := by
    -- The entries of one symbol compare as equal, and sorting keeps the order of equals.
    refine List.sublist_mergeSort ?_ ?_ ?_ (List.filter_sublist.trans (List.sublist_cons_self c _))
    · exact fun _ _ _ => symbolLE_trans
    · exact fun _ _ => symbolLE_total _ _
    · refine List.pairwise_iff_forall_sublist.2 fun {x y} hxy => ?_
      have hx : x.symbol = s := by
        simpa using (List.mem_filter.1 (hxy.subset List.mem_cons_self)).2
      have hy : y.symbol = s := by
        simpa using (List.mem_filter.1 (hxy.subset (List.mem_cons_of_mem _ List.mem_cons_self))).2
      rw [hx, hy]
      exact symbolLE_iff.2 (String.le_refl s)
  have hfilter := hsub.filter (·.symbol == s)
  rw [List.filter_filter] at hfilter
  simp only [Bool.and_self] at hfilter
  have hperm : ((t.insert c).rows.filter (·.symbol == s)).Perm (t.rows.filter (·.symbol == s)) := by
    have hc : ¬(c.symbol == s) = true := by simpa using h
    rw [← List.filter_cons_of_neg (l := t.rows) hc]
    exact (List.mergeSort_perm _ _).filter _
  rw [find?, find?, ← List.head?_filter, ← List.head?_filter,
    hfilter.eq_of_length hperm.length_eq.symm]

theorem add_eq {c : Currency} (h : t.add c = .ok t') :
    t.find? c.symbol = none ∧ t' = t.insert c := by
  unfold add at h
  cases hcheck : Currency.checkSymbol c.symbol with
  | error cause => rw [hcheck] at h; cases h
  | ok _ =>
    simp only [hcheck, bind, Except.bind] at h
    split_ifs at h with hsome
    cases h
    exact ⟨Option.not_isSome_iff_eq_none.1 hsome, rfl⟩

theorem update_eq {symbol : String} {g : Currency → Currency} (h : t.update symbol g = .ok t') :
    t' = ⟨t.rows.map fun c => if c.symbol = symbol then g c else c⟩ := by
  unfold update at h
  split_ifs at h
  cases h
  rfl

end CurrencyTable

namespace Memory

variable {m : Memory}

theorem hasPrecision_add {c : Currency} {table : CurrencyTable}
    (h : m.currencies.add c = .ok table) (s : String) (p : Nat) (hp : m.HasPrecision s p) :
    (m.withCurrencies table).HasPrecision s p := by
  obtain ⟨hnone, rfl⟩ := CurrencyTable.add_eq h
  obtain ⟨d, hd, hprecision⟩ := hp
  refine ⟨d, ?_, hprecision⟩
  -- A symbol that is registered is not registered again.
  have hne : c.symbol ≠ s := by
    rintro rfl
    rw [hnone] at hd
    cases hd
  exact (CurrencyTable.find?_insert _ hne).trans hd

/-- A change of flags keeps the fractional digits. -/
theorem hasPrecision_update {symbol : String} {g : Currency → Currency} {table : CurrencyTable}
    (hsymbol : ∀ c, (g c).symbol = c.symbol) (hprecision : ∀ c, (g c).precision = c.precision)
    (h : m.currencies.update symbol g = .ok table) (s : String) (p : Nat)
    (hp : m.HasPrecision s p) : (m.withCurrencies table).HasPrecision s p := by
  obtain rfl := CurrencyTable.update_eq h
  obtain ⟨d, hd, rfl⟩ := hp
  refine ⟨if d.symbol = symbol then g d else d, ?_, ?_⟩
  · have hkeeps : ∀ c : Currency,
        ((if c.symbol = symbol then g c else c).symbol == s) = (c.symbol == s) := by
      intro c
      split_ifs
      · rw [hsymbol]
      · rfl
    exact (find?_map_of_keeps hkeeps _).trans (congrArg (Option.map _) hd)
  · split_ifs
    · exact hprecision d
    · rfl

end Memory

namespace Ledger

variable {l : Ledger (Faulty Memory)} {t : Terms} {f : Effect → Prop}

theorem within_registerCurrency (hf : f .currency) (c : Currency) :
    Within (Evolves f) (ask (.addCurrency c)) (fun _ _ => True) l := by
  refine within_ask (Q := fun _ _ => True) (fun u m h => ⟨?_, trivial⟩) fun _ _ => trivial
  obtain ⟨table, hadd, rfl⟩ := Memory.writing_eq h
  exact .single (.currency (Memory.hasPrecision_add hadd)) hf

theorem within_setActive (hf : f .currency) (symbol : String) (on : Bool) :
    Within (Evolves f) (ask (.setActive symbol on)) (fun _ _ => True) l := by
  refine within_ask (Q := fun _ _ => True) (fun u m h => ⟨?_, trivial⟩) fun _ _ => trivial
  obtain ⟨table, hset, rfl⟩ := Memory.writing_eq h
  unfold CurrencyTable.setActive at hset
  refine .single (.currency (Memory.hasPrecision_update ?_ ?_ hset)) hf <;> exact fun _ => rfl

theorem within_setFlag (hf : f .currency) (symbol : String) (on : Bool) :
    Within (Evolves f) (ask (.setTransitive symbol on)) (fun _ _ => True) l := by
  refine within_ask (Q := fun _ _ => True) (fun u m h => ⟨?_, trivial⟩) fun _ _ => trivial
  obtain ⟨table, hset, rfl⟩ := Memory.writing_eq h
  unfold CurrencyTable.setTransitive at hset
  refine .single (.currency (Memory.hasPrecision_update ?_ ?_ hset)) hf <;> exact fun _ => rfl

theorem within_setTransitive (hf : f .currency) (on : Bool) (symbols : List String) :
    ∀ {l}, Within (Evolves f) (setTransitive on symbols) (fun _ _ => True) l := by
  induction symbols with
  | nil => exact fun {l} => within_pure trivial
  | cons symbol rest ih => exact fun {l} => (within_setFlag hf symbol on).bind fun _ l₁ _ _ => ih

theorem within_deleteTransitive (hf : f .currency) (symbols : List String) :
    Within (Evolves f) (deleteTransitive symbols) (fun _ _ => True) l := by
  unfold deleteTransitive forgetGraph transitiveSymbols
  refine (within_setTransitive hf false symbols).bind fun _ l₁ _ _ => ?_
  refine within_bind_still (within_setGraph none) fun _ l₂ _ _ => ?_
  exact within_bind_still (within_read (c := .listCurrencies) rfl) fun _ l₃ _ _ =>
    within_pure trivial

/-- A call that writes the rates writes nothing else. -/
theorem within_askRates {α : Type} {c : Call α} (hf : f .rate)
    (h : ∀ a m, l.memory.answer c = .ok (a, m) → ∃ table, m = l.memory.withRates table) :
    Within (Evolves f) (ask c) (fun _ _ => True) l := by
  refine within_ask (Q := fun _ _ => True) (fun a m ha => ⟨?_, trivial⟩) fun _ _ => trivial
  obtain ⟨table, rfl⟩ := h a m ha
  exact .single (.rate table) hf

theorem within_addRate (hf : f .rate) (rate : Rate) (ignoreIfExists : Bool) :
    Within (Evolves f) (addRate rate ignoreIfExists) (fun _ _ => True) l := by
  unfold addRate forgetGraph
  refine within_bind_still still_ofExcept fun _ l₁ _ _ => ?_
  refine within_bind_still (within_requireCurrency rate.source) fun _ l₂ _ _ => ?_
  refine within_bind_still (within_requireCurrency rate.dest) fun _ l₃ _ _ => ?_
  refine (within_askRates hf fun a m h => ?_).bind fun _ l₄ _ _ =>
    within_of_still (within_setGraph none)
  obtain ⟨table, -, hm⟩ := Memory.writing_eq h
  exact ⟨table, hm⟩

theorem within_updateRate (hf : f .rate) (rate : Rate) :
    Within (Evolves f) (updateRate rate) (fun _ _ => True) l := by
  unfold updateRate forgetGraph
  refine within_bind_still still_ofExcept fun _ l₁ _ _ => ?_
  refine (within_askRates hf fun a m h => ?_).bind fun _ l₂ _ _ => ?_
  · obtain ⟨table, -, hm⟩ := Memory.writing_eq h
    exact ⟨table, hm⟩
  · refine within_bind_still (within_setGraph none) fun _ l₃ _ _ => ?_
    exact within_of_still ((within_read (c := .listRates) rfl).mono fun _ _ _ _ => trivial)

theorem within_deleteRate (hf : f .rate) (source dest : String) :
    Within (Evolves f) (deleteRate source dest) (fun _ _ => True) l := by
  unfold deleteRate forgetGraph
  refine (within_askRates hf fun a m h => ?_).bind fun _ l₁ _ _ => ?_
  · obtain ⟨table, -, hm⟩ := Memory.writing_eq h
    exact ⟨table, hm⟩
  · refine within_bind_still (within_setGraph none) fun _ l₂ _ _ => ?_
    exact within_of_still ((within_read (c := .listRates) rfl).mono fun _ _ _ _ => trivial)

theorem within_forbid (hf : f .rate) (pair : ForbiddenPair) :
    Within (Evolves f) (forbid pair) (fun _ _ => True) l := by
  unfold forbid forgetGraph
  refine (within_askRates hf fun a m h => ?_).bind fun _ l₁ _ _ =>
    within_of_still (within_setGraph none)
  cases h
  exact ⟨_, rfl⟩

theorem within_allow (hf : f .rate) (pair : ForbiddenPair) :
    Within (Evolves f) (allow pair) (fun _ _ => True) l := by
  unfold allow forgetGraph
  refine (within_askRates hf fun a m h => ?_).bind fun _ l₁ _ _ => ?_
  · cases h
    exact ⟨_, rfl⟩
  · refine within_bind_still (within_setGraph none) fun _ l₂ _ _ => ?_
    exact within_of_still ((within_read (c := .listForbidden) rfl).mono fun _ _ _ _ => trivial)

end Ledger

/-! ## 3. The effects of an operation -/

/-- The effects of moving funds, with references of one kind. -/
inductive Effect.Moves (access : Access) (refs : Option String → Prop) : Effect → Prop
  | quiet (e : Effect) (h : e.Quiet) : Moves access refs e
  | transfer (p : Posting) (h : refs p.ref) : Moves access refs (.transfer access p)

namespace Operation

/-- The references of the legs of reservations. -/
def IsLegRef (ref : Option String) : Prop :=
  ∃ (r : Reservation) (s : Settlement) (leg : Leg), ref = some (r.legRef s leg)

/-- **What an operation may write,** under the policies that are in force. -/
def May (policies : WithdrawalPolicies) : Operation → Effect → Prop
  | .createOwner _ _ _, e | .setPermissions _ _ _ _, e => e = .owner
  | .createWallet _ initial _, e =>
    ∃ w, e = .wallet w ∧ w.balance = initial.value ∧ w.currency = initial.currency
  | .mutateBalance id _, e => e = .conflict ∨ e = .edit id
  | .registerCurrency _, e | .setActive _ _, e | .addTransitive _, e | .deleteTransitive _, e =>
    e = .currency
  | .addRate _ _, e | .updateRate _, e | .deleteRate _ _, e | .forbid _, e | .allow _, e =>
    e = .rate
  | .transfer r, e => e.Moves .generic (· = r.ref)
  | .deposit _ _ _ _ _ ref, e | .depositManually _ _ _ _ _ ref, e => e.Moves .generic (· = ref)
  | .reserve _, e | .cancel _ _, e | .sweep _, e => e = .reservation
  | .advance _ _ _ _, e | .recover _, e => e = .reservation ∨ e.Moves .generic IsLegRef
  | .request c, e =>
    e.Moves .custody (fun ref => ref = none ∨ ∃ r : Receipt, ref = some r.orphanRef) ∨
      ∃ w policy, e = .row w ∧ policies.find? c.destSymbol c.destNetwork = some policy ∧
        w.currency = c.currency ∧ w.appliedFee = policy.fee
  | .process _, e => e = .rows
  | .decide _, e =>
    e = .rows ∨
      e.Moves .custody fun ref => ∃ (w : Withdrawal) (status : WithdrawalStatus),
        ref = some (w.legRef status)
  | .withdrawManually c, e =>
    e.Moves .generic (· = c.ref) ∨
      ∃ w, e = .row w ∧ w.currency = c.symbol ∧ w.appliedFee = .zero ∧ w.type = .manually
  | .inject _, e => e = .pending
  | .quote _ _ _, _ | .setPolicy _ _ _, _ | .arm _, _ | .elapse _, _ => False

/-- All operations but those that change the circumstances of later ones. -/
def IsOrdinary : Operation → Prop
  | .setPolicy _ _ _ => False
  | .arm _ => False
  | _ => True

theorem permits_of_moves {f : Effect → Prop} {access : Access} {refs : Option String → Prop}
    {ref : Option String} (hf : ∀ e, Effect.Moves access refs e → f e) (href : refs ref) :
    Ledger.Permits f access ref :=
  ⟨fun e he => hf e (.quiet e he), fun p hp => hf _ (.transfer p (hp ▸ href))⟩

theorem within_discard {α : Type} {f : Effect → Prop} {l : Ledger (Faulty Memory)}
    {a : Action (Ledger (Faulty Memory)) α} {Q : α → Ledger (Faulty Memory) → Prop}
    (h : Within (Ledger.Evolves f) a Q l) :
    Within (Ledger.Evolves f) (discard a) (fun _ _ => True) l := by
  have hmap : Within (Ledger.Evolves f) ((fun _ => ()) <$> a) (fun _ _ => True) l :=
    h.map fun _ _ _ _ => trivial
  exact hmap

variable {t : Terms} {l : Ledger (Faulty Memory)}

/-- Settling permits itself nothing but legs. -/
theorem permitsSettling {f : Effect → Prop} (hreservation : f .reservation)
    (hf : ∀ e, Effect.Moves .generic IsLegRef e → f e) : Ledger.PermitsSettling f :=
  ⟨hreservation, fun r s leg => permits_of_moves hf ⟨r, s, leg, rfl⟩⟩

/-- How an action ends when its value is not looked at. -/
theorem runIn_discard {α : Type} {a : Action (Ledger (Faulty Memory)) α}
    {I : Ledger (Faulty Memory) → Prop} (h : a.Ends (fun _ => I) (fun _ => I) l) :
    I ((discard a : Action (Ledger (Faulty Memory)) Unit).runIn l).2 := by
  have hmap : (discard a : Action (Ledger (Faulty Memory)) Unit).Ends (fun _ => I) (fun _ => I) l :=
    (ends_map (fun _ => ())).2 h
  cases hr : ((discard a : Action (Ledger (Faulty Memory)) Unit).runIn l).1 with
  | ok v => exact hmap.of_ok hr
  | error stop => exact hmap.of_error hr

open Ledger in
/-- **An operation moves the ledger by its effects alone.** Only a request relies on the tables: the
row that it stores speaks of the wallet that was found. -/
theorem within_run (op : Operation) (hl : ∀ c, op = .request c → l.memory.Sound)
    (hop : op.IsOrdinary) :
    Within (Evolves (op.May l.policies)) (op.run t) (fun _ _ => True) l := by
  cases op with
  | createOwner uuid title level =>
    exact within_discard (within_createOwner (by exact rfl) uuid title level)
  | setPermissions uuid trades withdraws deposits =>
    exact within_discard (within_setPermissions (by exact rfl) uuid trades withdraws deposits)
  | createWallet uuid initial kind =>
    refine within_bind_still (within_requireOwner uuid) fun owner l₁ h₁ ho => ?_
    have ho₁ : l₁.memory.HasOwner owner := h₁.memory ▸ ho.1
    exact within_discard (within_createWallet (fun w hb hc => ⟨w, rfl, hb, hc⟩) ho₁)
  | mutateBalance id change =>
    exact within_discard (within_mutateBalance (.inl rfl) (.inr rfl) change)
  | registerCurrency c => exact within_registerCurrency (by exact rfl) c
  | setActive symbol on => exact Ledger.within_setActive (by exact rfl) symbol on
  | addTransitive symbols =>
    exact (within_setTransitive (by exact rfl) true symbols).bind fun _ l₁ _ _ =>
      within_of_still (within_setGraph none)
  | deleteTransitive symbols =>
    exact within_discard (within_deleteTransitive (by exact rfl) symbols)
  | addRate rate ignoreIfExists => exact within_addRate (by exact rfl) rate ignoreIfExists
  | updateRate rate => exact within_discard (within_updateRate (by exact rfl) rate)
  | deleteRate source dest => exact within_discard (within_deleteRate (by exact rfl) source dest)
  | forbid pair => exact within_forbid (by exact rfl) pair
  | allow pair => exact within_discard (within_allow (by exact rfl) pair)
  | quote symbol value dest =>
    exact within_discard (within_of_still (within_quote symbol value dest))
  | transfer r =>
    exact within_discard (within_transfer r (permits_of_moves (fun _ => id) rfl))
  | deposit symbol receiver kind amount description ref =>
    have hf : Permits (Effect.Moves .generic (· = ref)) .generic ref :=
      permits_of_moves (fun _ => id) rfl
    exact within_discard (Ends.mono (ends_deposit symbol receiver kind amount description ref)
      (fun _ _ h => ⟨h.evolves hf, trivial⟩) fun _ _ h => h.evolves hf :
        Within _ _ (fun _ _ => True) l)
  | depositManually symbol sender receiver amount description ref =>
    exact within_discard (within_transfer _ (permits_of_moves (fun _ => id) rfl))
  | reserve r => exact within_discard (within_reserve (by exact rfl) r)
  | advance number description ref issuer =>
    exact within_discard (within_advanceReservation (permitsSettling (.inl rfl) fun _ => .inr)
      number description ref issuer)
  | cancel number issuer =>
    exact within_discard (within_cancelReservation (by exact rfl) number issuer)
  | sweep w => exact within_discard (within_sweep (by exact rfl) w)
  | recover w =>
    exact within_discard (within_recover (permitsSettling (.inl rfl) fun _ => .inr) w)
  | request c =>
    refine within_discard (within_requestWithdrawal (hl c rfl) c ⟨?_, fun r => ?_, ?_⟩)
    · exact permits_of_moves (fun _ => .inl) (.inl rfl)
    · exact permits_of_moves (fun _ => .inl) (.inr ⟨r, rfl⟩)
    -- The row's fee is that of the policy in force when the operation begins.
    · exact fun w policy hpolicy hcurrency hfee => .inr ⟨w, policy, rfl, hpolicy, hcurrency, hfee⟩
  | process id => exact within_discard (within_processWithdrawal (by exact rfl) id)
  | decide d =>
    refine within_discard (within_decision ⟨fun e he => .inr (.quiet e he), .inl rfl, ?_⟩ d)
    exact fun w status => permits_of_moves (fun _ => .inr) ⟨w, status, rfl⟩
  | withdrawManually c =>
    refine within_discard (within_withdrawManually c (permits_of_moves (fun _ => .inl) rfl) ?_)
    exact fun w hcurrency hfee htype => .inr ⟨w, rfl, hcurrency, hfee, htype⟩
  | inject conflicts =>
    exact ⟨⟨⟨rfl, fun _ => id⟩, .single (.pending conflicts) rfl⟩, trivial⟩
  | elapse ms => exact ⟨.of_still ⟨⟨rfl, fun _ => id⟩, rfl⟩, trivial⟩
  | setPolicy => exact hop.elim
  | arm => exact hop.elim

theorem evolves_after (op : Operation) (hl : l.memory.Sound) (hop : op.IsOrdinary) :
    l.Evolves (op.May l.policies) (op.after t l) :=
  (within_run op (fun _ _ => hl) hop).moves

/-- The other two leave the memory as it is. -/
theorem memory_after (op : Operation) (hop : ¬op.IsOrdinary) :
    (op.after t l).memory = l.memory := by
  cases op with
  | setPolicy => rfl
  | arm => rfl
  | _ => exact absurd trivial hop

theorem writes_after (op : Operation) (hl : l.memory.Sound) :
    l.memory.Writes (op.May l.policies) (op.after t l).memory := by
  by_cases hop : op.IsOrdinary
  · exact (evolves_after op hl hop).writes
  · rw [memory_after op hop]
    exact .refl

end Operation

namespace Ledger

variable {t : Terms} {l : Ledger (Faulty Memory)}

theorem sound_after (op : Operation) (hl : l.memory.Sound) : (op.after t l).memory.Sound :=
  (op.writes_after hl).preserves (fun _ _ _ _ hc => hc.sound) hl

theorem sound_runAll (ops : List Operation) (hl : l.memory.Sound) :
    (Operation.runAll t l ops).memory.Sound := by
  induction ops generalizing l with
  | nil => exact hl
  | cons op ops ih => exact ih (sound_after op hl)

/-- **The tables are in order in every reachable state.** -/
theorem Reachable.sound (h : Reachable t l) : l.memory.Sound := by
  obtain ⟨ids, clock, ops, rfl⟩ := h
  exact sound_runAll ops (Memory.sound_empty ids)

end Ledger

/-! ## 4. A small ledger

Two currencies with a rate between them, the system and one owner, and a policy with a fee. Runs on
fixed inputs start from it.
-/

namespace Small

/-- A whole number of units. -/
def units (n : Int) : Decimal := (Decimal.ofInt? n).getD .zero

def terms : Terms where
  systemUuid := "system"
  maxAttempts := 4
  maxHops := 4
  policy := .depthFirst
  ttlSecs := 3600
  counting := true

def ids : IdSource := .ofSeed 0 1

def gold : Currency := .define "GOLD" "Gold" 2

def silver : Currency := .define "SILVER" "Silver" 0

/-- A ledger in which only currencies are registered. -/
def registered (currencies : CurrencyTable) : Ledger (Faulty Memory) :=
  .start ⟨(Memory.empty ids).withCurrencies currencies, []⟩ 0

-- The sort of the table does not unfold in the kernel, so the tables are computed beforehand.
theorem registered_eq :
    Operation.runAll terms (.initial ids 0) [.registerCurrency gold, .registerCurrency silver] =
      registered ⟨[gold, silver]⟩ := by
  have hgold : CurrencyTable.empty.insert gold = ⟨[gold]⟩ := by decide_cbv
  have hsilver : CurrencyTable.insert ⟨[gold]⟩ silver = ⟨[gold, silver]⟩ := by decide_cbv
  have hfirst : (Operation.registerCurrency gold).after terms (.initial ids 0) =
      registered ⟨[gold]⟩ := by
    rw [← hgold]
    rfl
  have hsecond : (Operation.registerCurrency silver).after terms (registered ⟨[gold]⟩) =
      registered ⟨[gold, silver]⟩ := by
    rw [← hsilver]
    rfl
  rw [← hsecond, ← hfirst]
  rfl

def setup : List Operation := [
  .addRate ⟨"GOLD", "SILVER", units 3⟩ false,
  .createOwner "system" "system" "system",
  .createOwner "ann" "Ann" "1",
  .createWallet "system" ⟨"GOLD", units 1000⟩ .main,
  .createWallet "system" ⟨"SILVER", units 900⟩ .main,
  .createWallet "ann" ⟨"GOLD", units 50⟩ .main,
  .setPolicy "GOLD" "net" ⟨true, units 1, units 5⟩]

def ledger : Ledger (Faulty Memory) :=
  Operation.runAll terms (registered ⟨[gold, silver]⟩) setup

/-- The run that leads to it. -/
def opening : List Operation := [.registerCurrency gold, .registerCurrency silver] ++ setup

theorem runAll_opening : Operation.runAll terms (.initial ids 0) opening = ledger := by
  rw [opening, Operation.runAll_append, registered_eq, ledger]

theorem reachable : ledger.Reachable terms := ⟨ids, 0, opening, runAll_opening.symm⟩

/-- A request of the owner for a payout. -/
def request (amount : Int) : WithdrawalRequest where
  uuid := "ann"
  currency := "GOLD"
  amount := units amount
  description := none
  destSymbol := "GOLD"
  destAddress := "address"
  destNetwork := "net"
  destNote := none

/-- The acceptance of a row. -/
def acceptance (id : Int) : WithdrawalAcceptance := ⟨id, none, none, none, none⟩

/-- A transfer of gold between the main wallets of two owners. -/
def transfer (sender receiver : String) (amount : Int) (ref : Option String) : TransferRequest where
  symbol := "GOLD"
  senderUuid := sender
  senderKind := .main
  receiverUuid := receiver
  receiverKind := .main
  amount := units amount
  description := none
  ref
  category := .trade

end Small

end WalletLedger
