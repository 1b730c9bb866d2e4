/-
What a run leaves in the wallets and in the log.

The acts of `Acts.lean` are turns or edits, so the invariants of the table of wallets hold in every
state of every run (`Act.Reachable.filed`), and what one act does to one wallet is known in full:
the postings that the act appended account for it, or it was edited (`Act.wallets_after`).

Where nobody edits a balance by hand, the whole run is one turn, in which each wallet begins with
the balance it was opened with (`Act.turns_runAll`). The log is then a complete account of every
wallet from its opening to the end, and replaying it from the openings gives the balances and
the versions that are there (`Act.audit_trail`).
-/
import WalletLedger.Proofs.Acts
import WalletLedger.Proofs.Versions

set_option autoImplicit false

namespace WalletLedger

open WalletLedger.Action

/-! ## 1. Edits -/

/-- **A wallet before and after its balance was changed by itself.** A change that takes away takes
no more than is there. -/
structure Wallet.EditedBy (w : Wallet) (change : Amount) (w' : Wallet) : Prop where
  same : w.Same w'
  version : w'.version = w.version + 1
  balance : w.balanceAfter change = .ok w'.balance
  afforded : -change.value.toRat ≤ w.balance.toRat

theorem Wallet.editedBy_written {w : Wallet} {change : Amount} {balance : Decimal}
    (h : w.balanceAfter change = .ok balance) :
    w.EditedBy change (WalletTable.written (w.write balance) w) := by
  obtain ⟨-, hsum, hnonneg⟩ := Wallet.balanceAfter_eq h
  have hexact := Decimal.nonneg_of_add? hsum hnonneg
  exact ⟨Wallet.same_written _ w, rfl, h, by linarith⟩

namespace Ledger

variable {l l' : Ledger (Faulty Memory)} {id : Int} {change : Amount}

/-- What an edit does to the table: one wallet is edited, the others and the log stay. -/
theorem Edited.wallets (h : l.Edited id change l') :
    l'.memory.wallets.log = l.memory.wallets.log ∧
      (l.memory.wallets.Filed → l'.memory.wallets.Filed) ∧
      (∀ i w, l.memory.wallets.wallet? i = some w →
        ∃ w', l'.memory.wallets.wallet? i = some w' ∧
          (i = id ∧ w.EditedBy change w' ∨ i ≠ id ∧ w' = w)) ∧
      ∀ i, l.memory.wallets.wallet? i = none → l'.memory.wallets.wallet? i = none := by
  obtain ⟨x, balance, hx, hbalance, hm⟩ := h.made
  have hid := WalletTable.wallet?_id hx
  rw [hm]
  refine ⟨rfl, fun hfiled => hfiled.write (Wallet.balanceAfter_eq hbalance).2.2,
    fun i w hw => ?_, fun i hi => ?_⟩
  · by_cases hi : i = x.id
    · subst hi
      rw [hid, hx] at hw
      cases hw
      rw [← hid] at hx
      exact ⟨_, WalletTable.wallet?_write_self hx balance,
        .inl ⟨hid, Wallet.editedBy_written hbalance⟩⟩
    · exact ⟨w, (WalletTable.wallet?_write_of_ne hi).trans hw, .inr ⟨hid ▸ hi, rfl⟩⟩
  · show (l.memory.wallets.write (x.write balance)).wallet? i = none
    rw [WalletTable.wallet?_write, hi]
    rfl

end Ledger

namespace Act

variable {t : Terms} {l : Ledger (Faulty Memory)}

/-! ## 2. One act -/

/-- **What an act does to the wallets.** It appends postings that add up. A wallet that was there is
still there, and either the postings account for it or it was edited; a wallet that was not there is
accounted for from its opening. -/
structure Does (l : Ledger (Faulty Memory)) (a : Act) (ps : List Posting)
    (l' : Ledger (Faulty Memory)) : Prop where
  log : l'.memory.wallets.log = l.memory.wallets.log ++ ps
  addUp : ∀ p ∈ ps, p.AddsUp
  kept : ∀ id w, l.memory.wallets.wallet? id = some w →
    ∃ w', l'.memory.wallets.wallet? id = some w' ∧
      (w.Accounts ps w' ∨
        ∃ change, a = .serve (.mutateBalance id change) ∧ ps = [] ∧ w.EditedBy change w')
  opened : ∀ id w', l.memory.wallets.wallet? id = none → l'.memory.wallets.wallet? id = some w' →
    { w' with balance := a.opening, version := 0 }.Accounts ps w'
  absent : ∀ id, l'.memory.wallets.wallet? id = none → ∀ p ∈ ps, p.side? id = none

theorem does_of_turns {a : Act} {l' : Ledger (Faulty Memory)} {ps : List Posting}
    (h : l.memory.wallets.Turns (fun _ => a.opening) ps l'.memory.wallets) : a.Does l ps l' where
  log := h.log
  addUp := h.addUp
  kept id w hw := by
    obtain ⟨w', hw', haccounts⟩ := h.kept id w hw
    exact ⟨w', hw', .inl haccounts⟩
  opened := h.opened
  absent id hid := (h.absent id hid).2

/-- **Every act does no more than this, and keeps the table in order.** -/
theorem does_after (a : Act) : ∃ ps, a.Does l ps (a.after t l) ∧
    (l.memory.wallets.Filed → (a.after t l).memory.wallets.Filed) := by
  by_cases hedit : a.IsEdit
  · obtain ⟨id, change, rfl⟩ : ∃ id change, a = .serve (.mutateBalance id change) := by
      cases a with
      | serve op =>
        cases op with
        | mutateBalance id change => exact ⟨id, change, rfl⟩
        | _ => exact hedit.elim
      | _ => exact hedit.elim
    rcases edits_after (t := t) (l := l) id change with hwaits | ⟨l₁, hwaits, hedited⟩
    · obtain ⟨ps, hturns⟩ : l.Turns (serve (.mutateBalance id change)).opening _ := hwaits.turns
      exact ⟨ps, does_of_turns hturns, hturns.filed⟩
    · -- Waiting leaves the wallets alone, so the edit starts from those that were there.
      obtain ⟨n, hn⟩ := hwaits.memory
      obtain ⟨hlog, hfiled, hkept, habsent⟩ := hedited.wallets
      rw [hn] at hlog hfiled hkept habsent
      refine ⟨[], ⟨hlog.trans (List.append_nil _).symm, ?_, fun i w hw => ?_, ?_, ?_⟩,
        fun h => hfiled (h.congr rfl rfl rfl)⟩
      · exact fun p hp => absurd hp List.not_mem_nil
      · obtain ⟨w', hw', ⟨rfl, hby⟩ | ⟨-, rfl⟩⟩ := hkept i w hw
        · exact ⟨w', hw', .inr ⟨change, rfl, rfl, hby⟩⟩
        · exact ⟨w', hw', .inl (.of_untouched fun p hp => absurd hp List.not_mem_nil)⟩
      · intro i w' hi hw'
        rw [habsent i hi] at hw'
        cases hw'
      · exact fun i _ p hp => absurd hp List.not_mem_nil
  · obtain ⟨ps, hturns⟩ := turns_after (t := t) (l := l) a hedit
    exact ⟨ps, does_of_turns hturns, hturns.filed⟩

/-- A wallet keeps its identity, and its version does not decrease. -/
theorem Does.grows {a : Act} {ps : List Posting} {l' : Ledger (Faulty Memory)}
    (h : a.Does l ps l') {id : Int} {w : Wallet} (hw : l.memory.wallets.wallet? id = some w) :
    ∃ w', l'.memory.wallets.wallet? id = some w' ∧ w.Same w' ∧ w.version ≤ w'.version := by
  obtain ⟨w', hw', haccounts | ⟨change, -, -, hedited⟩⟩ := h.kept id w hw
  · exact ⟨w', hw', haccounts.same, by rw [haccounts.version]; omega⟩
  · exact ⟨w', hw', hedited.same, by rw [hedited.version]; omega⟩

/-! ## 3. Runs of acts -/

/-- **The table of wallets is in order in every state of every run.** -/
theorem filed_runAll (acts : List Act) (hl : l.memory.wallets.Filed) :
    (runAll t l acts).memory.wallets.Filed := by
  induction acts generalizing l with
  | nil => exact hl
  | cons a acts ih =>
    obtain ⟨ps, -, hfiled⟩ := does_after (t := t) (l := l) a
    exact ih (hfiled hl)

theorem Reachable.filed (h : Reachable t l) : l.memory.wallets.Filed := by
  obtain ⟨ids, clock, acts, rfl⟩ := h
  exact filed_runAll acts WalletTable.filed_empty

theorem grows_runAll (acts : List Act) {id : Int} : ∀ {l : Ledger (Faulty Memory)} {w : Wallet},
    l.memory.wallets.wallet? id = some w →
      ∃ w', (runAll t l acts).memory.wallets.wallet? id = some w' ∧ w.Same w' ∧
        w.version ≤ w'.version := by
  induction acts with
  | nil => exact fun {_ w} hw => ⟨w, hw, .refl w, le_refl _⟩
  | cons a acts ih =>
    intro l w hw
    obtain ⟨ps, hdoes, -⟩ := does_after (t := t) (l := l) a
    obtain ⟨w₁, hw₁, hsame, hversion⟩ := hdoes.grows hw
    obtain ⟨w', hw', hsame', hversion'⟩ := ih hw₁
    exact ⟨w', hw', hsame.trans hsame', hversion.trans hversion'⟩

/-- **What holds of the wallets in every run of acts.** In every state at most one wallet has a key
and no balance is negative. From every state on, whatever is done, a wallet keeps its identity, and
its version does not decrease. And one act does to a wallet just what is said in `Act.Does`: the
version counts the writes, and whatever is taken from a balance was there. -/
theorem wallet_invariant (hl : Reachable t l) :
    (∀ w ∈ l.memory.wallets.wallets, 0 ≤ w.balance.toRat ∧
        ∀ x ∈ l.memory.wallets.wallets, x.key = w.key → x = w) ∧
      (∀ w ∈ l.memory.wallets.wallets, ∀ acts,
        ∃ w' ∈ (runAll t l acts).memory.wallets.wallets, w.Same w' ∧ w.version ≤ w'.version) ∧
      ∀ a : Act, ∃ ps, a.Does l ps (a.after t l) := by
  have hfiled := hl.filed
  refine ⟨fun w hw => ⟨hfiled.balance_nonneg hw, fun x hx => hfiled.eq_of_key hx hw⟩,
    fun w hw acts => ?_, fun a => ?_⟩
  · obtain ⟨w', hw', hgrows⟩ := grows_runAll (t := t) acts (hfiled.wallet?_of_mem hw)
    exact ⟨w', WalletTable.mem_of_wallet? hw', hgrows⟩
  · obtain ⟨ps, hdoes, -⟩ := does_after (t := t) (l := l) a
    exact ⟨ps, hdoes⟩

end Act

/-- Every state of a run of operations is one of a run of acts. -/
theorem Ledger.Reachable.act {t : Terms} {l : Ledger (Faulty Memory)} (h : l.Reachable t) :
    Act.Reachable t l := by
  obtain ⟨ids, clock, ops, rfl⟩ := h
  refine ⟨ids, clock, ops.map .serve, ?_⟩
  rw [Act.runAll, List.foldl_map]
  rfl

namespace Small

/-- Somebody who claims that the owner's wallet holds more than it does. -/
def boast (amount : Int) : Act :=
  .post .custody (.ofAmount { annGold with balance := units 5000, version := 77 } systemGold
    ⟨"GOLD", units amount⟩ .trade none none)

end Small

/-- Ten units are there, and sixty are not. -/
theorem Act.wallet_invariant_small :
    Act.Reachable Small.terms Small.ledger ∧
      (∃ ps, ps.length = 1 ∧
        (Small.boast 10).Does Small.ledger ps ((Small.boast 10).after Small.terms Small.ledger)) ∧
      (Small.boast 60).Does Small.ledger [] ((Small.boast 60).after Small.terms Small.ledger) := by
  have hreachable := Small.reachable.act
  have hlength : ∀ amount ps,
      (Small.boast amount).Does Small.ledger ps
        ((Small.boast amount).after Small.terms Small.ledger) →
      ps.length = ((Small.boast amount).after Small.terms
        Small.ledger).memory.wallets.log.length := by
    intro amount ps hdoes
    have hempty : Small.ledger.memory.wallets.log = [] := by decide +kernel
    rw [hdoes.log, hempty, List.nil_append]
  obtain ⟨ps, hten⟩ := (Act.wallet_invariant hreachable).2.2 (Small.boast 10)
  obtain ⟨qs, hsixty⟩ := (Act.wallet_invariant hreachable).2.2 (Small.boast 60)
  have hqs : qs = [] := List.length_eq_zero_iff.1 ((hlength 60 qs hsixty).trans (by decide +kernel))
  subst hqs
  exact ⟨hreachable, ⟨ps, (hlength 10 ps hten).trans (by decide +kernel), hten⟩, hsixty⟩

/-! ## 4. The log as an account -/

/-- **What a posting makes of a wallet,** computed from its amounts alone. -/
def Wallet.replay (w : Wallet) (p : Posting) : Option Wallet :=
  match p.change? w.id with
  | none => some w
  | some change => (w.balance.add? change).map fun balance =>
    { w with balance, version := w.version + 1 }

namespace Posting

/-- A wallet gets a change from a posting exactly if it is on one of its sides. -/
theorem AddsUp.change? {p : Posting} (h : p.AddsUp) {id : Int} {s : Side}
    (hs : p.side? id = some s) :
    ∃ change, p.change? id = some change ∧ s.balanceBefore.add? change = some s.balanceAfter := by
  unfold side? at hs
  unfold Posting.change?
  split_ifs at hs ⊢ with hsource hdest
  · cases hs
    exact ⟨_, rfl, h.debit⟩
  · cases hs
    exact ⟨_, rfl, h.credit⟩

theorem change?_eq_none {p : Posting} {id : Int} (hs : p.side? id = none) :
    p.change? id = none := by
  unfold side? at hs
  unfold change?
  split_ifs at hs ⊢
  rfl

end Posting

/-- **Replaying an account** gives the wallet at its end. -/
theorem Wallet.Accounts.replay {ps : List Posting} (hps : ∀ p ∈ ps, p.AddsUp) :
    ∀ {w w' : Wallet}, w.Accounts ps w' → ps.foldlM Wallet.replay w = some w' := by
  induction ps with
  | nil =>
    intro w w' h
    obtain ⟨hid, ho, hu, hc, hk⟩ := h.same
    have hversion : w'.version = w.version := by simpa [Posting.sidesOf] using h.version
    have hbalance : w'.balance = w.balance := h.chained
    refine congrArg some ?_
    cases w
    cases w'
    simp_all
  | cons p ps ih =>
    intro w w' h
    have hp := hps p List.mem_cons_self
    have hrest : ∀ q ∈ ps, q.AddsUp := fun q hq => hps q (List.mem_cons_of_mem p hq)
    rw [List.foldlM_cons]
    cases hs : p.side? w.id with
    | none =>
      have hreplay : w.replay p = some w := by rw [Wallet.replay, Posting.change?_eq_none hs]
      rw [hreplay]
      exact ih hrest (h.of_cons_none hs)
    | some s =>
      obtain ⟨change, hchange, hsum⟩ := hp.change? hs
      obtain ⟨hbefore, haccounts⟩ := h.cons hs
      have hreplay : w.replay p =
          some { w with balance := s.balanceAfter, version := w.version + 1 } := by
        rw [Wallet.replay, hchange]
        simp only [← hbefore, hsum, Option.map_some]
      rw [hreplay]
      exact ih hrest haccounts

namespace Act

variable {t : Terms} {l : Ledger (Faulty Memory)}

/-- **The balance that a wallet was opened with:** that of the first act after which it is there. -/
def openingBalance (t : Terms) (id : Int) : Ledger (Faulty Memory) → List Act → Decimal
  | _, [] => .zero
  | l, a :: acts =>
    if (a.after t l).memory.wallets.wallet? id = none then openingBalance t id (a.after t l) acts
    else a.opening

/-- **A run without edits is one turn.** -/
theorem turns_runAll {acts : List Act} (hacts : ∀ a ∈ acts, ¬a.IsEdit) :
    ∀ {l : Ledger (Faulty Memory)}, ∃ ps, l.memory.wallets.Turns
      (fun id => openingBalance t id l acts) ps (runAll t l acts).memory.wallets := by
  induction acts with
  | nil => exact fun {l} => ⟨[], .refl _⟩
  | cons a acts ih =>
    intro l
    obtain ⟨ps, hps⟩ := turns_after (t := t) (l := l) a (hacts a List.mem_cons_self)
    obtain ⟨qs, hqs⟩ := ih (fun b hb => hacts b (List.mem_cons_of_mem a hb)) (l := a.after t l)
    exact ⟨ps ++ qs, hps.trans hqs⟩

/-- **The log is a complete account.** After a run of acts none of which edits a balance, the
postings that touch a wallet form a chain from the balance that it was opened with to the balance
that it has, its version is the number of these postings, and replaying the log from the opening
gives the wallet as it is. -/
theorem audit_trail {ids : IdSource} {clock : Instant} {acts : List Act}
    (hacts : ∀ a ∈ acts, ¬a.IsEdit) {w : Wallet}
    (hw : w ∈ (runAll t (.initial ids clock) acts).memory.wallets.wallets) :
    let log := (runAll t (.initial ids clock) acts).memory.wallets.log
    let opened := openingBalance t w.id (.initial ids clock) acts
    Side.Chained opened (Posting.sidesOf w.id log) w.balance ∧
      w.version = (Posting.sidesOf w.id log).length ∧
      log.foldlM Wallet.replay { w with balance := opened, version := 0 } = some w := by
  obtain ⟨ps, hturns⟩ := turns_runAll (t := t) hacts (l := .initial ids clock)
  have hlog : (runAll t (.initial ids clock) acts).memory.wallets.log = ps := hturns.log
  have hfiled := filed_runAll (t := t) (l := .initial ids clock) acts WalletTable.filed_empty
  have haccounts := hturns.opened w.id w rfl (hfiled.wallet?_of_mem hw)
  rw [hlog]
  refine ⟨haccounts.chained, ?_, haccounts.replay hturns.addUp⟩
  rw [haccounts.version]
  exact zero_add _

end Act

namespace Small

/-- A payment between two wallets, of which nothing but the numbers is right. -/
def pays (source dest amount : Int) : Act :=
  .post .generic (.ofAmount { annGold with id := source } { annGold with id := dest }
    ⟨"GOLD", units amount⟩ .trade none none)

/-- Two wallets are opened and payments are tried, of which one cannot be afforded and one meets a
conflict. -/
def trail : List Act := [
  .serve (.createOwner "ann" "Ann" "1"),
  .serve (.createWallet "ann" ⟨"GOLD", units 50⟩ .main),
  .openWallet ⟨9, "bob", "Bob", "1", 7⟩ ⟨"GOLD", units 1⟩ .main,
  pays 1 2 10,
  pays 2 1 60,
  .serve (.inject 1),
  pays 2 1 5]

end Small

theorem Act.audit_trail_small :
    (∀ a ∈ Small.trail, ¬a.IsEdit) ∧
      ∃ w ∈ (runAll Small.terms (.initial Small.ids 0) Small.trail).memory.wallets.wallets,
        w.id = 1 ∧ w.balance = Small.units 45 ∧ w.version = 2 ∧
        Side.Chained (Small.units 50) (Posting.sidesOf 1
          (runAll Small.terms (.initial Small.ids 0) Small.trail).memory.wallets.log)
          w.balance := by
  have hacts : ∀ a ∈ Small.trail, ¬a.IsEdit := by
    simp [Small.trail, Small.pays, IsEdit, Operation.IsEdit]
  have hfound : ((runAll Small.terms (.initial Small.ids 0) Small.trail).memory.wallets.wallet?
      1).map (fun w => (w.balance, w.version)) = some (Small.units 45, 2) := by decide +kernel
  obtain ⟨w, hw, heq⟩ := Option.map_eq_some_iff.1 hfound
  obtain ⟨hbalance, hversion⟩ := Prod.mk.inj heq
  have hid := WalletTable.wallet?_id hw
  have hmem := WalletTable.mem_of_wallet? hw
  have hopened : openingBalance Small.terms 1 (.initial Small.ids 0) Small.trail =
      Small.units 50 := by decide +kernel
  obtain ⟨hchained, -, -⟩ := audit_trail hacts hmem
  rw [hid, hopened] at hchained
  exact ⟨hacts, w, hmem, hid, hbalance, hversion, hchained⟩

end WalletLedger
