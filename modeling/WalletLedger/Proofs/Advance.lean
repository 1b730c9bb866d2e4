/-
Advancing a reservation is all or nothing.

Where no call fails and no balance is rounded, a settlement under a new attempt ends in one of three
ways. The withdraw leg is refused, and the claim is given up; both legs are posted, and the
reservation is committed; or the deposit leg is refused after the withdraw leg was posted, and then
the refund leg is posted and the claim is given up. `UnderWay` is what is known between the legs,
and it carries the list of the legs that are posted. The refund goes through because what was
delivered can be returned (`Delivered.ends_return`).

That is what the log and the reservation say. The balances follow from the log: in a run of turns
every wallet holds what it held and what the new postings add to it (`Turns.holding`), and a
withdraw leg and its refund add nothing to any wallet.
-/
import WalletLedger.Proofs.AuditTrail
import WalletLedger.Proofs.Delivery
import WalletLedger.Proofs.Settling

set_option autoImplicit false

namespace WalletLedger

open WalletLedger.Action

/-! ## 1. Holdings -/

/-- **What a posting adds to a wallet,** as an exact number. -/
def Posting.delta (p : Posting) (id : Int) : ℚ :=
  (if p.source.walletId = id then -p.source.amount.value.toRat else 0) +
    if p.dest.walletId = id then p.dest.amount.value.toRat else 0

/-- What the wallet with a number holds; a wallet that is not there holds nothing. -/
def WalletTable.holding (t : WalletTable) (id : Int) : ℚ :=
  ((t.wallet? id).map fun w => w.balance.toRat).getD 0

namespace Posting

theorem delta_of_untouched {p : Posting} {id : Int} (h : p.side? id = none) : p.delta id = 0 := by
  unfold side? at h
  unfold delta
  split_ifs at h ⊢
  exact add_zero 0

/-- A side of an exact posting differs by what the posting adds. -/
theorem AddsUp.delta {p : Posting} (h : p.AddsUp) (hexact : p.IsExact) {id : Int} {s : Side}
    (hs : p.side? id = some s) : s.balanceAfter.toRat = s.balanceBefore.toRat + p.delta id := by
  obtain ⟨hsource, hdest⟩ := hexact
  unfold side? at hs
  unfold Posting.delta
  by_cases hid : p.source.walletId = id
  · rw [if_pos hid] at hs
    cases hs
    rw [if_pos hid, if_neg fun hid' => h.apart (hid.trans hid'.symm), hsource]
    ring
  · rw [if_neg hid] at hs
    split_ifs at hs with hid'
    cases hs
    rw [if_neg hid, if_pos hid', hdest]
    ring

end Posting

/-- What a posting adds is what its movement says. -/
theorem WalletTable.Posts.delta {t t' : WalletTable} {access : Access} {mv : Movement}
    {p : Posting} (h : t.Posts access mv p t') (id : Int) :
    p.delta id = (if mv.source.id = id then -mv.sourceAmount.value.toRat else 0) +
      if mv.dest.id = id then mv.destAmount.value.toRat else 0 := by
  cases h with
  | made source dest _ _ _ _ _ hsource hdest =>
    rw [← wallet?_id hsource, ← wallet?_id hdest]
    rfl

/-- So it takes something from its source. -/
theorem WalletTable.Posts.delta_source {t t' : WalletTable} {access : Access} {mv : Movement}
    {p : Posting} (h : t.Posts access mv p t') : p.delta mv.source.id < 0 := by
  have hchecked : mv.check = .ok () := by
    cases h with
    | made _ _ _ _ _ _ checked => exact checked
  have hpos := (Decimal.isPositive_iff _).1 (Movement.check_pos hchecked)
  rw [h.delta, if_pos rfl, if_neg (Movement.check_ne hchecked).symm, add_zero]
  exact neg_lt_zero.2 hpos

/-- **An exact account** leads to the balance at its beginning and the sum of what the postings
add. -/
theorem Wallet.Accounts.toRat_balance {ps : List Posting} (hps : ∀ p ∈ ps, p.AddsUp)
    (hexact : ∀ p ∈ ps, p.IsExact) : ∀ {w w' : Wallet}, w.Accounts ps w' →
      w'.balance.toRat = w.balance.toRat + (ps.map (·.delta w.id)).sum := by
  induction ps with
  | nil =>
    intro w w' h
    have hbalance : w'.balance = w.balance := h.chained
    rw [hbalance, List.map_nil, List.sum_nil, add_zero]
  | cons p ps ih =>
    intro w w' h
    have hrest : ∀ q ∈ ps, q.AddsUp := fun q hq => hps q (List.mem_cons_of_mem p hq)
    have hrest' : ∀ q ∈ ps, q.IsExact := fun q hq => hexact q (List.mem_cons_of_mem p hq)
    rw [List.map_cons, List.sum_cons]
    cases hs : p.side? w.id with
    | none =>
      rw [Posting.delta_of_untouched hs, zero_add]
      exact ih hrest hrest' (h.of_cons_none hs)
    | some s =>
      obtain ⟨hbefore, haccounts⟩ := h.cons hs
      have hstep := (hps p List.mem_cons_self).delta (hexact p List.mem_cons_self) hs
      rw [ih hrest hrest' haccounts, ← add_assoc, ← hbefore, ← hstep]

/-- **Every wallet holds what it held and what the postings add,** if wallets are opened empty. -/
theorem WalletTable.Turns.holding {t t' : WalletTable} {ps : List Posting}
    (h : Turns (fun _ => .zero) t ps t') (hexact : ∀ p ∈ ps, p.IsExact) (id : Int) :
    t'.holding id = t.holding id + (ps.map (·.delta id)).sum := by
  unfold WalletTable.holding
  cases hw : t.wallet? id with
  | some w =>
    obtain ⟨w', hw', haccounts⟩ := h.kept id w hw
    obtain rfl := wallet?_id hw
    rw [hw']
    exact haccounts.toRat_balance h.addUp hexact
  | none =>
    cases hw' : t'.wallet? id with
    | some w' =>
      obtain rfl := wallet?_id hw'
      have hopened := (h.opened w'.id w' hw hw').toRat_balance h.addUp hexact
      rw [Decimal.toRat_zero] at hopened
      exact hopened
    | none =>
      have hzero : ∀ q ∈ ps.map (·.delta id), q = 0 := by
        intro q hq
        obtain ⟨p, hp, rfl⟩ := List.mem_map.1 hq
        exact Posting.delta_of_untouched ((h.absent id hw').2 p hp)
      rw [List.sum_eq_zero hzero, add_zero]

/-! ## 2. Legs -/

/-- **The posting of a leg:** between which wallets it is, of what, and under which reference. -/
def Posting.IsLeg (p : Posting) (m : Memory) (systemUuid : String) (r : Reservation)
    (s : Settlement) : Leg → Prop
  | .withdraw => p.Moves m (r.senderUuid, r.senderKind) (systemUuid, .main)
      ⟨r.sourceSymbol, r.sourceAmount⟩ (some (r.legRef s .withdraw))
  | .deposit => p.Moves m (systemUuid, .main) (r.receiverUuid, r.receiverKind)
      ⟨r.destSymbol, r.destAmount⟩ (some (r.legRef s .deposit))
  | .refund => p.Moves m (systemUuid, .main) (r.senderUuid, r.senderKind)
      ⟨r.sourceSymbol, r.sourceAmount⟩ (some (r.legRef s .refund))

/-- Only the owners and the wallets tell whose wallet it is. -/
theorem Posting.IsLeg.congr {p : Posting} {m m' : Memory} {systemUuid : String} {r : Reservation}
    {s : Settlement} {leg : Leg} (h : p.IsLeg m systemUuid r s leg)
    (hwallets : m'.wallets = m.wallets) : p.IsLeg m' systemUuid r s leg := by
  have hfiles : m'.Files = m.Files := by
    funext account symbol id
    unfold Memory.Files Memory.Knows
    rw [hwallets]
  cases leg <;> exact ⟨hfiles ▸ h.source, hfiles ▸ h.dest, h.taken, h.given, h.ref⟩

/-- A withdraw leg and its refund add nothing to any wallet. -/
theorem Posting.delta_add_refund {p q : Posting} {m : Memory} {systemUuid : String}
    {r : Reservation} {s : Settlement} (hp : p.IsLeg m systemUuid r s .withdraw)
    (hq : q.IsLeg m systemUuid r s .refund) (id : Int) : p.delta id + q.delta id = 0 := by
  have hsender : p.source.walletId = q.dest.walletId := hp.source.eq hq.dest
  have hsystem : p.dest.walletId = q.source.walletId := hp.dest.eq hq.source
  unfold delta
  rw [hsender, hsystem, hp.taken, hp.given, hq.taken, hq.given]
  split_ifs <;> ring

/-- One row is amended, and the others are found as they were. -/
theorem ReservationTable.find?_amended {t : ReservationTable} {number : String} {r : Reservation}
    {g : Reservation → Reservation} (hg : ∀ x, (g x).number = x.number)
    (hr : t.find? number = some r) (n : String) :
    (t.amended number g).find? n = if n = number then some (g r) else t.find? n := by
  have hkeeps : ∀ x : Reservation,
      ((if x.number = number then g x else x).number == n) = (x.number == n) := by
    intro x
    split_ifs
    · rw [hg]
    · rfl
  have hfound : (t.amended number g).find? n =
      (t.find? n).map fun x => if x.number = number then g x else x := find?_map_of_keeps hkeeps _
  rw [hfound]
  by_cases hn : n = number
  · rw [if_pos hn, hn, hr, Option.map_some, if_pos (find?_number hr)]
  · rw [if_neg hn]
    cases hx : t.find? n with
    | none => rfl
    | some x => rw [Option.map_some, if_neg fun heq => hn ((find?_number hx).symm.trans heq)]

namespace Ledger

variable {l l₁ l' : Ledger (Faulty Memory)} {t : Terms} {r : Reservation} {s : Settlement}

theorem Evolves.isLeg {f : Effect → Prop} (h : l.Evolves f l') {p : Posting} {leg : Leg}
    (hp : p.IsLeg l.memory t.systemUuid r s leg) : p.IsLeg l'.memory t.systemUuid r s leg := by
  cases leg with
  | withdraw => exact h.moves hp
  | deposit => exact h.moves hp
  | refund => exact h.moves hp

theorem Delivered.isLeg {leg : Leg} {p : Posting}
    (h : l.Delivered (r.legRequest t.systemUuid s leg) p l') (hl : l.memory.Sound) :
    p.IsLeg l'.memory t.systemUuid r s leg := by
  cases leg with
  | withdraw => exact h.moves hl
  | deposit => exact h.moves hl
  | refund => exact h.moves hl

/-- A leg puts no reference into the log but its own. -/
theorem Delivered.unborne {leg other : Leg} {p : Posting}
    (h : l.Delivered (r.legRequest t.systemUuid s leg) p l') (hne : other ≠ leg)
    (hnew : ¬l.memory.Bears (r.legRef s other)) : ¬l'.memory.Bears (r.legRef s other) := by
  rw [Memory.Bears, h.log]
  rintro ⟨q, hq, href⟩
  rcases List.mem_append.1 hq with hold | hlast
  · exact hnew ⟨q, hold, href⟩
  · obtain rfl := List.mem_singleton.1 hlast
    rw [h.ref, legRequest_ref] at href
    exact hne (Leg.legRef_inj (Option.some.inj href)).symm

/-! ## 3. Between the legs -/

/-- **A reservation that is claimed,** with the legs that are posted so far. -/
structure UnderWay (l : Ledger (Faulty Memory)) (r : Reservation) (s : Settlement)
    (posted : List Leg) : Prop where
  sure : l.Sure
  sound : l.memory.Sound
  unhurried : l.memory.wallets.conflicts = 0
  row : l.memory.reservations.find? r.number = some { r with settlement := some s }
  status : r.status = .reserved
  new : ∀ leg, leg ∉ posted → ¬l.memory.Bears (r.legRef s leg)

namespace UnderWay

variable {posted : List Leg}

/-- A leg that is not posted has a new reference. -/
theorem unused (h : l.UnderWay r s posted) {leg : Leg} (hleg : leg ∉ posted) :
    l.memory.wallets.byRef? (r.legRef s leg) = none := by
  rw [Option.eq_none_iff_forall_ne_some]
  intro p hp
  exact h.new leg hleg ((Memory.bears_iff h.sound).2 ⟨p, hp⟩)

/-- **Posting the next leg.** -/
theorem ends_postLeg (h : l.UnderWay r s posted) (leg : Leg) (hleg : leg ∉ posted) :
    (postLeg t r s leg).Ends
      (fun _ l' => 0 < t.maxAttempts ∧ ∃ p, l.Delivered (r.legRequest t.systemUuid s leg) p l')
      (fun stop l' => (∃ cause, stop = .refused cause) ∧ l.Evolves Effect.Quiet l') l := by
  refine h.sure.ends_transfer ?_
  rw [legRequest_ref, Option.bind_some]
  exact h.unused hleg

/-- A leg that is refused changes nothing of it. -/
theorem quiet (h : l.UnderWay r s posted) (hquiet : l.Evolves Effect.Quiet l') :
    l'.UnderWay r s posted := by
  refine ⟨hquiet.sure h.sure, hquiet.sound h.sound, hquiet.unhurried nofun h.unhurried, ?_,
    h.status, fun leg hleg => ?_⟩
  · rw [(hquiet.reservations nofun).1]
    exact h.row
  · rw [Memory.Bears, hquiet.log_of_quiet.1]
    exact h.new leg hleg

/-- The next leg is posted. -/
theorem delivered (h : l.UnderWay r s posted) {leg : Leg} {p : Posting}
    (hp : l.Delivered (r.legRequest t.systemUuid s leg) p l') :
    l'.UnderWay r s (leg :: posted) := by
  have hmoved := hp.moved
  refine ⟨hmoved.sure h.sure, hmoved.sound h.sound,
    hmoved.unhurried Effect.not_moves_pending h.unhurried, ?_, h.status, fun other hother => ?_⟩
  · rw [hp.reservations]
    exact h.row
  · exact hp.unborne (fun hother' => hother (hother' ▸ List.mem_cons_self))
      (h.new other fun hmem => hother (List.mem_cons_of_mem _ hmem))

/-- The claim is given up. -/
theorem succeeds_clear (h : l.UnderWay r s posted) :
    Succeeds (ask (.clearSettlement r.number)) (fun _ m => m = l.memory.withReservations
      (l.memory.reservations.amended r.number fun x => { x with settlement := none }))
      l.memory :=
  (succeeds_changeIf rfl h.row (by simp [h.status])).mono fun _ _ hdone => hdone.2

theorem succeeds_commit (h : l.UnderWay r s posted) :
    Succeeds (ask (.updateStatusIf r.number .reserved .committed))
      (fun _ m => m = l.memory.withReservations
        (l.memory.reservations.amended r.number fun x => { x with status := .committed }))
      l.memory :=
  (succeeds_changeIf rfl h.row (by simp [h.status])).mono fun _ _ hdone => hdone.2

/-- A withdraw leg that is refused is not in the log, so the claim is given up. -/
theorem succeeds_giveUp (h : l.UnderWay r s []) :
    Succeeds (giveUpUnlessPosted r s) (fun _ m => m = l.memory.withReservations
      (l.memory.reservations.amended r.number fun x => { x with settlement := none }))
      l.memory := by
  have hread : Reads (findPosting (r.legRef s .withdraw)) none l.memory :=
    h.unused List.not_mem_nil ▸ reads_findPosting _
  unfold giveUpUnlessPosted
  exact hread.bind (h.succeeds_clear.bind fun _ _ hm => succeeds_pure hm)

end UnderWay

/-- **Two legs are posted,** the withdraw leg and then another one, and the reservation is
amended. -/
def PostsBoth (l : Ledger (Faulty Memory)) (t : Terms) (r : Reservation) (s : Settlement)
    (leg : Leg) (g : Reservation → Reservation) (l' : Ledger (Faulty Memory)) : Prop :=
  (∃ p q, l'.memory.wallets.log = l.memory.wallets.log ++ [p, q] ∧
    p.IsLeg l'.memory t.systemUuid r s .withdraw ∧ q.IsLeg l'.memory t.systemUuid r s leg) ∧
  l'.memory.reservations = l.memory.reservations.amended r.number g

/-- **Both legs are posted** and the reservation is committed. -/
def Pays (l : Ledger (Faulty Memory)) (t : Terms) (r : Reservation) (s : Settlement) :
    Ledger (Faulty Memory) → Prop :=
  l.PostsBoth t r s .deposit fun x => { x with status := .committed }

/-- **What was taken is returned,** and the claim is given up. -/
def Refunds (l : Ledger (Faulty Memory)) (t : Terms) (r : Reservation) (s : Settlement) :
    Ledger (Faulty Memory) → Prop :=
  l.PostsBoth t r s .refund fun x => { x with settlement := none }

/-- **Nothing is posted** and the claim is given up. -/
def GivesUp (l : Ledger (Faulty Memory)) (r : Reservation) (l' : Ledger (Faulty Memory)) : Prop :=
  l'.memory.wallets.log = l.memory.wallets.log ∧
  l'.memory.reservations =
    l.memory.reservations.amended r.number fun x => { x with settlement := none }

namespace UnderWay

/-- The withdraw leg is delivered, then something is refused or not, then another leg is delivered,
and then the reservation is amended. -/
theorem postsBoth {l₂ l₃ : Ledger (Faulty Memory)} {p q : Posting} {leg : Leg}
    {g : Reservation → Reservation} (h : l.UnderWay r s [])
    (hp : l.Delivered (r.legRequest t.systemUuid s .withdraw) p l₁)
    (hquiet : l₁.Evolves Effect.Quiet l₂)
    (hq : l₂.Delivered (r.legRequest t.systemUuid s leg) q l₃)
    (hm : l'.memory =
      l₃.memory.withReservations (l₃.memory.reservations.amended r.number g)) :
    l.PostsBoth t r s leg g l' := by
  have hwallets : l'.memory.wallets = l₃.memory.wallets := by rw [hm]; rfl
  have hreservations : l₃.memory.reservations = l.memory.reservations :=
    hq.reservations.trans ((hquiet.reservations nofun).1.trans hp.reservations)
  have hwithdraw := hq.moved.isLeg (hquiet.isLeg (hp.isLeg h.sound))
  have hleg := hq.isLeg ((h.delivered hp).quiet hquiet).sound
  refine ⟨⟨p, q, ?_, hwithdraw.congr hwallets, hleg.congr hwallets⟩, ?_⟩
  · rw [hwallets, hq.log, hquiet.log_of_quiet.1, hp.log, List.append_assoc]
    rfl
  · rw [hm, hreservations]
    rfl

/-- **After the withdraw leg** what was taken is returned, unless it was rounded when it was
taken. -/
theorem ends_refund {p : Posting} (h : l.UnderWay r s [])
    (hp : l.Delivered (r.legRequest t.systemUuid s .withdraw) p l₁)
    (hquiet : l₁.Evolves Effect.Quiet l') (ht : 0 < t.maxAttempts) :
    (refundAndGiveUp t r s).Ends
      (fun _ l₂ => l.Refunds t r s l₂ ∨
        l₂.memory.wallets.log = l.memory.wallets.log ++ [p] ∧ ¬p.IsExact)
      (fun _ _ => False) l' := by
  have htaken := (h.delivered hp).quiet hquiet
  have hunposted : Leg.refund ∉ [Leg.withdraw] := by decide
  have hlog : l'.memory.wallets.log = l.memory.wallets.log ++ [p] :=
    hquiet.log_of_quiet.1.trans hp.log
  have hpost : (postLeg t r s .refund).Ends
      (fun _ l₂ => ∃ q, l'.Delivered (r.legRequest t.systemUuid s .refund) q l₂)
      (fun stop l₂ => (∃ cause, stop = .refused cause) ∧ l'.Evolves Effect.Quiet l₂ ∧ ¬p.IsExact)
      l' := by
    by_cases hexact : p.IsExact
    · have hreturn : (postLeg t r s .refund).Ends (fun _ _ => True) (fun _ _ => False) l' :=
        hp.ends_return h.sound hexact hquiet htaken.sure htaken.unhurried
          ⟨rfl, rfl, rfl, rfl, rfl, rfl⟩ (htaken.unused hunposted) ht
      exact Ends.mono ((htaken.ends_postLeg .refund hunposted).and hreturn)
        (fun _ _ hdone => hdone.1.2) fun _ _ hstop => hstop.2.elim
    · exact Ends.mono (htaken.ends_postLeg .refund hunposted) (fun _ _ hdone => hdone.2)
        fun _ _ hstop => ⟨hstop.1, hstop.2, hexact⟩
  unfold refundAndGiveUp
  rw [ends_bind, ends_attempt]
  refine Ends.mono hpost (fun _ l₂ hdone => ?_) fun stop l₂ hstop => ?_
  · obtain ⟨q, hq⟩ := hdone
    rw [ends_bind]
    have hgiven := htaken.delivered hq
    exact Ends.mono (hgiven.succeeds_clear.ends hgiven.sure)
      (fun _ _ hm => .inl (h.postsBoth hp hquiet hq hm)) fun _ _ => id
  · obtain ⟨⟨cause, rfl⟩, hrefused, hrounded⟩ := hstop
    exact ⟨fun _ _ => .inr ⟨hrefused.log_of_quiet.1.trans hlog, hrounded⟩, nofun⟩

end UnderWay

/-- **No balance was rounded** in the postings that were made. -/
def PostsExactly (l l' : Ledger (Faulty Memory)) : Prop :=
  ∀ p ∈ l'.memory.wallets.log.drop l.memory.wallets.log.length, p.IsExact

instance : Decidable (l.PostsExactly l') := inferInstanceAs (Decidable (∀ p ∈ _, _))

theorem PostsExactly.of_log (h : l.PostsExactly l') {ps : List Posting}
    (hlog : l'.memory.wallets.log = l.memory.wallets.log ++ ps) : ∀ p ∈ ps, p.IsExact := by
  rw [PostsExactly, hlog, List.drop_left] at h
  exact h

/-- **Settling pays, or it leaves nothing behind.** -/
theorem UnderWay.ends_settle (h : l.UnderWay r s []) :
    (settle t r s).Ends (fun _ l' => l.Pays t r s l')
      (fun _ l' => l.PostsExactly l' → l.GivesUp r l' ∨ l.Refunds t r s l') l := by
  unfold settle
  rw [ends_bind, ends_attempt]
  refine Ends.mono (h.ends_postLeg .withdraw List.not_mem_nil) (fun taken l₁ hok => ?_)
    fun stop l₁ hstop => ?_
  · obtain ⟨ht, p, hp⟩ := hok
    have htaken := h.delivered hp
    rw [ends_bind, ends_attempt]
    refine Ends.mono (htaken.ends_postLeg .deposit (by decide)) (fun given l₂ hok₂ => ?_)
      fun stop l₂ hstop₂ => ?_
    · obtain ⟨-, q, hq⟩ := hok₂
      rw [ends_bind]
      have hgiven := htaken.delivered hq
      exact Ends.mono (hgiven.succeeds_commit.ends hgiven.sure)
        (fun _ _ hm => h.postsBoth hp (.refl l₁) hq hm) fun _ _ => False.elim
    · obtain ⟨⟨cause, rfl⟩, hquiet⟩ := hstop₂
      refine ⟨fun cause' _ => ?_, nofun⟩
      rw [ends_bind]
      refine Ends.mono (h.ends_refund hp hquiet ht) (fun _ l₃ hdone hexact => ?_)
        fun _ _ => False.elim
      rcases hdone with hrefunds | ⟨hlog, hrounded⟩
      · exact .inr hrefunds
      · exact absurd (hexact.of_log hlog p (List.mem_singleton_self p)) hrounded
  · obtain ⟨⟨cause, rfl⟩, hquiet⟩ := hstop
    refine ⟨fun cause' _ => ?_, nofun⟩
    rw [ends_bind]
    have hrefused := h.quiet hquiet
    refine Ends.mono (hrefused.succeeds_giveUp.ends hrefused.sure) (fun _ l₂ hm _ => .inl ⟨?_, ?_⟩)
      fun _ _ => False.elim
    · rw [hm]
      exact hquiet.log_of_quiet.1
    · rw [← (hquiet.reservations nofun).1, hm]
      rfl

/-! ## 4. Advancing -/

/-- **All of it:** the log has gained the withdraw leg and the deposit leg, every wallet holds what
it held and what they add to it, and the reservation is committed. -/
def Advanced (l : Ledger (Faulty Memory)) (t : Terms) (number : String)
    (l' : Ledger (Faulty Memory)) : Prop :=
  ∃ r s p q, l.memory.reservations.find? number = some r ∧
    l'.memory.wallets.log = l.memory.wallets.log ++ [p, q] ∧
    p.IsLeg l'.memory t.systemUuid r s .withdraw ∧
    q.IsLeg l'.memory t.systemUuid r s .deposit ∧
    (∀ id, l'.memory.wallets.holding id =
      l.memory.wallets.holding id + p.delta id + q.delta id) ∧
    ∀ n, l'.memory.reservations.find? n =
      if n = number then some { r with status := .committed, settlement := some s }
      else l.memory.reservations.find? n

/-- **Nothing of it:** the log has gained nothing, or the withdraw leg and its refund; every wallet
holds what it held, and every reservation is what it was. -/
def Undone (l : Ledger (Faulty Memory)) (t : Terms) (number : String)
    (l' : Ledger (Faulty Memory)) : Prop :=
  (l'.memory.wallets.log = l.memory.wallets.log ∨
    ∃ r s p q, l.memory.reservations.find? number = some r ∧
      l'.memory.wallets.log = l.memory.wallets.log ++ [p, q] ∧
      p.IsLeg l'.memory t.systemUuid r s .withdraw ∧
      q.IsLeg l'.memory t.systemUuid r s .refund) ∧
  (∀ id, l'.memory.wallets.holding id = l.memory.wallets.holding id) ∧
  ∀ n, l'.memory.reservations.find? n = l.memory.reservations.find? n

/-- **An idle reservation is claimed.** -/
structure Claims (l : Ledger (Faulty Memory)) (r : Reservation) (s : Settlement)
    (l' : Ledger (Faulty Memory)) : Prop extends Follows l l' where
  row : l.memory.reservations.find? r.number = some r
  idle : r.isIdle = true
  memory : l'.memory = { l.memory.withReservations (l.memory.reservations.amended r.number fun x =>
    { x with settlement := some s }) with claimed := l.memory.claimed + 1 }

namespace Claims

theorem wallets (h : l.Claims r s l') : l'.memory.wallets = l.memory.wallets := by
  rw [h.memory]
  rfl

/-- A second change of the reservation that is claimed, and what is found then. -/
theorem find? (h : l.Claims r s l₁) {g : Reservation → Reservation}
    (hm : l'.memory.reservations = l₁.memory.reservations.amended r.number g)
    (hg : ∀ x, (g x).number = x.number) (n : String) :
    l'.memory.reservations.find? n =
      if n = r.number then some (g { r with settlement := some s })
      else l.memory.reservations.find? n := by
  have hfirst : ∀ n, l₁.memory.reservations.find? n =
      if n = r.number then some { r with settlement := some s }
      else l.memory.reservations.find? n := by
    rw [h.memory]
    exact ReservationTable.find?_amended (fun _ => rfl) h.row
  rw [hm, ReservationTable.find?_amended hg ((hfirst r.number).trans (if_pos rfl)), hfirst]
  split_ifs <;> rfl

theorem status (h : l.Claims r s l') : r.status = .reserved := by
  have hidle := h.idle
  rw [Reservation.isIdle, Bool.and_eq_true, beq_iff_eq] at hidle
  exact hidle.1

theorem sound (h : l.Claims r s l') (hsound : l.memory.Sound) : l'.memory.Sound := by
  rw [h.memory]
  exact ⟨hsound.wallets, hsound.rowIds, hsound.lastRow, hsound.held⟩

/-- The reservation is found with its settlement. -/
theorem found (h : l.Claims r s l') :
    l'.memory.reservations.find? r.number = some { r with settlement := some s } := by
  rw [h.memory]
  have hfind := ReservationTable.find?_amended
    (g := fun x => { x with settlement := some s }) (fun _ => rfl) h.row r.number
  exact hfind.trans (if_pos rfl)

/-- A claim puts the reservation under way. -/
theorem underWay (h : l.Claims r s l') (hsure : l.Sure) (hsound : l.memory.Sound)
    (hconflicts : l.memory.wallets.conflicts = 0)
    (hnew : ∀ leg, ¬l.memory.Bears (r.legRef s leg)) : l'.UnderWay r s [] := by
  refine ⟨h.sure hsure, h.sound hsound, h.wallets ▸ hconflicts, h.found, h.status, fun leg _ => ?_⟩
  rw [Memory.Bears, h.wallets]
  exact hnew leg

end Claims

/-- **Claiming,** where no call fails: an idle reservation is claimed, or nothing is written. -/
theorem Sure.ends_claimReservation (hsure : l.Sure) (number : String)
    (description ref issuer : Option String) :
    (claimReservation number description ref issuer).Ends
      (fun claimed l' => claimed.1.number = number ∧ l.Claims claimed.1 claimed.2 l' ∧
        claimed.2.attempt = l.memory.fresh.attempt)
      (fun _ l' => l'.memory = l.memory) l := by
  refine Ledger.ends_claimReservation number description ref issuer
    (fun _ l' hstill => hstill.memory) fun l₁ r s hstill hr hstatus hs => ?_
  have hnumber := ReservationTable.find?_number hr
  rw [ends_bind]
  refine (hstill.sure hsure).ends_ask (fun claimed l₂ hfollows ha => ?_) fun cause l₂ hstill₂ _ =>
    (hstill.trans hstill₂).memory
  rw [hstill.memory] at ha
  obtain ⟨x, hx, hclaimed, hcases⟩ := Memory.answer_beginSettlement ha
  obtain rfl : r = x := Option.some.inj (hr.symm.trans hx)
  rw [ends_bind, ends_require]
  rcases hcases with ⟨rfl, hm⟩ | ⟨rfl, hm⟩
  · exact ⟨nofun, fun _ => hm⟩
  · refine ⟨fun _ => ⟨hnumber, ?_, hs⟩, nofun⟩
    subst hnumber
    exact ⟨hstill.toFollows.trans hfollows, hr, hclaimed.symm, hm⟩

/-- **Advancing,** as far as the log and the reservations go. -/
theorem Sure.ends_advanceReservation (hsure : l.Sure) (hsound : l.memory.Sound)
    (hconflicts : l.memory.wallets.conflicts = 0)
    (hfresh : ∀ (leg : Leg) settleRef number,
      ¬l.memory.Bears (leg.ref settleRef number l.memory.fresh.attempt))
    (number : String) (description ref issuer : Option String) :
    (advanceReservation t number description ref issuer).Ends
      (fun _ l' => ∃ r s l₁, r.number = number ∧ l.Claims r s l₁ ∧ l₁.Pays t r s l')
      (fun _ l' => l.PostsExactly l' → l'.memory = l.memory ∨
        ∃ r s l₁, r.number = number ∧ l.Claims r s l₁ ∧
          (l₁.GivesUp r l' ∨ l₁.Refunds t r s l')) l := by
  rw [advanceReservation_eq, ends_bind]
  refine Ends.mono (hsure.ends_claimReservation number description ref issuer)
    (fun claimed l₁ hdone => ?_) fun _ l' hm _ => .inl hm
  obtain ⟨r, s⟩ := claimed
  obtain ⟨hnumber, hclaims, hs⟩ := hdone
  have hnew : ∀ leg, ¬l.memory.Bears (r.legRef s leg) := by
    intro leg
    rw [Leg.legRef_eq]
    exact hs ▸ hfresh leg _ _
  refine Ends.mono (hclaims.underWay hsure hsound hconflicts hnew).ends_settle
    (fun _ l₂ hpays => ⟨r, s, l₁, hnumber, hclaims, hpays⟩) fun _ l₂ hends hexact => .inr ?_
  refine ⟨r, s, l₁, hnumber, hclaims, hends ?_⟩
  rwa [PostsExactly, hclaims.wallets]

/-- The log tells what the wallets hold, if it was not rounded. -/
theorem Turns.holding_of_log (h : l.Turns .zero l') (hexact : l.PostsExactly l') {ps : List Posting}
    (hlog : l'.memory.wallets.log = l.memory.wallets.log ++ ps) (id : Int) :
    l'.memory.wallets.holding id =
      l.memory.wallets.holding id + (ps.map (·.delta id)).sum := by
  obtain ⟨qs, hqs⟩ := h
  obtain rfl : qs = ps := List.append_cancel_left (hqs.log.symm.trans hlog)
  exact hqs.holding (hexact.of_log hlog) id

theorem Claims.advanced (h : l.Claims r s l₁) (hpays : l₁.Pays t r s l') (hturns : l.Turns .zero l')
    (hexact : l.PostsExactly l') : l.Advanced t r.number l' := by
  obtain ⟨⟨p, q, hlog, hp, hq⟩, hreservations⟩ := hpays
  rw [h.wallets] at hlog
  refine ⟨r, s, p, q, h.row, hlog, hp, hq, fun id => ?_, h.find? hreservations fun _ => rfl⟩
  rw [hturns.holding_of_log hexact hlog]
  simp [add_assoc]

/-- A reservation whose claim is given up is what it was. -/
theorem Claims.find?_released (h : l.Claims r s l₁)
    (hm : l'.memory.reservations =
      l₁.memory.reservations.amended r.number fun x => { x with settlement := none }) (n : String) :
    l'.memory.reservations.find? n = l.memory.reservations.find? n := by
  have hnone : r.settlement = none := by
    have hidle := h.idle
    rw [Reservation.isIdle, Bool.and_eq_true] at hidle
    exact Option.isNone_iff_eq_none.1 hidle.2
  rw [h.find? hm fun _ => rfl]
  split_ifs with hn
  · rw [hn, h.row, ← hnone]
  · rfl

theorem Claims.undone (h : l.Claims r s l₁) (hends : l₁.GivesUp r l' ∨ l₁.Refunds t r s l')
    (hturns : l.Turns .zero l') (hexact : l.PostsExactly l') : l.Undone t r.number l' := by
  rcases hends with ⟨hlog, hreservations⟩ | ⟨⟨p, q, hlog, hp, hq⟩, hreservations⟩
  · rw [h.wallets] at hlog
    refine ⟨.inl hlog, fun id => ?_, h.find?_released hreservations⟩
    rw [hturns.holding_of_log hexact (hlog.trans (List.append_nil _).symm), List.map_nil,
      List.sum_nil, add_zero]
  · rw [h.wallets] at hlog
    refine ⟨.inr ⟨r, s, p, q, h.row, hlog, hp, hq⟩, fun id => ?_, h.find?_released hreservations⟩
    have hnothing := Posting.delta_add_refund hp hq id
    rw [hturns.holding_of_log hexact hlog]
    simp [hnothing]

theorem turns_advanceReservation (number : String) (description ref issuer : Option String) :
    l.Turns .zero ((advanceReservation t number description ref issuer).runIn l).2 := by
  have hpermits : PermitsSettling fun e => e = .reservation ∨ e.Moves .generic Operation.IsLegRef :=
    Operation.permitsSettling (.inl rfl) fun _ => .inr
  refine (within_advanceReservation hpermits number description ref issuer).moves.turns
    fun e he => ?_
  exact he.elim (fun heq => heq ▸ trivial) Effect.Moves.isTurn

/-- **Advancing is all or nothing.** In every state that a run leads to, if nothing is rounded:
where advancing has a receipt, both legs were posted and the reservation is committed; where it has
none, every wallet holds what it held, the log has gained nothing or a withdraw leg and its refund,
and the reservations are what they were. No wallet is lost either way.

The run may have had faults and conflicts, but none are armed now, and the attempt that comes next
is one that no reference in the log holds. -/
theorem advance_all_or_nothing (hl : l.Reachable t) (hsure : l.Sure)
    (hconflicts : l.memory.wallets.conflicts = 0)
    (hfresh : ∀ p ∈ l.memory.wallets.log, ∀ ref, p.ref = some ref →
      ¬l.memory.fresh.attempt.toList <:+: ref.toList)
    (number : String) (description ref issuer : Option String)
    (hexact : l.PostsExactly ((advanceReservation t number description ref issuer).runIn l).2) :
    let run := (advanceReservation t number description ref issuer).runIn l
    (∀ receipt, run.1 = .ok receipt → l.Advanced t number run.2) ∧
      (∀ stop, run.1 = .error stop → l.Undone t number run.2) ∧
      ∀ w ∈ l.memory.wallets.wallets, ∃ w' ∈ run.2.memory.wallets.wallets, w.Same w' := by
  have hturns := turns_advanceReservation (l := l) (t := t) number description ref issuer
  have hnew : ∀ (leg : Leg) settleRef number,
      ¬l.memory.Bears (leg.ref settleRef number l.memory.fresh.attempt) := by
    rintro leg settleRef number ⟨p, hp, href⟩
    exact hfresh p hp _ href (leg.infix_ref _ _ _)
  have hends := hsure.ends_advanceReservation (t := t) hl.sound hconflicts hnew number description
    ref issuer
  refine ⟨fun receipt hok => ?_, fun stop hstop => ?_, fun w hw => ?_⟩
  · obtain ⟨r, s, l₁, rfl, hclaims, hpays⟩ := hends.of_ok hok
    exact hclaims.advanced hpays hturns hexact
  · rcases hends.of_error hstop hexact with hsame | ⟨r, s, l₁, rfl, hclaims, hundone⟩
    · exact ⟨.inl (by rw [hsame]), fun id => by rw [hsame], fun n => by rw [hsame]⟩
    · exact hclaims.undone hundone hturns hexact
  · obtain ⟨ps, hps⟩ := hturns
    obtain ⟨w', hw', haccounts⟩ := hps.kept w.id w (hl.sound.wallets.wallet?_of_mem hw)
    exact ⟨w', WalletTable.mem_of_wallet? hw', haccounts.same⟩

end Ledger

namespace Small

/-- The owner reserves silver for ten gold, and then some more happens. -/
def reserved (more : List Operation) : Ledger (Faulty Memory) :=
  Operation.runAll terms ledger
    (.reserve ⟨units 10, "GOLD", "SILVER", "ann", .main, "ann", .main⟩ :: more)

def advance (l : Ledger (Faulty Memory)) : Except Stop Receipt × Ledger (Faulty Memory) :=
  (Ledger.advanceReservation terms (ids.reservation 1) none none none).runIn l

/-- The reservation is there, and nothing was posted yet. -/
def Waits (l : Ledger (Faulty Memory)) : Prop :=
  l.stores.armed = [] ∧ l.memory.wallets.conflicts = 0 ∧ l.memory.wallets.log = []

instance (l : Ledger (Faulty Memory)) : Decidable (Waits l) := inferInstanceAs (Decidable (_ ∧ _))

end Small

/-- The reservation is advanced; if silver was switched off in the meantime, the gold is
returned. -/
theorem Ledger.advance_all_or_nothing_small :
    (Small.reserved []).Advanced Small.terms (Small.ids.reservation 1)
        (Small.advance (Small.reserved [])).2 ∧
      (Small.reserved [.setActive "SILVER" false]).Undone Small.terms (Small.ids.reservation 1)
        (Small.advance (Small.reserved [.setActive "SILVER" false])).2 ∧
      (Small.advance (Small.reserved [.setActive "SILVER" false])).2.memory.wallets.log.length =
        2 := by
  have hboth : ∀ more, Small.Waits (Small.reserved more) →
      (Small.reserved more).PostsExactly (Small.advance (Small.reserved more)).2 →
      (∀ receipt, (Small.advance (Small.reserved more)).1 = .ok receipt →
        (Small.reserved more).Advanced Small.terms (Small.ids.reservation 1)
          (Small.advance (Small.reserved more)).2) ∧
      ∀ stop, (Small.advance (Small.reserved more)).1 = .error stop →
        (Small.reserved more).Undone Small.terms (Small.ids.reservation 1)
          (Small.advance (Small.reserved more)).2 := by
    rintro more ⟨harmed, hconflicts, hlog⟩ hexact
    have hresult := advance_all_or_nothing (Small.reachable.runAll _) (sure_of_unarmed harmed)
      hconflicts (fun p hp => absurd (hlog ▸ hp) List.not_mem_nil) (Small.ids.reservation 1) none
      none none hexact
    exact ⟨hresult.1, hresult.2.1⟩
  have hok : (Small.advance (Small.reserved [])).1.isOk = true := by decide +kernel
  have hstop : (Small.advance (Small.reserved [.setActive "SILVER" false])).1.isOk = false := by
    decide +kernel
  refine ⟨?_, ?_, by decide +kernel⟩
  · cases hrun : (Small.advance (Small.reserved [])).1 with
    | ok receipt => exact (hboth [] (by decide +kernel) (by decide +kernel)).1 receipt hrun
    | error stop =>
      rw [hrun] at hok
      cases hok
  · cases hrun : (Small.advance (Small.reserved [.setActive "SILVER" false])).1 with
    | ok receipt =>
      rw [hrun] at hstop
      cases hstop
    | error stop => exact (hboth _ (by decide +kernel) (by decide +kernel)).2 stop hrun

end WalletLedger
