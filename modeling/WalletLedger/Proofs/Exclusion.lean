/-
Why of several callers who want a reservation only one gets it.

Advancing, cancelling, sweeping and recovering move a reservation through a few conditional calls:
a settlement is begun or given up, an idle reservation is closed, an open one is committed. Each
caller makes its calls when it likes, and between two of them anybody may make others. So the
module asks nothing of the callers. It takes any run of calls of the stores in which the status of a
reservation is changed only as those callers change it, and follows one row from place to place.

What carries the argument is that the status and the settlement guard each other: a row that is
being settled is not idle, only a granted `clear` makes it idle again, and a row that is closed or
committed meets the condition of no bid (`Bid.fits`).
-/
import WalletLedger.Proofs.Advance
import WalletLedger.Proofs.Versions

set_option autoImplicit false

namespace WalletLedger

open WalletLedger.Action

/-! ## 1. Bids -/

/-- **A bid for a reservation:** a call by which somebody wants to move it on. -/
inductive Bid where
  | begin (s : Settlement)
  | clear
  | cancel
  | expire
  | commit

namespace Bid

/-- The call, for the reservation with a number. -/
def call (number : String) : Bid → Call Bool
  | .begin s => .beginSettlement number s
  | .clear => .clearSettlement number
  | .cancel => .closeIfIdle number .canceled
  | .expire => .closeIfIdle number .expired
  | .commit => .updateStatusIf number .reserved .committed

/-- Whether a bid wants the reservation closed without a settlement. -/
def closes : Bid → Bool
  | .cancel | .expire => true
  | _ => false

/-- The condition of a bid on the row. -/
def fits (r : Reservation) : Bid → Bool
  | .begin _ | .cancel | .expire => r.isIdle
  | .clear => r.status == .reserved && r.settlement.isSome
  | .commit => r.status == .reserved

/-- The row after a bid that was granted. -/
def moved (r : Reservation) : Bid → Reservation
  | .begin s => { r with settlement := some s }
  | .clear => { r with settlement := none }
  | .cancel => { r with status := .canceled }
  | .expire => { r with status := .expired }
  | .commit => { r with status := .committed }

variable {r : Reservation} {b : Bid}

/-- Every bid is for an open reservation. -/
theorem reserved_of_fits (h : b.fits r = true) : r.status = .reserved := by
  cases b <;> simp_all [fits, Reservation.isIdle]

/-- A bid changes the status and the settlement, and nothing else. -/
theorem moved_eq (r : Reservation) (b : Bid) :
    ∃ status settlement, b.moved r = { r with status, settlement } := by
  cases b <;> exact ⟨_, _, rfl⟩

/-- What a bid leaves is open as before, or its status is final. -/
theorem status_moved (r : Reservation) (b : Bid) :
    (b.moved r).status = r.status ∨ (b.moved r).status.isTerminal = true := by
  cases b with
  | begin | clear => exact .inl rfl
  | cancel | expire | commit => exact .inr rfl

/-- **Only giving a settlement up makes a row idle** that was not. -/
theorem isIdle_moved (hfits : b.fits r = true) (hr : r.isIdle = false) :
    (b.moved r).isIdle = false ∨ b = .clear := by
  cases b with
  | clear => exact .inr rfl
  | commit => exact .inl (by simp [moved, Reservation.isIdle])
  | begin | cancel | expire => exact absurd hfits (by simp [fits, hr])

end Bid

/-- A conditional change of a row that is there. -/
theorem ReservationTable.changeIf_of_find? {t : ReservationTable} {n : String} {x : Reservation}
    (hx : t.find? n = some x) (condition : Reservation → Bool) {g : Reservation → Reservation}
    (hg : ∀ y, (g y).number = y.number) :
    ∃ t', t.changeIf n condition g = .ok (condition x, t') ∧ (condition x = false → t' = t) ∧
      ∀ k, t'.find? k = if k = n ∧ condition x = true then some (g x) else t.find? k := by
  simp only [changeIf, hx]
  cases condition x with
  | false => exact ⟨t, rfl, fun _ => rfl, fun k => by simp⟩
  | true =>
    refine ⟨t.amended n g, rfl, Bool.noConfusion, fun k => ?_⟩
    rw [find?_amended hg hx]
    simp

/-- **How a bid is answered.** It is granted if and only if the row meets its condition; then that
row is moved and the others are found as they were. A bid that is turned down changes nothing. -/
theorem Memory.answer_bid {m : Memory} {n : String} {x : Reservation}
    (hx : m.reservations.find? n = some x) (b : Bid) :
    ∃ m', m.answer (b.call n) = .ok (b.fits x, m') ∧ (b.fits x = false → m' = m) ∧
      ∀ k, m'.reservations.find? k =
        if k = n ∧ b.fits x = true then some (b.moved x) else m.reservations.find? k := by
  obtain ⟨t, hchange, hsame, hrow⟩ := ReservationTable.changeIf_of_find? hx (fun y => b.fits y)
    (g := fun y => b.moved y) fun y => by cases b <;> rfl
  cases b with
  | begin s =>
    -- A settlement that is begun is counted.
    simp only [Bid.call, answer, ReservationTable.begin]
    refine ⟨(noteClaimed (Bid.fits x (.begin s), m.withReservations t)).2,
      congrArg (fun o => (answering m.withReservations o).map noteClaimed) hchange |>.trans ?_,
      fun h => ?_, fun k => ?_⟩
    · cases Bid.fits x (.begin s) <;> rfl
    · rw [h, hsame h]
      rfl
    · refine Eq.trans ?_ (hrow k)
      cases Bid.fits x (.begin s) <;> rfl
  | clear | cancel | expire | commit =>
    exact ⟨_, congrArg (answering m.withReservations) hchange, fun h => by rw [hsame h]; rfl, hrow⟩

/-! ## 2. One step -/

/-- **A step that changes the status of a reservation as bids do,** if at all. Any other call may be
made as well. -/
def StoreStep.Orderly : StoreStep → Prop
  | .call (.closeIfIdle _ status) => status = .canceled ∨ status = .expired
  | .call (.updateStatusIf _ expected status) => expected = .reserved ∧ status = .committed
  | _ => True

/-- A reservation that is inserted stands behind those that are there. -/
theorem ReservationTable.find?_insert {t t' : ReservationTable} {new r : Reservation}
    {number : String} (h : t.insert new = .ok t') (hr : t.find? number = some r) :
    t'.find? number = some r := by
  obtain ⟨-, rfl⟩ := insert_eq h
  rw [find?] at hr ⊢
  rw [List.find?_append, hr, Option.some_or]

/-- Whether a call changes rows of the table of reservations. -/
def Call.amends : {α : Type} → Call α → Bool
  | _, .beginSettlement _ _ | _, .clearSettlement _ => true
  | _, .closeIfIdle _ _ | _, .updateStatusIf _ _ _ => true
  | _, _ => false

/-- A call that changes no row leaves the table alone, or it inserts a row. -/
theorem Memory.reservations_of_answer {α : Type} {c : Call α} {m m' : Memory} {a : α}
    (h : m.answer c = .ok (a, m')) (hc : c.amends = false) :
    m'.reservations = m.reservations ∨ ∃ new, m.reservations.insert new = .ok m'.reservations := by
  cases c with
  | beginSettlement | clearSettlement | closeIfIdle | updateStatusIf => exact Bool.noConfusion hc
  | insertReservation new =>
    obtain ⟨t, hinsert, rfl⟩ := answer_insertReservation h
    exact .inr ⟨new, hinsert⟩
  | commitPosting debit credit p =>
    obtain ⟨t, posted, -, rfl⟩ := answer_commitPosting h
    exact .inl rfl
  | createOwner | setFlags | createWallet | compareAndSet | insertWithdrawal | transition | revert =>
    obtain ⟨t, -, rfl⟩ := answering_eq h
    exact .inl rfl
  | addCurrency | setTransitive | setActive | addRate | updateRate | deleteRate | setFinal =>
    obtain ⟨t, -, rfl⟩ := writing_eq h
    exact .inl rfl
  | _ =>
    -- The other calls read, or they write pairs that are forbidden.
    cases h
    exact .inl rfl

/-- So each row is found as it was. -/
theorem Memory.row_after_other {α : Type} {c : Call α} {m m' : Memory} {a : α} {number : String}
    {r : Reservation} (h : m.answer c = .ok (a, m')) (hr : m.reservations.find? number = some r)
    (hc : c.amends = false) : m'.reservations.find? number = some r := by
  rcases reservations_of_answer h hc with hsame | ⟨new, hinsert⟩
  · rw [hsame]
    exact hr
  · exact ReservationTable.find?_insert hinsert hr

namespace StoreStep

variable {m : Memory} {number : String} {r : Reservation}

/-- A bid moves the row that it is for, if it is granted, and no other. -/
theorem row_after_bid (n : String) (b : Bid) (hr : m.reservations.find? number = some r) :
    (after m (.call (b.call n))).reservations.find? number = some r ∨
      n = number ∧ b.fits r = true ∧
        (after m (.call (b.call n))).reservations.find? number = some (b.moved r) := by
  cases hx : m.reservations.find? n with
  | none =>
    -- There is no row to bid for.
    left
    cases b <;> simpa [after, Bid.call, Memory.call, runIn_ofFun, Memory.answer,
      ReservationTable.begin, ReservationTable.clear, ReservationTable.closeIfIdle,
      ReservationTable.updateStatusIf, ReservationTable.changeIf, hx, Memory.answering,
      Except.map] using hr
  | some x =>
    obtain ⟨m', hanswer, -, hrow⟩ := Memory.answer_bid hx b
    have hafter : after m (.call (b.call n)) = m' := by
      simp only [after, Memory.call, runIn_ofFun, hanswer]
    rw [hafter, hrow]
    split_ifs with hk
    · obtain ⟨rfl, hfits⟩ := hk
      obtain rfl := Option.some.inj (hx.symm.trans hr)
      exact .inr ⟨rfl, hfits, rfl⟩
    · exact .inl hr

/-- **What a step does to a row:** it is a bid for it that is granted, or the row stays. -/
theorem row_after {step : StoreStep} (h : step.Orderly)
    (hr : m.reservations.find? number = some r) :
    (step.after m).reservations.find? number = some r ∨
      ∃ b : Bid, step = .call (b.call number) ∧ b.fits r = true ∧
        (step.after m).reservations.find? number = some (b.moved r) := by
  have hbid : ∀ {n : String} {b : Bid}, step = .call (b.call n) →
      (step.after m).reservations.find? number = some r ∨
        ∃ b : Bid, step = .call (b.call number) ∧ b.fits r = true ∧
          (step.after m).reservations.find? number = some (b.moved r) := by
    rintro n b rfl
    rcases row_after_bid n b hr with hkept | ⟨rfl, hfits, hmoved⟩
    · exact .inl hkept
    · exact .inr ⟨b, rfl, hfits, hmoved⟩
  have hother : ∀ {α : Type} (c : Call α), c.amends = false →
      (after m (.call c)).reservations.find? number = some r := by
    intro α c hc
    simp only [after, Memory.call, runIn_ofFun]
    cases hanswer : m.answer c with
    | error cause => exact hr
    | ok result => exact Memory.row_after_other hanswer hr hc
  cases step with
  | inject => exact .inl hr
  | call c =>
    cases c with
    | beginSettlement n s => exact hbid (b := .begin s) rfl
    | clearSettlement n => exact hbid (b := .clear) rfl
    | closeIfIdle n status =>
      obtain rfl | rfl := h
      · exact hbid (b := .cancel) rfl
      · exact hbid (b := .expire) rfl
    | updateStatusIf n expected status =>
      obtain ⟨rfl, rfl⟩ := h
      exact hbid (b := .commit) rfl
    | _ => exact .inl (hother _ rfl)

/-! ## 3. A run, place by place -/

/-- The memory that the step at a place finds; behind the last step, what the run leaves. -/
def before (m : Memory) (steps : List StoreStep) (i : ℕ) : Memory := afterAll m (steps.take i)

/-- The reservation with a number, as the step at a place finds it. -/
def rowAt (m : Memory) (steps : List StoreStep) (number : String) (i : ℕ) : Option Reservation :=
  (before m steps i).reservations.find? number

/-- **At this place a bid is made and granted.** -/
def Grants (m : Memory) (steps : List StoreStep) (number : String) (i : ℕ) (b : Bid) : Prop :=
  steps[i]? = some (.call (b.call number)) ∧
    ((Memory.call (b.call number)).runIn (before m steps i)).1 = .ok true

/-- **At this place the status of the reservation changes.** -/
def Shifts (m : Memory) (steps : List StoreStep) (number : String) (i : ℕ) : Prop :=
  ∃ r r', rowAt m steps number i = some r ∧ rowAt m steps number (i + 1) = some r' ∧
    r.status ≠ r'.status

variable {steps : List StoreStep} {i j : ℕ} {b : Bid}

theorem before_succ {step : StoreStep} (h : steps[i]? = some step) :
    before m steps (i + 1) = step.after (before m steps i) := by
  simp only [before, afterAll, List.take_add_one, h, Option.toList_some, List.foldl_append,
    List.foldl_cons, List.foldl_nil]

theorem before_succ_of_none (h : steps[i]? = none) :
    before m steps (i + 1) = before m steps i := by
  simp only [before, List.take_add_one, h, Option.toList_none, List.append_nil]

/-- Whether a bid for a row is granted, and what it does to the memory if it is not. -/
theorem runIn_bid (hr : m.reservations.find? number = some r) (b : Bid) :
    ((Memory.call (b.call number)).runIn m).1 = .ok (b.fits r) ∧
      (b.fits r = false → (Memory.call (b.call number)).runIn m = (.ok false, m)) := by
  obtain ⟨m', hanswer, hsame, -⟩ := Memory.answer_bid hr b
  have hrun : (Memory.call (b.call number)).runIn m = (.ok (b.fits r), m') := by
    simp only [Memory.call, runIn_ofFun, hanswer]
  rw [hrun]
  exact ⟨rfl, fun h => by rw [h, hsame h]⟩

/-- A bid is granted only if the row meets its condition, and then the row is moved. -/
theorem Grants.row (h : Grants m steps number i b) (hr : rowAt m steps number i = some r) :
    b.fits r = true ∧ rowAt m steps number (i + 1) = some (b.moved r) := by
  obtain ⟨m', hanswer, -, hrow⟩ := Memory.answer_bid hr b
  have hfits : b.fits r = true :=
    Except.ok.inj ((runIn_bid hr b).1.symm.trans h.2)
  have hafter : before m steps (i + 1) = m' := by
    simp only [before_succ h.1, after, Memory.call, runIn_ofFun, hanswer]
  exact ⟨hfits, by rw [rowAt, hafter]; exact (hrow number).trans (if_pos ⟨rfl, hfits⟩)⟩

/-- **From one place to the next** a row stays, or a bid for it is granted. -/
theorem rowAt_succ (h : ∀ step ∈ steps, step.Orderly) (hr : rowAt m steps number i = some r) :
    rowAt m steps number (i + 1) = some r ∨
      ∃ b, Grants m steps number i b ∧ b.fits r = true ∧
        rowAt m steps number (i + 1) = some (b.moved r) := by
  cases hstep : steps[i]? with
  | none => exact .inl (by rw [rowAt, before_succ_of_none hstep]; exact hr)
  | some step =>
    rw [rowAt, before_succ hstep]
    rcases row_after (h step (List.mem_of_getElem? hstep)) hr with hkept | ⟨b, rfl, hfits, hmoved⟩
    · exact .inl hkept
    · exact .inr ⟨b, ⟨hstep, by rw [(runIn_bid hr b).1, hfits]⟩, hfits, hmoved⟩

/-- Whatever the steps are, a row stays in the store, and what was agreed in it stays. -/
theorem rowAt_kept (h : ∀ step ∈ steps, step.Orderly) (hr : m.reservations.find? number = some r)
    (i : ℕ) : ∃ status settlement, rowAt m steps number i = some { r with status, settlement } := by
  induction i with
  | zero => exact ⟨r.status, r.settlement, hr⟩
  | succ i ih =>
    obtain ⟨status, settlement, hrow⟩ := ih
    rcases rowAt_succ h hrow with hkept | ⟨b, -, -, hmoved⟩
    · exact ⟨status, settlement, hkept⟩
    · obtain ⟨status', settlement', heq⟩ := b.moved_eq { r with status, settlement }
      exact ⟨status', settlement', hmoved.trans (congrArg some heq)⟩

/-- **A final row stays as it is.** -/
theorem rowAt_of_final (h : ∀ step ∈ steps, step.Orderly) (hr : rowAt m steps number i = some r)
    (hfinal : r.status.isTerminal = true) (hij : i ≤ j) : rowAt m steps number j = some r := by
  induction j, hij using Nat.le_induction with
  | base => exact hr
  | succ j _ ih =>
    rcases rowAt_succ h ih with hkept | ⟨b, -, hfits, -⟩
    · exact hkept
    · rw [Bid.reserved_of_fits hfits] at hfinal
      cases hfinal

/-- **A row that is not idle stays so until a settlement is given up.** -/
theorem rowAt_of_busy (h : ∀ step ∈ steps, step.Orderly) (hr : rowAt m steps number i = some r)
    (hbusy : r.isIdle = false) (hij : i ≤ j) :
    (∃ r', rowAt m steps number j = some r' ∧ r'.isIdle = false) ∨
      ∃ k, i ≤ k ∧ k < j ∧ Grants m steps number k .clear := by
  induction j, hij using Nat.le_induction with
  | base => exact .inl ⟨r, hr, hbusy⟩
  | succ j hij ih =>
    rcases ih with ⟨x, hx, hidle⟩ | ⟨k, hik, hkj, hclear⟩
    · rcases rowAt_succ h hx with hkept | ⟨b, hgrants, hfits, hmoved⟩
      · exact .inl ⟨x, hkept, hidle⟩
      · rcases Bid.isIdle_moved hfits hidle with hidle' | rfl
        · exact .inl ⟨_, hmoved, hidle'⟩
        · exact .inr ⟨j, hij, Nat.lt_succ_self j, hgrants⟩
    · exact .inr ⟨k, hik, Nat.lt_succ_of_lt hkj, hclear⟩

/-- After a granted `begin` nothing is granted that wants an idle row, unless a granted `clear`
comes before it. -/
theorem Grants.clear_between (h : ∀ step ∈ steps, step.Orderly)
    (hr : m.reservations.find? number = some r) {s : Settlement}
    (hbegin : Grants m steps number i (.begin s)) (hb : Grants m steps number j b)
    (hidle : ∀ x, b.fits x = x.isIdle) (hij : i < j) :
    ∃ k, i < k ∧ k < j ∧ Grants m steps number k .clear := by
  obtain ⟨status, settlement, hrow⟩ := rowAt_kept h hr i
  obtain ⟨-, hclaimed⟩ := hbegin.row hrow
  have hbusy : (Bid.moved { r with status, settlement } (.begin s)).isIdle = false := by
    simp [Bid.moved, Reservation.isIdle]
  rcases rowAt_of_busy h hclaimed hbusy hij with ⟨x, hx, hx'⟩ | ⟨k, hik, hkj, hclear⟩
  · rw [← hidle, (hb.row hx).1] at hx'
    cases hx'
  · exact ⟨k, hik, hkj, hclear⟩

/-- **A change of the status is from open to final.** -/
theorem Shifts.final (h : ∀ step ∈ steps, step.Orderly) (hshift : Shifts m steps number i) :
    ∃ r r', rowAt m steps number i = some r ∧ rowAt m steps number (i + 1) = some r' ∧
      r.status = .reserved ∧ r'.status.isTerminal = true := by
  obtain ⟨r, r', hr, hr', hne⟩ := hshift
  refine ⟨r, r', hr, hr', ?_⟩
  rcases rowAt_succ h hr with hkept | ⟨b, -, hfits, hmoved⟩
  · rw [hr'] at hkept
    cases hkept
    exact absurd rfl hne
  · rw [hr'] at hmoved
    cases hmoved
    exact ⟨Bid.reserved_of_fits hfits, (b.status_moved r).resolve_left hne.symm⟩

/-- There is one such change at most. -/
theorem Shifts.unique (h : ∀ step ∈ steps, step.Orderly) (hi : Shifts m steps number i)
    (hj : Shifts m steps number j) : i = j := by
  have hle : ∀ {i j}, Shifts m steps number i → Shifts m steps number j → j ≤ i := by
    intro i j hi hj
    by_contra hlt
    obtain ⟨-, r', -, hr', -, hfinal⟩ := hi.final h
    obtain ⟨x, y, hx, -, hopen, -⟩ := hj.final h
    rw [rowAt_of_final h hr' hfinal (not_le.1 hlt)] at hx
    cases hx
    rw [hopen] at hfinal
    cases hfinal
  exact le_antisymm (hle hj hi) (hle hi hj)

end StoreStep

/-! ## 4. Exclusion -/

open StoreStep in
/-- **The bids for one reservation exclude each other** along a run. -/
structure Memory.Exclusive (m : Memory) (steps : List StoreStep) (number : String)
    (r : Reservation) : Prop where
  /-- The row stays, and its amounts, its symbols, its parties, their kinds of wallet and its dates
  are at every place what they were. -/
  kept : ∀ i, ∃ status settlement, rowAt m steps number i = some { r with status, settlement }
  /-- Its status changes at one place at most, from open to final. -/
  once : ∀ i, Shifts m steps number i → (∀ j, Shifts m steps number j → j = i) ∧
    ∃ r₁ r₂, rowAt m steps number i = some r₁ ∧ rowAt m steps number (i + 1) = some r₂ ∧
      r₁.status = .reserved ∧ r₂.status.isTerminal = true
  /-- Between two settlements that are begun one is given up. -/
  begun : ∀ i j s s', i < j → Grants m steps number i (.begin s) →
    Grants m steps number j (.begin s') →
      ∃ k, i < k ∧ k < j ∧ Grants m steps number k .clear
  /-- It is closed only while no settlement is under way: none is stored, and every one that was
  begun before was given up. -/
  closed : ∀ j b, b.closes = true → Grants m steps number j b →
    (∃ x, rowAt m steps number j = some x ∧ x.status = .reserved ∧ x.settlement = none) ∧
      ∀ i s, i < j → Grants m steps number i (.begin s) →
        ∃ k, i < k ∧ k < j ∧ Grants m steps number k .clear
  /-- Once its status is final, every further bid is turned down and changes nothing, and the row
  is left as it is by all steps. -/
  final : ∀ i x, rowAt m steps number i = some x → x.status.isTerminal = true →
    (∀ b : Bid, (Memory.call (b.call number)).runIn (before m steps i) =
      (.ok false, before m steps i)) ∧
    ∀ j, i ≤ j → rowAt m steps number j = some x

namespace Memory

variable {m : Memory} {steps : List StoreStep} {number : String} {r : Reservation}

/-- **Bids exclude each other, whoever makes them and in whatever order.** Of all calls of the
stores, in any interleaving, only those that change the status of a reservation are held to the ways
in which the services do it. -/
theorem exclusive_of_orderly (h : ∀ step ∈ steps, step.Orderly)
    (hr : m.reservations.find? number = some r) : m.Exclusive steps number r where
  kept := StoreStep.rowAt_kept h hr
  once i hi := ⟨fun _ hj => hj.unique h hi, hi.final h⟩
  begun i j s s' hij hi hj := hi.clear_between h hr hj (fun _ => rfl) hij
  closed j b hb hj := by
    have hidle : ∀ x, b.fits x = x.isIdle := by
      intro x
      cases b with
      | cancel | expire => rfl
      | begin | clear | commit => cases hb
    refine ⟨?_, fun i s hij hi => hi.clear_between h hr hj hidle hij⟩
    obtain ⟨status, settlement, hrow⟩ := StoreStep.rowAt_kept h hr j
    have hfits := (hj.row hrow).1
    rw [hidle, Reservation.isIdle, Bool.and_eq_true, beq_iff_eq, Option.isNone_iff_eq_none] at hfits
    exact ⟨_, hrow, hfits⟩
  final i x hx hfinal := by
    refine ⟨fun b => (StoreStep.runIn_bid hx b).2 ?_,
      fun j hij => StoreStep.rowAt_of_final h hx hfinal hij⟩
    rw [← Bool.not_eq_true]
    intro hfits
    rw [Bid.reserved_of_fits hfits] at hfinal
    cases hfinal

end Memory

namespace Small

/-- A reservation that is free to be settled. -/
def idleRow : Reservation where
  number := "r"
  sourceSymbol := "GOLD"
  destSymbol := "SILVER"
  sourceAmount := units 10
  destAmount := units 30
  senderUuid := "ann"
  senderKind := .main
  receiverUuid := "ann"
  receiverKind := .main
  reservedAt := 1
  expiresAt := 100
  status := .reserved
  settlement := none

def holding : Memory := { Memory.empty ids with reservations := ⟨[idleRow]⟩ }

/-- A settlement is begun, and a sweep comes in between; the settlement is given up, a second one is
begun and committed, and the owner comes too late to cancel. -/
def race : List StoreStep := [
  .call (.beginSettlement "r" ⟨"s", "first", none, 2⟩),
  .call (.closeIfIdle "r" .expired),
  .call (.clearSettlement "r"),
  .call (.beginSettlement "r" ⟨"s", "second", none, 3⟩),
  .call (.updateStatusIf "r" .reserved .committed),
  .call (.closeIfIdle "r" .canceled)]

end Small

open WalletLedger.Small in
/-- In the race both settlements are begun, with the first given up between them. -/
theorem Memory.exclusive_of_orderly_small :
    (∀ step ∈ race, step.Orderly) ∧ holding.reservations.find? "r" = some idleRow ∧
      StoreStep.Grants holding race "r" 0 (.begin ⟨"s", "first", none, 2⟩) ∧
      StoreStep.Grants holding race "r" 2 .clear ∧
      StoreStep.Grants holding race "r" 3 (.begin ⟨"s", "second", none, 3⟩) ∧
      StoreStep.Grants holding race "r" 4 .commit ∧
      holding.Exclusive race "r" idleRow := by
  have horderly : ∀ step ∈ race, step.Orderly := by
    simp [race, StoreStep.Orderly]
  have hrow : holding.reservations.find? "r" = some idleRow := by decide +kernel
  exact ⟨horderly, hrow, ⟨rfl, by decide +kernel⟩, ⟨rfl, by decide +kernel⟩,
    ⟨rfl, by decide +kernel⟩, ⟨rfl, by decide +kernel⟩, exclusive_of_orderly horderly hrow⟩

end WalletLedger
