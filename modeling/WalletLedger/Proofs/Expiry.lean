/-
What a sweep of the reservations expires.

A sweep reads which reservations have lapsed, sorts them and keeps the first of them, and then
closes what it has read, one call after the other, each on the condition that the reservation is
still idle. What it should do is said without any sorting: a row is due or not (`Reservation.Due`),
it has a place among the rows that are due (`ReservationTable.rank`, which counts those that precede
it), and a sweep expires the rows that are due and whose place is below the limit (`expired`).

In between stands the queue, the rows that are due in their order. Numbers are not given twice, so
the order is strict, and the first rows of the queue are the ones with the least ranks
(`mem_take_queue_iff`). Closing them one by one is one map over the table (`runIn_closeLapsed`).
What is left is the rest of the queue (`queue_expired`), so that sweeps at one instant go through
the queue from its head to its end.

Numbers are compared by their characters here, which is the order of their bytes
(`utf8Bytes_lt_iff`).
-/
import WalletLedger.Proofs.Exclusion
import WalletLedger.Proofs.SymbolOrder

set_option autoImplicit false

namespace WalletLedger

open WalletLedger.Action

/-! ## 1. Rows that are due, and their order -/

namespace Reservation

/-- **A reservation is due at an instant:** it is open, nobody is settling it, and it has lapsed. -/
def Due (now : Instant) (r : Reservation) : Prop :=
  r.status = .reserved ∧ r.settlement = none ∧ r.expiresAt ≤ now

/-- **A reservation precedes another:** it was made earlier, or at the same time under a smaller
number. -/
def Precedes (r s : Reservation) : Prop :=
  r.reservedAt < s.reservedAt ∨ (r.reservedAt = s.reservedAt ∧ r.number < s.number)

instance (now : Instant) : DecidablePred (Due now) := fun r =>
  inferInstanceAs
    (Decidable (r.status = .reserved ∧ r.settlement = none ∧ r.expiresAt ≤ now))

instance : DecidableRel Precedes := fun r s =>
  inferInstanceAs
    (Decidable (r.reservedAt < s.reservedAt ∨ (r.reservedAt = s.reservedAt ∧ r.number < s.number)))

/-- The reservation, closed because it has lapsed. -/
def expire (r : Reservation) : Reservation := { r with status := .expired }

variable {r s x : Reservation} {now : Instant}

theorem due_iff : (r.isIdle && r.isExpiredAt now) = true ↔ r.Due now := by
  simp [Due, isIdle, isExpiredAt, and_assoc]

theorem Due.isIdle (h : r.Due now) : r.isIdle = true := by
  simp [Reservation.isIdle, h.1, h.2.1]

theorem not_due_expire (r : Reservation) (now : Instant) : ¬r.expire.Due now :=
  fun h => ReservationStatus.noConfusion h.1

theorem not_precedes_self (r : Reservation) : ¬r.Precedes r := by
  simp [Precedes]

theorem Precedes.trans (h : r.Precedes s) (h' : s.Precedes x) : r.Precedes x := by
  rcases h with hdate | ⟨hdate, hnumber⟩ <;> rcases h' with hdate' | ⟨hdate', hnumber'⟩
  · exact .inl (hdate.trans hdate')
  · exact .inl (hdate' ▸ hdate)
  · exact .inl (hdate ▸ hdate')
  · exact .inr ⟨hdate.trans hdate', hnumber.trans hnumber'⟩

theorem Precedes.not_precedes (h : r.Precedes s) : ¬s.Precedes r :=
  fun h' => not_precedes_self r (h.trans h')

/-- The order in which reservations are sorted is this one, or the numbers are the same. -/
theorem before_iff :
    r.before s = true ↔ r.Precedes s ∨ (r.reservedAt = s.reservedAt ∧ r.number = s.number) := by
  simp only [before, Precedes, Bool.or_eq_true, decide_eq_true_eq, Bool.and_eq_true, beq_iff_eq,
    Bool.not_eq_true', decide_eq_false_iff_not, not_lt, le_iff_lt_or_eq]
  tauto

theorem before_trans (r s x : Reservation) (h : r.before s = true) (h' : s.before x = true) :
    r.before x = true := by
  rw [before_iff] at *
  rcases h with h | ⟨hdate, hnumber⟩
  · rcases h' with h' | ⟨hdate', hnumber'⟩
    · exact .inl (h.trans h')
    · rw [Precedes, hdate', hnumber'] at h
      exact .inl h
  · rw [Precedes, hdate, hnumber]
    exact h'

theorem before_total (r s : Reservation) : (r.before s || s.before r) = true := by
  simp only [Bool.or_eq_true, before_iff, Precedes]
  rcases lt_trichotomy r.reservedAt s.reservedAt with h | h | h
  · exact .inl (.inl (.inl h))
  · rcases lt_trichotomy r.number s.number with h' | h' | h'
    · exact .inl (.inl (.inr ⟨h, h'⟩))
    · exact .inl (.inr ⟨h, h'⟩)
    · exact .inr (.inl (.inr ⟨h.symm, h'⟩))
  · exact .inr (.inl (.inl h))

end Reservation

/-! ## 2. The first rows of a strict order -/

/-- **The first elements of a list in strict order** are those that few elements precede. -/
theorem mem_take_iff_countP {α : Type} {lt : α → α → Prop} [DecidableRel lt] {xs : List α}
    (hirrefl : ∀ a, ¬lt a a) (hasymm : ∀ a b, lt a b → ¬lt b a) (hsorted : xs.Pairwise lt)
    (k : ℕ) (a : α) : a ∈ xs.take k ↔ a ∈ xs ∧ xs.countP (lt · a) < k := by
  induction xs generalizing k with
  | nil => simp
  | cons y ys ih =>
    obtain ⟨hy, hys⟩ := List.pairwise_cons.1 hsorted
    cases k with
    | zero => simp
    | succ k =>
      rw [List.take_succ_cons, List.mem_cons, List.mem_cons, ih hys, List.countP_cons]
      by_cases ha : a = y
      · -- Nothing precedes the head.
        subst ha
        have hnone : ys.countP (fun b => decide (lt b a)) = 0 :=
          List.countP_eq_zero.2 fun b hb => by simpa using hasymm a b (hy b hb)
        simp [hnone, hirrefl]
      · refine ⟨?_, ?_⟩
        · rintro (rfl | ⟨hmem, hcount⟩)
          · exact absurd rfl ha
          · exact ⟨.inr hmem, by simp [hy a hmem, hcount]⟩
        · rintro ⟨rfl | hmem, hcount⟩
          · exact absurd rfl ha
          · exact .inr ⟨hmem, by simpa [hy a hmem] using hcount⟩

namespace ReservationTable

/-- How many rows are due. -/
def dueCount (t : ReservationTable) (now : Instant) : ℕ :=
  t.rows.countP fun x => decide (x.Due now)

/-- **The place of a row among those that are due:** how many of them precede it. -/
def rank (t : ReservationTable) (now : Instant) (r : Reservation) : ℕ :=
  t.rows.countP fun x => decide (x.Due now ∧ x.Precedes r)

/-- **What a sweep makes of a row:** the row is expired if it is due and its place is below the
limit, and otherwise it stays as it is. -/
def swept (t : ReservationTable) (now : Instant) (limit : ℕ) (r : Reservation) : Reservation :=
  if r.Due now ∧ t.rank now r < limit then r.expire else r

/-- **The table with the first `limit` of the rows that are due expired,** and all other rows as
they were. -/
def expired (t : ReservationTable) (now : Instant) (limit : ℕ) : ReservationTable :=
  ⟨t.rows.map (t.swept now limit)⟩

/-- The rows that are due, in the order in which they are worked off. -/
def queue (t : ReservationTable) (now : Instant) : List Reservation :=
  (t.rows.filter fun r => r.Due now).mergeSort Reservation.before

variable {t : ReservationTable} {now : Instant} {r x : Reservation} {limit : ℕ}

theorem swept_of_lt (hdue : r.Due now) (h : t.rank now r < limit) :
    t.swept now limit r = r.expire :=
  if_pos ⟨hdue, h⟩

theorem swept_of_le (h : limit ≤ t.rank now r) : t.swept now limit r = r :=
  if_neg fun hfirst => not_lt.2 h hfirst.2

@[simp] theorem number_swept (t : ReservationTable) (now : Instant) (limit : ℕ) (r : Reservation) :
    (t.swept now limit r).number = r.number := by
  unfold swept
  split_ifs <;> rfl

/-- A row is still due if it was, and its turn has not come. -/
theorem due_swept_iff : (t.swept now limit r).Due now ↔ r.Due now ∧ limit ≤ t.rank now r := by
  unfold swept
  split_ifs with hfirst
  · exact iff_of_false (r.not_due_expire now) fun h => not_lt.2 h.2 hfirst.2
  · exact ⟨fun h => ⟨h, not_lt.1 fun hlt => hfirst ⟨h, hlt⟩⟩, And.left⟩

/-! ### The row under a number -/

theorem Keyed.find?_of_mem (h : t.Keyed) (hr : r ∈ t.rows) : t.find? r.number = some r :=
  WalletLedger.find?_of_mem Reservation.number h hr

theorem Keyed.eq_of_number (h : t.Keyed) (hr : r ∈ t.rows) (hx : x ∈ t.rows)
    (hnumber : r.number = x.number) : r = x :=
  List.inj_on_of_nodup_map h hr hx hnumber

/-! ### The queue -/

theorem lapsed_eq (t : ReservationTable) (now : Instant) (limit : ℕ) :
    t.lapsed now limit = (t.queue now).take limit := by
  have hdue : (fun r : Reservation => r.isIdle && r.isExpiredAt now) =
      fun r => decide (r.Due now) := by
    funext r
    rw [Bool.eq_iff_iff, Reservation.due_iff, decide_eq_true_eq]
  rw [lapsed, Reservation.batch, hdue, queue]

theorem queue_perm (t : ReservationTable) (now : Instant) :
    (t.queue now).Perm (t.rows.filter fun r => r.Due now) :=
  List.mergeSort_perm _ _

theorem mem_queue_iff : r ∈ t.queue now ↔ r ∈ t.rows ∧ r.Due now := by
  rw [(queue_perm t now).mem_iff, List.mem_filter, decide_eq_true_eq]

theorem length_queue (t : ReservationTable) (now : Instant) :
    (t.queue now).length = t.dueCount now := by
  rw [(queue_perm t now).length_eq, dueCount, List.countP_eq_length_filter]

theorem Keyed.numbers_queue (h : t.Keyed) (now : Instant) :
    ((t.queue now).map (·.number)).Nodup :=
  ((queue_perm t now).map _).nodup_iff.2 (h.sublist (List.filter_sublist.map _))

/-- No two rows of the queue have the same place. -/
theorem Keyed.pairwise_queue (h : t.Keyed) (now : Instant) :
    (t.queue now).Pairwise Reservation.Precedes := by
  have hsorted : (t.queue now).Pairwise fun r s => r.before s = true := by
    unfold queue
    exact List.pairwise_mergeSort Reservation.before_trans Reservation.before_total _
  refine (hsorted.and (List.pairwise_map.1 (h.numbers_queue now))).imp fun hboth => ?_
  exact (Reservation.before_iff.1 hboth.1).resolve_right fun hsame => hboth.2 hsame.2

/-- **The head of the queue** is made of the rows with the least ranks. -/
theorem Keyed.mem_take_queue_iff (h : t.Keyed) (now : Instant) (k : ℕ) (r : Reservation) :
    r ∈ (t.queue now).take k ↔ r ∈ t.rows ∧ r.Due now ∧ t.rank now r < k := by
  have hrank : (t.queue now).countP (fun x => decide (x.Precedes r)) = t.rank now r := by
    rw [(queue_perm t now).countP_eq, List.countP_filter, rank]
    refine List.countP_congr fun x _ => ?_
    simp [and_comm]
  rw [mem_take_iff_countP Reservation.not_precedes_self
    (fun _ _ => Reservation.Precedes.not_precedes) (h.pairwise_queue now), hrank, mem_queue_iff,
    and_assoc]

/-! ### The table after a sweep -/

/-- The table with the given rows closed. -/
def closing (t : ReservationTable) (rs : List Reservation) : ReservationTable :=
  ⟨t.rows.map fun x => if x.number ∈ rs.map (·.number) then x.expire else x⟩

theorem Keyed.expired (h : t.Keyed) (now : Instant) (limit : ℕ) : (t.expired now limit).Keyed :=
  h.map (t.number_swept now limit)

/-- Closing the head of the queue expires the rows with the least ranks. -/
theorem Keyed.closing_take_queue (h : t.Keyed) (now : Instant) (limit : ℕ) :
    t.closing ((t.queue now).take limit) = t.expired now limit := by
  rw [closing, ReservationTable.expired]
  congr 1
  refine List.map_congr_left fun x hx => ?_
  have hiff : x.number ∈ ((t.queue now).take limit).map (·.number) ↔
      x.Due now ∧ t.rank now x < limit := by
    refine ⟨fun hnumber => ?_, fun hfirst => ?_⟩
    · obtain ⟨y, hy, heq⟩ := List.mem_map.1 hnumber
      obtain ⟨hrow, hfirst⟩ := (h.mem_take_queue_iff now limit y).1 hy
      exact h.eq_of_number hrow hx heq ▸ hfirst
    · exact List.mem_map_of_mem ((h.mem_take_queue_iff now limit x).2 ⟨hx, hfirst⟩)
  simp only [hiff, swept]

theorem Keyed.le_rank_of_mem_drop (h : t.Keyed) (hr : r ∈ (t.queue now).drop limit) :
    limit ≤ t.rank now r := by
  obtain ⟨hrow, hdue⟩ := mem_queue_iff.1 (List.mem_of_mem_drop hr)
  have htaken : r ∉ (t.queue now).take limit := fun hmem =>
    List.disjoint_take_drop (h.numbers_queue now).of_map le_rfl hmem hr
  rw [h.mem_take_queue_iff] at htaken
  exact not_lt.1 fun hlt => htaken ⟨hrow, hdue, hlt⟩

/-- The rest of the queue is made of the other rows. -/
theorem Keyed.filter_queue (h : t.Keyed) (now : Instant) (limit : ℕ) :
    (t.queue now).filter (fun r => limit ≤ t.rank now r) = (t.queue now).drop limit := by
  have htake : ((t.queue now).take limit).filter (fun r => limit ≤ t.rank now r) = [] :=
    List.filter_eq_nil_iff.2 fun r hr => by
      simpa using ((h.mem_take_queue_iff now limit r).1 hr).2.2
  have hdrop : ((t.queue now).drop limit).filter (fun r => limit ≤ t.rank now r) =
      (t.queue now).drop limit :=
    List.filter_eq_self.2 fun r hr => by simpa using h.le_rank_of_mem_drop hr
  calc (t.queue now).filter (fun r => limit ≤ t.rank now r)
      = ((t.queue now).take limit ++ (t.queue now).drop limit).filter
          (fun r => limit ≤ t.rank now r) := by rw [List.take_append_drop]
    _ = (t.queue now).drop limit := by rw [List.filter_append, htake, hdrop, List.nil_append]

/-- So there are as many first rows as the limit allows, if there are enough that are due. -/
theorem Keyed.countP_first (h : t.Keyed) (now : Instant) (limit : ℕ) :
    (t.rows.countP fun r => decide (r.Due now ∧ t.rank now r < limit)) =
      min limit (t.dueCount now) := by
  have hqueue : (t.rows.countP fun r => decide (r.Due now ∧ t.rank now r < limit)) =
      (t.queue now).countP fun r => t.rank now r < limit := by
    rw [(queue_perm t now).countP_eq, List.countP_filter]
    exact List.countP_congr fun r _ => by simp [and_comm]
  have hrest : ((t.queue now).countP fun r => limit ≤ t.rank now r) = t.dueCount now - limit := by
    rw [List.countP_eq_length_filter, h.filter_queue, List.length_drop, length_queue]
  have hall := List.length_eq_countP_add_countP (fun r => decide (t.rank now r < limit))
    (l := t.queue now)
  simp only [decide_eq_true_eq, not_lt] at hall
  rw [length_queue, hrest] at hall
  rw [hqueue]
  omega

/-- The rows that are still due are the ones that a sweep has left alone. -/
theorem filter_due_expired (t : ReservationTable) (now : Instant) (limit : ℕ) :
    ((t.expired now limit).rows.filter fun r => r.Due now) =
      (t.rows.filter fun r => r.Due now).filter fun r => limit ≤ t.rank now r := by
  have hdue : (fun r : Reservation => decide (r.Due now)) ∘ t.swept now limit =
      fun r => (decide (limit ≤ t.rank now r) && decide (r.Due now)) := by
    funext r
    rw [Function.comp_apply, ← Bool.decide_and, decide_eq_decide, due_swept_iff, and_comm]
  rw [expired, List.filter_map, List.filter_filter, hdue]
  refine (List.map_congr_left fun r hr => swept_of_le ?_).trans (List.map_id _)
  have hboth := (List.mem_filter.1 hr).2
  rw [Bool.and_eq_true, decide_eq_true_eq] at hboth
  exact hboth.1

/-- **After a sweep the rest of the queue is left,** in the same order. -/
theorem Keyed.queue_expired (h : t.Keyed) (now : Instant) (limit : ℕ) :
    (t.expired now limit).queue now = (t.queue now).drop limit := by
  have hperm : ((t.expired now limit).queue now).Perm ((t.queue now).drop limit) := by
    rw [← h.filter_queue now limit]
    refine (queue_perm _ now).trans ?_
    rw [filter_due_expired]
    exact ((queue_perm t now).filter _).symm
  refine hperm.eq_of_pairwise (fun _ _ _ _ hab hba => absurd hba hab.not_precedes)
    ((h.expired now limit).pairwise_queue now) ?_
  exact (h.pairwise_queue now).sublist (List.drop_sublist _ _)

theorem Keyed.dueCount_expired (h : t.Keyed) (now : Instant) (limit : ℕ) :
    (t.expired now limit).dueCount now = t.dueCount now - limit := by
  rw [← length_queue, h.queue_expired, List.length_drop, length_queue]

/-- Closing some rows and then others closes all of them. -/
theorem closing_closing (t : ReservationTable) (rs rs' : List Reservation) :
    (t.closing rs).closing rs' = t.closing (rs ++ rs') := by
  simp only [closing, List.map_map, List.map_append, List.mem_append]
  congr 1
  refine List.map_congr_left fun x _ => ?_
  rw [Function.comp_apply]
  by_cases h : x.number ∈ rs.map (·.number)
  · rw [if_pos h, if_pos (Or.inl h)]
    split_ifs <;> rfl
  · rw [if_neg h]
    simp only [h, false_or]

/-- **Two sweeps at one instant** come to one with both limits. -/
theorem Keyed.expired_expired (h : t.Keyed) (now : Instant) (i j : ℕ) :
    (t.expired now i).expired now j = t.expired now (i + j) := by
  rw [← (h.expired now i).closing_take_queue, h.queue_expired, ← h.closing_take_queue now i,
    closing_closing, ← List.take_add, h.closing_take_queue]

theorem expired_zero (t : ReservationTable) (now : Instant) : t.expired now 0 = t := by
  have hsame : t.rows.map (t.swept now 0) = t.rows :=
    (List.map_congr_left fun _ _ => swept_of_le (Nat.zero_le _)).trans (List.map_id _)
  rw [expired, hsame]

/-- What is found under the number of a row after a sweep. -/
theorem Keyed.find?_expired (h : t.Keyed) (hr : r ∈ t.rows) (now : Instant) (limit : ℕ) :
    (t.expired now limit).find? r.number = some (t.swept now limit r) := by
  have hkeeps : ∀ x : Reservation,
      ((t.swept now limit x).number == r.number) = (x.number == r.number) :=
    fun x => by rw [number_swept]
  exact (find?_map_of_keeps hkeeps t.rows).trans (congrArg (Option.map _) (h.find?_of_mem hr))

theorem amended_expire (t : ReservationTable) (number : String) {rs : List Reservation}
    (hr : r.number = number) :
    (t.amended number Reservation.expire).closing rs = t.closing (r :: rs) := by
  have hone : t.amended number Reservation.expire = t.closing [r] := by
    simp [amended, closing, hr]
  rw [hone, closing_closing, List.singleton_append]

end ReservationTable

/-- **Every call keeps rows under their numbers.** -/
theorem Memory.keyed_answer {α : Type} {c : Call α} {m m' : Memory} {a : α}
    (h : m.answer c = .ok (a, m')) (hm : m.reservations.Keyed) : m'.reservations.Keyed := by
  cases hc : c.amends with
  | false =>
    rcases reservations_of_answer h hc with hsame | ⟨new, hinsert⟩
    · rw [hsame]
      exact hm
    · exact hm.insert hinsert
  | true =>
    cases c with
    | beginSettlement number s =>
      obtain ⟨r, -, -, ⟨-, rfl⟩ | ⟨-, rfl⟩⟩ := answer_beginSettlement h
      · exact hm
      · exact hm.amended number fun _ => rfl
    | clearSettlement | closeIfIdle | updateStatusIf =>
      obtain ⟨t, hchange, rfl⟩ := answering_eq h
      exact hm.changeIf hchange fun _ => rfl
    | _ => exact Bool.noConfusion hc

/-- **So they are after any calls.** An empty memory has no rows yet. -/
theorem StoreStep.keyed_all (steps : List StoreStep) {m : Memory} (hm : m.reservations.Keyed) :
    (afterAll m steps).reservations.Keyed :=
  preserves_all (fun _ _ => id) (fun _ _ _ _ => Memory.keyed_answer) steps hm

/-! ## 3. One sweep -/

namespace Ledger

variable {l : Ledger (Faulty Memory)} {now : Instant}

/-- The ledger with another table of reservations, and everything else as it is. -/
def withReservations (l : Ledger (Faulty Memory)) (t : ReservationTable) :
    Ledger (Faulty Memory) :=
  { l with stores := { l.stores with stores := l.memory.withReservations t } }

@[simp] theorem reservations_withReservations (l : Ledger (Faulty Memory))
    (t : ReservationTable) : (l.withReservations t).memory.reservations = t := rfl

@[simp] theorem withReservations_withReservations (l : Ledger (Faulty Memory))
    (t t' : ReservationTable) :
    (l.withReservations t).withReservations t' = l.withReservations t' := rfl

theorem Sure.withReservations (h : l.Sure) (t : ReservationTable) : (l.withReservations t).Sure := h

/-- **A change of one reservation** whose row meets the condition changes that row and nothing else
of the ledger. -/
theorem Sure.runIn_changeIf (h : l.Sure) {c : Call Bool} {number : String}
    {condition : Reservation → Bool} {g : Reservation → Reservation}
    (hc : l.memory.answer c = Memory.answering l.memory.withReservations
      (l.memory.reservations.changeIf number condition g))
    {r : Reservation} (hrow : l.memory.reservations.find? number = some r)
    (hr : condition r = true) :
    (ask c).runIn l = (.ok true, l.withReservations (l.memory.reservations.amended number g)) := by
  have hanswer : l.memory.answer c =
      .ok (true, l.memory.withReservations (l.memory.reservations.amended number g)) := by
    rw [hc, ReservationTable.changeIf, hrow]
    simp only [hr, if_true]
    rfl
  rw [runIn_ask_of_spent (h.unarmed ▸ spent_nil), hanswer]
  rfl

/-- **Closing an idle reservation.** -/
theorem Sure.runIn_closeIfIdle (h : l.Sure) {r : Reservation}
    (hrow : l.memory.reservations.find? r.number = some r) (hidle : r.isIdle = true) :
    (ask (.closeIfIdle r.number .expired)).runIn l =
      (.ok true, l.withReservations (l.memory.reservations.amended r.number .expire)) :=
  h.runIn_changeIf rfl hrow hidle

/-- **Rows that are idle are closed** one after the other, each of them. The induction is on the
rows that are to be closed; those that are left are not touched by closing the first, because their
numbers are other ones. -/
theorem Sure.runIn_closeLapsed (rs : List Reservation) : ∀ {l : Ledger (Faulty Memory)}, l.Sure →
    l.memory.reservations.Keyed → (rs.map (·.number)).Nodup →
    (∀ r ∈ rs, r ∈ l.memory.reservations.rows ∧ r.isIdle = true) →
    (closeLapsed rs).runIn l =
      (.ok rs.length, l.withReservations (l.memory.reservations.closing rs)) := by
  induction rs with
  | nil =>
    intro l _ _ _ _
    have hsame : l.memory.reservations.closing [] = l.memory.reservations := by
      simp [ReservationTable.closing]
    rw [hsame]
    rfl
  | cons r rest ih =>
    intro l h hkeyed hnumbers hrows
    rw [List.map_cons, List.nodup_cons] at hnumbers
    obtain ⟨hr, hidle⟩ := hrows r List.mem_cons_self
    set t := l.memory.reservations.amended r.number .expire with ht
    have hclose := h.runIn_closeIfIdle (hkeyed.find?_of_mem hr) hidle
    have hothers : ∀ x ∈ rest, x ∈ t.rows ∧ x.isIdle = true := by
      intro x hx
      obtain ⟨hrow, hidle⟩ := hrows x (List.mem_cons_of_mem r hx)
      have hne : x.number ≠ r.number := fun heq =>
        hnumbers.1 (heq ▸ List.mem_map_of_mem hx)
      exact ⟨List.mem_map.2 ⟨x, hrow, if_neg hne⟩, hidle⟩
    have hrest := ih (h.withReservations t) (hkeyed.amended r.number fun _ => rfl) hnumbers.2
      hothers
    unfold closeLapsed
    refine runIn_bind_eq_ok.2 ⟨true, _, hclose, runIn_bind_eq_ok.2 ⟨rest.length, _, hrest, ?_⟩⟩
    rw [runIn_pure, if_pos rfl, List.length_cons, Nat.add_comm, reservations_withReservations,
      withReservations_withReservations, ht, ReservationTable.amended_expire _ _ rfl]

/-- **A sweep expires the first of the rows that are due,** as many as the limit allows. -/
theorem Sure.runIn_expireLapsed (h : l.Sure) (hkeyed : l.memory.reservations.Keyed) (now : Instant)
    (limit : ℕ) :
    (expireLapsed now limit).runIn l =
      (.ok (min limit (l.memory.reservations.dueCount now)),
        l.withReservations (l.memory.reservations.expired now limit)) := by
  have hread : (ask (.findLapsed now limit)).Answers (l.memory.reservations.lapsed now limit) l :=
    h.answers_ask rfl
  rw [ReservationTable.lapsed_eq] at hread
  have hclose := h.runIn_closeLapsed ((l.memory.reservations.queue now).take limit) hkeyed
    ((hkeyed.numbers_queue now).sublist ((List.take_sublist _ _).map _)) fun r hr => by
      obtain ⟨hrow, hdue, -⟩ := (hkeyed.mem_take_queue_iff now limit r).1 hr
      exact ⟨hrow, hdue.isIdle⟩
  rw [List.length_take, ReservationTable.length_queue, hkeyed.closing_take_queue] at hclose
  exact runIn_bind_eq_ok.2 ⟨_, l, hread, hclose⟩

/-! ## 4. Repeated sweeps -/

/-- **Sweeps at one instant,** one after the other; the answer is how many reservations they expired
together. -/
def sweeps (now : Instant) (limit : ℕ) : ℕ → Action (Ledger (Faulty Memory)) ℕ
  | 0 => return 0
  | k + 1 => do
    let first ← expireLapsed now limit
    let others ← sweeps now limit k
    return first + others

/-- The table that a number of sweeps leaves. -/
def tableAfter (l : Ledger (Faulty Memory)) (now : Instant) (limit k : ℕ) : ReservationTable :=
  ((sweeps now limit k).runIn l).2.memory.reservations

/-- **The sweep at a place expires a reservation:** the row is due before it, and expired after
it. -/
def ExpiresAt (l : Ledger (Faulty Memory)) (now : Instant) (limit : ℕ) (number : String) (k : ℕ) :
    Prop :=
  ∃ r, (l.tableAfter now limit k).find? number = some r ∧ r.Due now ∧
    (l.tableAfter now limit (k + 1)).find? number = some r.expire

/-- **Sweeps add up.** -/
theorem Sure.runIn_sweeps (now : Instant) (limit k : ℕ) : ∀ {l : Ledger (Faulty Memory)}, l.Sure →
    l.memory.reservations.Keyed →
    (sweeps now limit k).runIn l =
      (.ok (min (k * limit) (l.memory.reservations.dueCount now)),
        l.withReservations (l.memory.reservations.expired now (k * limit))) := by
  induction k with
  | zero =>
    intro l _ _
    rw [Nat.zero_mul, Nat.zero_min, ReservationTable.expired_zero]
    rfl
  | succ k ih =>
    intro l h hkeyed
    have hfirst := h.runIn_expireLapsed hkeyed now limit
    have hothers := ih (h.withReservations (l.memory.reservations.expired now limit))
      (hkeyed.expired now limit)
    unfold sweeps
    refine runIn_bind_eq_ok.2 ⟨_, _, hfirst, runIn_bind_eq_ok.2 ⟨_, _, hothers, ?_⟩⟩
    rw [runIn_pure, reservations_withReservations, withReservations_withReservations,
      hkeyed.expired_expired, hkeyed.dueCount_expired]
    have hcount : min limit (l.memory.reservations.dueCount now) +
        min (k * limit) (l.memory.reservations.dueCount now - limit) =
          min (limit + k * limit) (l.memory.reservations.dueCount now) := by
      omega
    rw [hcount, Nat.succ_mul, Nat.add_comm (k * limit)]

/-- **A reservation that is due is expired by one sweep,** the one that its place falls to. -/
theorem Sure.expiresAt_iff (h : l.Sure) (hkeyed : l.memory.reservations.Keyed) {r : Reservation}
    (hr : r ∈ l.memory.reservations.rows) (now : Instant) {limit : ℕ} (hlimit : 0 < limit)
    (k : ℕ) :
    l.ExpiresAt now limit r.number k ↔
      r.Due now ∧ k = l.memory.reservations.rank now r / limit := by
  have htable (k : ℕ) : (l.tableAfter now limit k).find? r.number =
      some (l.memory.reservations.swept now (k * limit) r) := by
    rw [tableAfter, h.runIn_sweeps now limit k hkeyed]
    exact hkeyed.find?_expired hr now (k * limit)
  have hplace : k = l.memory.reservations.rank now r / limit ↔
      k * limit ≤ l.memory.reservations.rank now r ∧
        l.memory.reservations.rank now r < (k + 1) * limit := by
    rw [eq_comm, Nat.div_eq_iff hlimit, Nat.succ_mul]
    omega
  rw [ExpiresAt, htable, htable, hplace]
  constructor
  · rintro ⟨x, hx, hdue, hafter⟩
    cases hx
    obtain ⟨hdue, hlow⟩ := ReservationTable.due_swept_iff.1 hdue
    refine ⟨hdue, hlow, not_le.1 fun hlate => ?_⟩
    -- A row whose turn comes later would still be due.
    rw [ReservationTable.swept_of_le hlow, ReservationTable.swept_of_le hlate] at hafter
    exact r.not_due_expire now (Option.some_injective _ hafter ▸ hdue)
  · rintro ⟨hdue, hlow, hhigh⟩
    exact ⟨r, congrArg some (ReservationTable.swept_of_le hlow), hdue,
      congrArg some (ReservationTable.swept_of_lt hdue hhigh)⟩

/-- **What sweeps expire,** where nothing fails and rows are kept under their numbers. A sweep
expires the first of the rows that are due, by date and then by number, as many as the limit allows,
and answers how many they are; every other row and everything else in the ledger stays as it was.
Sweeps at one instant add up, and if the limit is positive, each row that is due is expired by
exactly one of them. Whatever calls the stores answer in between, the rows are kept under their
numbers for the next sweep. -/
theorem sweeps_expire_due (h : l.Sure) (hkeyed : l.memory.reservations.Keyed) (now : Instant)
    (limit : ℕ) :
    let t := l.memory.reservations
    (expireLapsed now limit).runIn l =
        (.ok (min limit (t.dueCount now)), l.withReservations (t.expired now limit)) ∧
      (t.rows.countP fun r => decide (r.Due now ∧ t.rank now r < limit)) =
        min limit (t.dueCount now) ∧
      (∀ k, (sweeps now limit k).runIn l =
        (.ok (min (k * limit) (t.dueCount now)), l.withReservations (t.expired now (k * limit)))) ∧
      (0 < limit → ∀ r ∈ t.rows, r.Due now → ∃! k, l.ExpiresAt now limit r.number k) ∧
      ∀ steps, (StoreStep.afterAll ((expireLapsed now limit).runIn l).2.memory
        steps).reservations.Keyed := by
  intro t
  refine ⟨h.runIn_expireLapsed hkeyed now limit, hkeyed.countP_first now limit,
    fun k => h.runIn_sweeps now limit k hkeyed, fun hlimit r hr hdue => ?_, fun steps => ?_⟩
  · have hiff := h.expiresAt_iff hkeyed hr now hlimit
    exact ⟨_, (hiff _).2 ⟨hdue, rfl⟩, fun k hk => ((hiff k).1 hk).2⟩
  · rw [h.runIn_expireLapsed hkeyed]
    exact StoreStep.keyed_all steps (hkeyed.expired now limit)

end Ledger

namespace Small

/-- Three reservations that have lapsed, one that has lapsed while it is settled, and one that
lapses later. -/
def lapsedRows : List Reservation := [
  { idleRow with number := "c", reservedAt := 2 },
  { idleRow with number := "b", reservedAt := 1 },
  { idleRow with number := "a", reservedAt := 2 },
  { idleRow with number := "d", settlement := some ⟨"s", "first", none, 2⟩ },
  { idleRow with number := "e", expiresAt := 101 }]

def lapsed : Ledger (Faulty Memory) :=
  .start ⟨{ Memory.empty ids with reservations := ⟨lapsedRows⟩ }, []⟩ 100

end Small

open WalletLedger.Small in
/-- With a limit of two, the oldest reservation goes first, and of the two others that are due the
one with the smaller number. The last is left to the second sweep. -/
theorem Ledger.sweeps_expire_due_small :
    lapsed.Sure ∧ lapsed.memory.reservations.Keyed ∧
      ((expireLapsed 100 2).runIn lapsed).1 = .ok 2 ∧
      (lapsed.memory.reservations.expired 100 2).rows.map (·.status) =
        [.reserved, .expired, .expired, .reserved, .reserved] ∧
      ∃! k, lapsed.ExpiresAt 100 2 "c" k := by
  have hsure : lapsed.Sure := sure_of_unarmed rfl
  have hkeyed : lapsed.memory.reservations.Keyed := by
    unfold ReservationTable.Keyed
    decide +kernel
  obtain ⟨hsweep, -, -, hunique, -⟩ := sweeps_expire_due hsure hkeyed 100 2
  refine ⟨hsure, hkeyed, ?_, by decide +kernel, ?_⟩
  · have hcount : min 2 (lapsed.memory.reservations.dueCount 100) = 2 := by decide +kernel
    rw [hsweep, hcount]
  · exact hunique (by decide) _ List.mem_cons_self (by decide)

end WalletLedger
