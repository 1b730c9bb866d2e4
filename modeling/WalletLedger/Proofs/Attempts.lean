/-
Whose leg a reference names.

A claim puts its attempt into the references of its legs, and the attempt can be read off them
whatever else they hold (`Leg.ref_eq_ref_iff`). So two claims share a reference only if they share
an attempt. They do not: an attempt is given with the claim that takes it, the stores count the
claims, and no service takes a count back (`Ledger.GivesOn`). Hence each claim of a run stands
between two counts of its own, and as long as the source of identifiers does not repeat itself, its
legs are named by no other claim.

It does not matter how a claim is begun or what becomes of it. The call that begins it may be
reported as a failure, the claim may be given up in the same act, and the next one may be for the
same reservation under the same reference of the caller.
-/
import WalletLedger.Proofs.Advance
import WalletLedger.Proofs.Recovery
import WalletLedger.Proofs.Traversal
import Mathlib.Order.Interval.Set.Basic

set_option autoImplicit false

namespace WalletLedger

open WalletLedger.Action

/-! ## 1. The count of the attempts -/

/-- A call gives one attempt or none, and it does not exchange the source of identifiers. -/
theorem Memory.ids_eq_claimed_le_of_answer {α : Type} {c : Call α} {m m' : Memory} {a : α}
    (h : m.answer c = .ok (a, m')) : m'.ids = m.ids ∧ m.claimed ≤ m'.claimed := by
  cases c with
  | beginSettlement number s =>
    obtain ⟨r, -, -, ⟨-, rfl⟩ | ⟨-, rfl⟩⟩ := answer_beginSettlement h
    · exact ⟨rfl, le_rfl⟩
    · exact ⟨rfl, Nat.le_succ _⟩
  | insertReservation new =>
    obtain ⟨t, -, rfl⟩ := answer_insertReservation h
    exact ⟨rfl, le_rfl⟩
  | commitPosting debit credit p =>
    obtain ⟨t, posted, -, rfl⟩ := answer_commitPosting h
    exact ⟨rfl, le_rfl⟩
  | createOwner | setFlags | createWallet | compareAndSet | clearSettlement | closeIfIdle
  | updateStatusIf | insertWithdrawal | transition | revert =>
    obtain ⟨t, -, rfl⟩ := answering_eq h
    exact ⟨rfl, le_rfl⟩
  | addCurrency | setTransitive | setActive | addRate | updateRate | deleteRate | setFinal =>
    obtain ⟨t, -, rfl⟩ := writing_eq h
    exact ⟨rfl, le_rfl⟩
  | _ =>
    -- The other calls read, or they write pairs that are forbidden.
    cases h
    exact ⟨rfl, le_rfl⟩

namespace Ledger

variable {α : Type} {t : Terms} {l l' l'' : Ledger (Faulty Memory)}

/-- **Attempts are given one after the other:** they come from the same source, and none is taken
back. -/
structure GivesOn (l l' : Ledger (Faulty Memory)) : Prop where
  ids : l'.memory.ids = l.memory.ids
  claimed : l.memory.claimed ≤ l'.memory.claimed

theorem GivesOn.refl (l : Ledger (Faulty Memory)) : l.GivesOn l := ⟨rfl, le_rfl⟩

theorem GivesOn.trans (h : l.GivesOn l') (h' : l'.GivesOn l'') : l.GivesOn l'' :=
  ⟨h'.ids.trans h.ids, h.claimed.trans h'.claimed⟩

instance : IsTrans (Ledger (Faulty Memory)) GivesOn := ⟨fun _ _ _ h h' => h.trans h'⟩

theorem givesOn_of_memory (h : l'.memory = l.memory) : l.GivesOn l' :=
  ⟨by rw [h], by rw [h]⟩

theorem goes_ask_givesOn (c : Call α) : Goes GivesOn (ask c) := by
  have answered : ∀ {l l' : Ledger (Faulty Memory)} {a : α},
      l.memory.answer c = .ok (a, l'.memory) → l.GivesOn l' := by
    intro l l' a ha
    obtain ⟨hids, hclaimed⟩ := Memory.ids_eq_claimed_le_of_answer ha
    exact ⟨hids, hclaimed⟩
  refine goes_of_ends fun l => ends_ask (fun _ _ _ ha => answered ha)
    (fun _ _ h _ _ => givesOn_of_memory h.memory) (fun _ _ h => givesOn_of_memory h.memory)
    fun _ _ _ _ _ ha => answered ha

/-- Posting takes no attempt. -/
theorem givesOn_post (access : Access) (mv : Movement) :
    Within GivesOn (post t access mv) (fun _ _ => True) l := by
  refine within_post_of (fun l₁ l₂ h => ?_) fun l₁ p l₂ h => ?_
  · obtain ⟨-, -, hclaimed⟩ := Evolves.reservations h fun he => Effect.noConfusion he
    exact ⟨Evolves.ids h, hclaimed.ge⟩
  · obtain ⟨table, -, hm⟩ := h.made
    exact ⟨by rw [hm]; rfl, by rw [hm]; exact le_rfl⟩

theorem carriesPosts_givesOn : CarriesPosts t GivesOn where
  trans h h' := h.trans h'
  beside hstores _ := givesOn_of_memory (by rw [memory, hstores, memory])
  call c _ := goes_ask_givesOn c
  post access mv _ := (givesOn_post access mv).moves

end Ledger

theorem Act.givesOn_after {t : Terms} (l : Ledger (Faulty Memory)) (a : Act) :
    l.GivesOn (a.after t l) := by
  by_cases hservice : a.IsService
  · exact Ledger.carriesPosts_givesOn.goes_act hservice l
  · cases a with
    | serve op =>
      cases op with
      | inject | arm => exact ⟨rfl, le_rfl⟩
      | _ => exact absurd trivial hservice
    | _ => exact absurd trivial hservice

/-! ## 2. Claims -/

namespace Ledger

variable {l l' : Ledger (Faulty Memory)} {r r' : Reservation} {s s' : Settlement}

/-- Two accounts of one claim are one. -/
theorem Claims.unique (h : l.Claims r s l') (h' : l.Claims r' s' l') : r = r' ∧ s = s' := by
  have hfound := h.found
  rw [h'.memory] at hfound
  have hrow := ReservationTable.find?_amended (g := fun x => { x with settlement := some s' })
    (fun _ => rfl) h'.row r.number
  rw [Memory.withReservations, hrow] at hfound
  split_ifs at hfound with hnumber
  · have hrows := h.row
    rw [hnumber, h'.row] at hrows
    obtain rfl := Option.some.inj hrows
    have hsettlement := congrArg Reservation.settlement (Option.some.inj hfound)
    exact ⟨rfl, (Option.some.inj hsettlement).symm⟩
  · -- The row that one account claims is as it was in the other, so it was never idle.
    have hidle := h.idle
    rw [h.row, Option.some.injEq] at hfound
    rw [hfound, Reservation.isIdle, Bool.and_eq_true] at hidle
    exact absurd hidle.2 Bool.false_ne_true

/-- **A claim is made under the attempt that is offered,** or nothing is written. -/
def TakesOffer (l l' : Ledger (Faulty Memory)) : Prop :=
  l'.memory = l.memory ∨ ∃ r s, l.Claims r s l' ∧ s.attempt = l.memory.fresh.attempt

/-- **Claiming takes what is offered,** whatever fails. -/
theorem goes_claimReservation (number : String) (description ref issuer : Option String) :
    Goes TakesOffer (claimReservation number description ref issuer) := by
  refine goes_of_ends fun l => Ledger.ends_claimReservation number description ref issuer
    (fun _ _ hstill => .inl hstill.memory) fun l₁ r s hstill hr _ hs => ?_
  have hnumber := ReservationTable.find?_number hr
  -- Whether the answer is told or not, the call was answered as a whole.
  have answered : ∀ b l₂, l₁.Follows l₂ →
      l₁.memory.answer (.beginSettlement number s) = .ok (b, l₂.memory) → l.TakesOffer l₂ := by
    intro b l₂ hfollows ha
    rw [hstill.memory] at ha
    obtain ⟨x, hx, hidle, ⟨-, hm⟩ | ⟨rfl, hm⟩⟩ := Memory.answer_beginSettlement ha
    · exact .inl hm
    · obtain rfl : r = x := Option.some.inj (hr.symm.trans hx)
      subst hnumber
      exact .inr ⟨r, s, ⟨hstill.toFollows.trans hfollows, hr, hidle.symm, hm⟩, hs⟩
  have unmoved : ∀ l₂, l₁.Still l₂ → l.TakesOffer l₂ := fun _ h => .inl (hstill.trans h).memory
  rw [ends_bind]
  refine ends_ask (fun b l₂ hfollows ha => ?_) (fun b l₂ h _ _ => ?_) (fun _ => unmoved)
    fun _ b l₂ hfollows _ ha => answered b l₂ hfollows ha
  · rw [ends_bind, ends_require]
    exact ⟨fun _ => answered b l₂ hfollows ha, fun _ => answered b l₂ hfollows ha⟩
  · rw [ends_bind, ends_require]
    exact ⟨fun _ => unmoved l₂ h, fun _ => unmoved l₂ h⟩

variable {t : Terms} {number : String} {description ref issuer : Option String}

/-- Where there is one reservation, the rows tell that it was claimed. -/
theorem claims_of_rows (hrows : l.memory.reservations.rows = [r]) (hidle : r.settlement = none)
    (hclaimed :
      ((claimReservation number description ref issuer).runIn l).2.memory.reservations.rows =
        [{ r with settlement := some s }]) :
    l.Claims r s ((claimReservation number description ref issuer).runIn l).2 := by
  rcases goes_claimReservation number description ref issuer l with hm | ⟨x, y, hclaims, -⟩
  · rw [hm, hrows] at hclaimed
    have hsettlement := congrArg Reservation.settlement (List.singleton_inj.1 hclaimed)
    rw [hidle] at hsettlement
    cases hsettlement
  · have hx := ReservationTable.mem_of_find? hclaims.row
    rw [hrows, List.mem_singleton] at hx
    subst hx
    have hy := ReservationTable.mem_of_find? hclaims.found
    rw [hclaimed, List.mem_singleton] at hy
    have hsettlement := congrArg Reservation.settlement hy
    obtain rfl : y = s := Option.some.inj hsettlement
    exact hclaims

/-- So the attempt of a claim is the one that was offered. -/
theorem Claims.attempt
    (h : l.Claims r s ((claimReservation number description ref issuer).runIn l).2) :
    s.attempt = l.memory.ids.attempt (l.memory.claimed + 1) := by
  rcases goes_claimReservation number description ref issuer l with hm | ⟨x, y, hclaims, hy⟩
  · have hclaimed := congrArg Memory.claimed (h.memory.symm.trans hm)
    exact absurd hclaimed (Nat.succ_ne_self _)
  · obtain ⟨-, rfl⟩ := h.unique hclaims
    exact hy

/-- **An advance that claims a reservation uses the attempt up.** -/
theorem Claims.claimed_lt
    (h : l.Claims r s ((claimReservation number description ref issuer).runIn l).2) :
    l.memory.claimed <
      ((Operation.advance number description ref issuer).after t l).memory.claimed := by
  have hclaimed : l.memory.claimed <
      ((claimReservation number description ref issuer).runIn l).2.memory.claimed := by
    rw [h.memory]
    exact Nat.lt_succ_self _
  have hsettled : ∀ claimed : Reservation × Settlement, l.memory.claimed <
      ((settle t claimed.1 claimed.2).runIn
        ((claimReservation number description ref issuer).runIn l).2).2.memory.claimed :=
    fun claimed => hclaimed.trans_le (carriesPosts_givesOn.goes_settle _ _ _).claimed
  refine Operation.runIn_discard (I := fun l' => l.memory.claimed < l'.memory.claimed) ?_
  rw [advanceReservation_eq, ends_bind]
  -- Whether the call is reported as a success or as a failure, the count is not put back.
  refine ends_iff.2
    ⟨fun claimed _ => ends_iff.2 ⟨fun _ _ => ?_, fun _ _ => ?_⟩, fun _ _ => hclaimed⟩
  · exact hsettled claimed
  · exact hsettled claimed

end Ledger

/-! ## 3. Claims of a run -/

namespace Act

open Ledger

variable {t : Terms} {l : Ledger (Faulty Memory)} {acts : List Act} {i j : ℕ}
  {r r' : Reservation} {s s' : Settlement}

/-- The ledger that the act at a place finds; behind the last act, what the run leaves. -/
def before (t : Terms) (l : Ledger (Faulty Memory)) (acts : List Act) (i : ℕ) :
    Ledger (Faulty Memory) :=
  runAll t l (acts.take i)

/-- **At this place of a run a reservation is claimed:** the act there is an advance, and what it
begins with puts the settlement into the row. -/
def ClaimsAt (t : Terms) (l : Ledger (Faulty Memory)) (acts : List Act) (i : ℕ) (r : Reservation)
    (s : Settlement) : Prop :=
  ∃ number description ref issuer,
    acts[i]? = some (.serve (.advance number description ref issuer)) ∧
      (before t l acts i).Claims r s
        ((claimReservation number description ref issuer).runIn (before t l acts i)).2

theorem before_succ {a : Act} (h : acts[i]? = some a) :
    before t l acts (i + 1) = a.after t (before t l acts i) := by
  simp only [before, runAll, List.take_add_one, h, Option.toList_some, List.foldl_append,
    List.foldl_cons, List.foldl_nil]

theorem before_length : before t l acts acts.length = runAll t l acts := by
  rw [before, List.take_length]

theorem givesOn_runAll (acts : List Act) :
    ∀ l : Ledger (Faulty Memory), l.GivesOn (runAll t l acts) := by
  induction acts with
  | nil => exact GivesOn.refl
  | cons a acts ih => exact fun l => (a.givesOn_after l).trans (ih _)

/-- **From place to place the count grows.** -/
theorem givesOn_before (h : i ≤ j) : (before t l acts i).GivesOn (before t l acts j) := by
  obtain ⟨k, rfl⟩ := Nat.exists_eq_add_of_le h
  rw [before, before, List.take_add, runAll, runAll, List.foldl_append]
  exact givesOn_runAll _ _

namespace ClaimsAt

/-- At one place there is one claim at most. -/
theorem unique (h : ClaimsAt t l acts i r s) (h' : ClaimsAt t l acts i r' s') :
    r = r' ∧ s = s' := by
  obtain ⟨number, description, ref, issuer, hact, hclaims⟩ := h
  obtain ⟨number', description', ref', issuer', hact', hclaims'⟩ := h'
  rw [hact] at hact'
  cases hact'
  exact hclaims.unique hclaims'

/-- A claim has the attempt after those that were given before. -/
theorem attempt (h : ClaimsAt t l acts i r s) :
    s.attempt = l.memory.ids.attempt ((before t l acts i).memory.claimed + 1) := by
  obtain ⟨number, description, ref, issuer, -, hclaims⟩ := h
  rw [hclaims.attempt, before, (givesOn_runAll _ l).ids]

/-- **A later place comes after it in the count.** -/
theorem claimed_lt (h : ClaimsAt t l acts i r s) (hij : i < j) :
    (before t l acts i).memory.claimed < (before t l acts j).memory.claimed := by
  obtain ⟨number, description, ref, issuer, hact, hclaims⟩ := h
  have hnext : (before t l acts i).memory.claimed <
      (before t l acts (i + 1)).memory.claimed := by
    rw [before_succ hact]
    exact hclaims.claimed_lt
  exact hnext.trans_le (givesOn_before hij).claimed

/-- The attempt is one of those that were given in the run. -/
theorem given (h : ClaimsAt t l acts i r s) :
    (before t l acts i).memory.claimed + 1 ∈
      Set.Ioc l.memory.claimed (runAll t l acts).memory.claimed := by
  obtain ⟨number, description, ref, issuer, hact, -⟩ := id h
  have hi : i < acts.length := (List.getElem?_eq_some_iff.1 hact).1
  have hend := h.claimed_lt hi
  rw [before_length] at hend
  exact ⟨Nat.lt_succ_of_le (givesOn_runAll _ l).claimed, hend⟩

/-- **Claims at different places have different attempts.** -/
theorem attempt_inj (hfresh : Set.InjOn l.memory.ids.attempt
      (Set.Ioc l.memory.claimed (runAll t l acts).memory.claimed))
    (h : ClaimsAt t l acts i r s) (h' : ClaimsAt t l acts j r' s')
    (heq : s.attempt = s'.attempt) : i = j := by
  rw [h.attempt, h'.attempt] at heq
  have hcount := Nat.succ.inj (hfresh h.given h'.given heq)
  rcases Nat.lt_trichotomy i j with hlt | rfl | hgt
  · exact absurd hcount (h.claimed_lt hlt).ne
  · rfl
  · exact absurd hcount (h'.claimed_lt hgt).ne'

end ClaimsAt

/-- **A reference names one leg of one claim.** Whatever the texts of reservations and settlements
are, two legs whose attempts hold no hyphen have one reference if and only if they are the same leg
under the same attempt, after texts that are the same once they are joined. And the claims of a run
have attempts of their own: from any state, by any acts, whatever fails, two claims share a
reference only if they are one claim at one place, and then only for the same leg. -/
theorem legRef_names_claim :
    (∀ (r r' : Reservation) (s s' : Settlement) (leg leg' : Leg),
      '-' ∉ s.attempt.toList → '-' ∉ s'.attempt.toList →
        (r.legRef s leg = r'.legRef s' leg' ↔
          leg = leg' ∧ s.attempt = s'.attempt ∧
            s.settleRef ++ "-" ++ r.number = s'.settleRef ++ "-" ++ r'.number)) ∧
    ∀ (t : Terms) (l : Ledger (Faulty Memory)) (acts : List Act),
      (∀ n, '-' ∉ (l.memory.ids.attempt n).toList) →
      Set.InjOn l.memory.ids.attempt
        (Set.Ioc l.memory.claimed (runAll t l acts).memory.claimed) →
      ∀ i j r r' s s' (leg leg' : Leg),
        ClaimsAt t l acts i r s → ClaimsAt t l acts j r' s' →
          (r.legRef s leg = r'.legRef s' leg' ↔ i = j ∧ leg = leg') := by
  refine ⟨fun r r' s s' leg leg' hplain hplain' => ?_,
    fun t l acts hplain hfresh i j r r' s s' leg leg' hi hj => ?_⟩
  · rw [Leg.legRef_eq, Leg.legRef_eq]
    exact Leg.ref_eq_ref_iff hplain hplain'
  · have hs : '-' ∉ s.attempt.toList := hi.attempt ▸ hplain _
    have hs' : '-' ∉ s'.attempt.toList := hj.attempt ▸ hplain _
    constructor
    · intro href
      rw [Leg.legRef_eq, Leg.legRef_eq] at href
      obtain ⟨hleg, hattempt, -⟩ := (Leg.ref_eq_ref_iff hs hs').1 href
      exact ⟨hi.attempt_inj hfresh hj hattempt, hleg⟩
    · rintro ⟨rfl, rfl⟩
      -- The place is one, so what is claimed there is one as well.
      obtain ⟨rfl, rfl⟩ := hi.unique hj
      rfl

end Act

namespace Small

/-- A conversion is reserved, and the owner settles it under a reference of their own. The first leg
fails, and they try again under the same reference. -/
def retried : List Act := [
  .serve (.reserve ⟨units 10, "GOLD", "SILVER", "ann", .main, "ann", .main⟩),
  .serve (.arm [⟨"commit_posting", .before, 0, 1⟩]),
  .serve (.advance (ids.reservation 1) none (some "T-1") none),
  .serve (.advance (ids.reservation 1) none (some "T-1") none)]

/-- What they reserved. -/
def unsettled : Reservation := { stalled with settlement := none }

def firstTry : Settlement := ⟨"T-1", ids.attempt 1, none, 3⟩

def secondTry : Settlement := ⟨"T-1", ids.attempt 2, none, 6⟩

/-- At a place where the rows show it, the reservation is claimed. -/
theorem claimsAt_retried {i : ℕ} {s : Settlement}
    (hact : retried[i]? = some (.serve (.advance (ids.reservation 1) none (some "T-1") none)))
    (hrows : (Act.before terms ledger retried i).memory.reservations.rows = [unsettled])
    (hclaimed : ((Ledger.claimReservation (ids.reservation 1) none (some "T-1") none).runIn
        (Act.before terms ledger retried i)).2.memory.reservations.rows =
      [{ unsettled with settlement := some s }]) :
    Act.ClaimsAt terms ledger retried i unsettled s :=
  ⟨_, _, _, _, hact, Ledger.claims_of_rows hrows rfl hclaimed⟩

end Small

open WalletLedger.Small in
/-- The legs of both tries differ from each other, although all else that they are named after is
the same. -/
theorem Act.legRef_names_claim_small :
    (∀ n, '-' ∉ (ledger.memory.ids.attempt n).toList) ∧
      Set.InjOn ledger.memory.ids.attempt
        (Set.Ioc ledger.memory.claimed (runAll terms ledger retried).memory.claimed) ∧
      ClaimsAt terms ledger retried 2 unsettled firstTry ∧
      ClaimsAt terms ledger retried 3 unsettled secondTry ∧
      unsettled.legRef firstTry .withdraw ≠ unsettled.legRef firstTry .refund ∧
      unsettled.legRef firstTry .withdraw ≠ unsettled.legRef secondTry .withdraw := by
  have hplain : ∀ n, '-' ∉ (ledger.memory.ids.attempt n).toList :=
    fun n => (IdSource.plain_ofSeed 0 1).attempt n
  have hstart : ledger.memory.claimed = 0 := by decide +kernel
  have hend : (runAll terms ledger retried).memory.claimed = 2 := by decide +kernel
  have hfresh : Set.InjOn ledger.memory.ids.attempt
      (Set.Ioc ledger.memory.claimed (runAll terms ledger retried).memory.claimed) := by
    rw [hstart, hend]
    have hne : ids.attempt 1 ≠ ids.attempt 2 := by decide +kernel
    rintro m ⟨_, _⟩ n ⟨_, _⟩ heq
    have heq : ids.attempt m = ids.attempt n := heq
    have hm : m = 1 ∨ m = 2 := by omega
    have hn : n = 1 ∨ n = 2 := by omega
    rcases hm with rfl | rfl <;> rcases hn with rfl | rfl
    · rfl
    · exact absurd heq hne
    · exact absurd heq.symm hne
    · rfl
  have hfirst : ClaimsAt terms ledger retried 2 unsettled firstTry :=
    claimsAt_retried rfl (by decide +kernel) (by decide +kernel)
  have hsecond : ClaimsAt terms ledger retried 3 unsettled secondTry :=
    claimsAt_retried rfl (by decide +kernel) (by decide +kernel)
  refine ⟨hplain, hfresh, hfirst, hsecond, fun heq => ?_, fun heq => ?_⟩
  · have hleg := ((legRef_names_claim.1 _ _ _ _ _ _ (hplain 1) (hplain 1)).1 heq).1
    cases hleg
  · have hplace := ((legRef_names_claim.2 terms ledger retried hplain hfresh 2 3 _ _ _ _ _ _ hfirst
      hsecond).1 heq).1
    exact absurd hplace (by decide)

end WalletLedger
