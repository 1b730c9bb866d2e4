/-
What a reference tells of a leg.

The legs of a settlement are known by their references alone, so what is said of legs has to be read
off texts. A leg's reference ends with the attempt and the leg's name, and neither holds a hyphen;
before them stands the number of the reservation, and all numbers are of one length. Hence a
reference is read from its end in one way only (`Leg.ref_inj`), whatever text a caller chose for its
beginning.

The other references of the log are not mistaken for legs. Those of withdrawals end with a capital
or a digit, and those that callers choose do not hold an attempt, which they cannot know.
-/
import WalletLedger.Ledger.Withdrawals
import WalletLedger.Reservation
import WalletLedger.Store.Identifiers
import Mathlib.Data.List.Basic

set_option autoImplicit false

namespace WalletLedger

/-! ## 1. Reading from the end -/

/-- What stands after the last separator is found in one way. -/
theorem append_separator_inj {α : Type} {c : α} {xs ys us vs : List α} (hu : c ∉ us) (hv : c ∉ vs)
    (h : xs ++ c :: us = ys ++ c :: vs) : xs = ys ∧ us = vs := by
  rcases List.append_eq_append_iff.1 h with ⟨ws, hys, hcu⟩ | ⟨ws, hxs, hcv⟩
  · cases ws with
    | nil =>
      rw [List.append_nil] at hys
      exact ⟨hys.symm, (List.cons.inj hcu).2⟩
    | cons w ws =>
      -- The second separator would stand after the first.
      have hmem : c ∈ us := by
        rw [(List.cons.inj hcu).2]
        exact List.mem_append_right _ List.mem_cons_self
      exact absurd hmem hu
  · cases ws with
    | nil =>
      rw [List.append_nil] at hxs
      exact ⟨hxs, (List.cons.inj hcv).2.symm⟩
    | cons w ws =>
      have hmem : c ∈ vs := by
        rw [(List.cons.inj hcv).2]
        exact List.mem_append_right _ List.mem_cons_self
      exact absurd hmem hv

/-- The same with more text before the separator, if its length is known. -/
theorem append_separator_inj_of_length {α : Type} {c : α} {xs ys us vs : List α}
    (hlen : us.length = vs.length) (h : xs ++ c :: us = ys ++ c :: vs) : xs = ys ∧ us = vs := by
  obtain ⟨hxs, hcons⟩ := List.append_inj' h (by simp [hlen])
  exact ⟨hxs, (List.cons.inj hcons).2⟩

/-! ## 2. References of legs -/

namespace Leg

/-- **The reference of a leg,** from its four parts. -/
def ref (settleRef number attempt : String) (leg : Leg) : String :=
  settleRef ++ "-" ++ number ++ "-" ++ attempt ++ "-" ++ leg.name

theorem legRef_eq (r : Reservation) (s : Settlement) (leg : Leg) :
    r.legRef s leg = leg.ref s.settleRef r.number s.attempt := rfl

theorem toList_ref (settleRef number attempt : String) (leg : Leg) :
    (leg.ref settleRef number attempt).toList =
      ((settleRef.toList ++ '-' :: number.toList) ++ '-' :: attempt.toList) ++
        '-' :: leg.name.toList := by
  simp [ref]

/-- A reference holds its attempt. -/
theorem infix_ref (settleRef number attempt : String) (leg : Leg) :
    attempt.toList <:+: (leg.ref settleRef number attempt).toList := by
  refine ⟨settleRef.toList ++ '-' :: number.toList ++ ['-'], '-' :: leg.name.toList, ?_⟩
  simp [toList_ref]

theorem name_inj {leg leg' : Leg} (h : leg.name.toList = leg'.name.toList) : leg = leg' := by
  revert h
  cases leg <;> cases leg' <;> decide

theorem hyphen_notMem_name (leg : Leg) : '-' ∉ leg.name.toList := by cases leg <;> decide

/-- **A reference is read from its end.** The name and the attempt hold no hyphen, so both are found
there, and all that is left is one text. -/
theorem ref_eq_ref_iff {settleRef settleRef' number number' attempt attempt' : String}
    {leg leg' : Leg} (hplain : '-' ∉ attempt.toList) (hplain' : '-' ∉ attempt'.toList) :
    leg.ref settleRef number attempt = leg'.ref settleRef' number' attempt' ↔
      leg = leg' ∧ attempt = attempt' ∧
        settleRef ++ "-" ++ number = settleRef' ++ "-" ++ number' := by
  constructor
  · intro h
    have hlist := congrArg String.toList h
    rw [toList_ref, toList_ref] at hlist
    obtain ⟨hrest, hname⟩ :=
      append_separator_inj (hyphen_notMem_name leg) (hyphen_notMem_name leg') hlist
    obtain ⟨hstem, hattempt⟩ := append_separator_inj hplain hplain' hrest
    refine ⟨name_inj hname, String.toList_inj.1 hattempt, String.toList_inj.1 ?_⟩
    simpa using hstem
  · rintro ⟨rfl, rfl, hstem⟩
    rw [ref, ref, hstem]

/-- An attempt with a hyphen is mistaken for another one. -/
example : withdraw.ref "T" "1" "2-3" = withdraw.ref "T" "1-2" "3" := rfl

/-- Where the number begins cannot be told. -/
example : withdraw.ref "T-1" "2" "3" = withdraw.ref "T" "1-2" "3" := rfl

/-- **A reference is the reference of one leg only,** if the length of its number is known. -/
theorem ref_inj {settleRef settleRef' number number' attempt attempt' : String} {leg leg' : Leg}
    (hplain : '-' ∉ attempt.toList) (hplain' : '-' ∉ attempt'.toList)
    (hlen : number.length = number'.length)
    (h : leg.ref settleRef number attempt = leg'.ref settleRef' number' attempt') :
    settleRef = settleRef' ∧ number = number' ∧ attempt = attempt' ∧ leg = leg' := by
  obtain ⟨hleg, hattempt, hstem⟩ := (ref_eq_ref_iff hplain hplain').1 h
  have hlist : settleRef.toList ++ '-' :: number.toList =
      settleRef'.toList ++ '-' :: number'.toList := by
    simpa using congrArg String.toList hstem
  obtain ⟨hsettle, hnumber⟩ := append_separator_inj_of_length hlen hlist
  exact ⟨String.toList_inj.1 hsettle, String.toList_inj.1 hnumber, hattempt, hleg⟩

end Leg

namespace IdSource

/-- **What identifiers look like:** an attempt holds no hyphen, and all numbers of reservations are
of one length. -/
structure Plain (ids : IdSource) : Prop where
  attempt : ∀ n, '-' ∉ (ids.attempt n).toList
  reservation : ∀ i j, (ids.reservation i).length = (ids.reservation j).length

theorem hyphen_notMem_hexDigits (count n : Nat) : '-' ∉ (hexDigits count n).toList := by
  have hdigit : ∀ d < 16, Nat.digitChar d ≠ '-' := by decide
  intro hmem
  rw [hexDigits, String.toList_ofList] at hmem
  obtain ⟨i, -, hi⟩ := List.mem_map.1 hmem
  exact hdigit _ (Nat.mod_lt _ (by omega)) hi

theorem length_hexDigits (count n : Nat) : (hexDigits count n).length = count := by
  simp [hexDigits]

theorem plain_ofSeed (begun : Instant) (seed : Nat) : (ofSeed begun seed).Plain where
  attempt _ := hyphen_notMem_hexDigits _ _
  reservation _ _ := (length_hexDigits _ _).trans (length_hexDigits _ _).symm

/-! ## 3. References of other postings -/

/-- **The reference belongs to no leg.** -/
def Foreign (ids : IdSource) (ref : String) : Prop :=
  ∀ settleRef number n (leg : Leg), ref ≠ leg.ref settleRef number (ids.attempt n)

variable {ids : IdSource}

/-- A text that holds no attempt is no reference of a leg. -/
theorem foreign_of_no_attempt {ref : String}
    (h : ∀ n, ¬(ids.attempt n).toList <:+: ref.toList) : ids.Foreign ref := by
  rintro settleRef number n leg rfl
  exact h n (Leg.infix_ref settleRef number (ids.attempt n) leg)

/-- Nor is one that does not end as the names of the legs do. -/
theorem foreign_of_getLast? {ref : String} {c : Char} (h : ref.toList.getLast? = some c)
    (hc : c ≠ 'w' ∧ c ≠ 't' ∧ c ≠ 'd') : ids.Foreign ref := by
  rintro settleRef number n leg rfl
  rw [Leg.toList_ref, List.getLast?_append] at h
  cases leg with
  | withdraw => exact hc.1 (Option.some.inj h).symm
  | deposit => exact hc.2.1 (Option.some.inj h).symm
  | refund => exact hc.2.2 (Option.some.inj h).symm

/-- The postings for a row of the withdrawals are no legs. -/
theorem foreign_legRef (w : Withdrawal) (status : WithdrawalStatus) :
    ids.Foreign (w.legRef status) := by
  have hlast : ∃ c, status.name.toList.getLast? = some c ∧ c ≠ 'w' ∧ c ≠ 't' ∧ c ≠ 'd' := by
    cases status <;> exact ⟨_, rfl, by decide⟩
  obtain ⟨c, hc, hne⟩ := hlast
  refine foreign_of_getLast? (c := c) ?_ hne
  rw [Withdrawal.legRef, String.toList_append, List.getLast?_append, hc, Option.some_or]

/-- The last character of a posting's identifier is that of a digit. -/
theorem getLast?_text (id : TransferId) :
    ∃ d, id.text.toList.getLast? = some (TransferId.charOfDigit d) := by
  have hne : TransferId.digits 26 id.bits ≠ [] := by
    intro hnil
    have hlen := congrArg List.length hnil
    simp [TransferId.digits] at hlen
  refine ⟨(TransferId.digits 26 id.bits).getLast hne, ?_⟩
  rw [TransferId.text, String.toList_ofList, List.getLast?_map, List.getLast?_eq_some_getLast hne,
    Option.map_some]

/-- Nor are those that return funds for which no row was stored. -/
theorem foreign_orphanRef (r : Receipt) : ids.Foreign r.orphanRef := by
  have halphabet : ∀ d, TransferId.charOfDigit d ≠ 'w' ∧ TransferId.charOfDigit d ≠ 't' ∧
      TransferId.charOfDigit d ≠ 'd' := by
    intro d
    rcases Nat.lt_or_ge d 32 with hlt | hge
    · revert d
      decide
    · -- What is no digit is written like zero.
      have hnone : TransferId.alphabet[d]? = none := List.getElem?_eq_none hge
      rw [TransferId.charOfDigit, List.getD_eq_getElem?_getD, hnone]
      decide
  obtain ⟨d, hd⟩ := getLast?_text r.transferId
  refine foreign_of_getLast? (c := TransferId.charOfDigit d) ?_ (halphabet d)
  unfold Receipt.orphanRef
  rw [String.toList_append, List.getLast?_append, hd, Option.some_or]

end IdSource

end WalletLedger
