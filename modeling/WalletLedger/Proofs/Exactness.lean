/-
How exact a transfer is.

A transfer computes two new balances, each as a rounded sum of decimals, and it looks at no more
than whether there is a sum and whether it is negative. A sum that no decimal holds is therefore not
refused. It is rounded, on one side of the posting or on both, and in different ways.

This module says when that does not happen. An accepted transfer is a posting between two wallets
(`Ledger.Carried`), or it repeats an earlier one and moves nothing (`Ledger.Repeated`). A new
balance is the exact one just if a decimal holds the exact one (`Decimal.add?_toRat_iff`), and
nothing else enters: not the currency's precision, and not what the other wallet holds
(`transfer_exact_iff`).
-/
import WalletLedger.Proofs.Advance
import WalletLedger.Proofs.Rounding

set_option autoImplicit false

namespace WalletLedger

open WalletLedger.Action

/-- **A value that a decimal holds:** 96 bits of coefficient and 28 fractional digits suffice. -/
def IsDecimal (x : ℚ) : Prop := ∃ d : Decimal, d.toRat = x

/-- **A sum is exact just if it can be.** -/
theorem Decimal.add?_toRat_iff {a b c : Decimal} (h : a.add? b = some c) :
    c.toRat = a.toRat + b.toRat ↔ IsDecimal (a.toRat + b.toRat) := by
  refine ⟨fun hc => ⟨c, hc⟩, fun ⟨d, hd⟩ => ?_⟩
  obtain ⟨x, hx, hval⟩ := add?_of_toRat hd.symm
  rw [h] at hx
  cases hx
  exact hval.trans hd

/-! ## 1. Holdings -/

namespace WalletTable

variable {t t' : WalletTable} {access : Access} {mv : Movement} {p : Posting} {id : Int}

/-- A wallet on a side of a posting holds what that side says. -/
theorem Posts.holding_side (h : t.Posts access mv p t') {s : Side} (hs : p.side? id = some s) :
    t.holding id = s.balanceBefore.toRat ∧ t'.holding id = s.balanceAfter.toRat := by
  cases hw : t.wallet? id with
  | none =>
    rw [(h.absent hw).2] at hs
    cases hs
  | some w =>
    obtain ⟨w', hw', haccounts⟩ := h.kept hw
    obtain rfl := wallet?_id hw
    obtain ⟨hbefore, hrest⟩ := haccounts.cons hs
    have hafter : w'.balance = s.balanceAfter := hrest.chained
    rw [holding, holding, hw, hw', hbefore, ← hafter]
    exact ⟨rfl, rfl⟩

/-- Any other wallet holds what it held. -/
theorem Posts.holding_other (h : t.Posts access mv p t') (hs : p.side? id = none) :
    t'.holding id = t.holding id := by
  cases hw : t.wallet? id with
  | none => rw [holding, holding, hw, (h.absent hw).1]
  | some w =>
    obtain ⟨w', hw', haccounts⟩ := h.kept hw
    obtain rfl := wallet?_id hw
    have hafter : w'.balance = w.balance := (haccounts.of_cons_none hs).chained
    rw [holding, holding, hw, hw', Option.map_some, Option.map_some, hafter]

end WalletTable

namespace Ledger

variable {l l₁ l' : Ledger (Faulty Memory)} {t : Terms}

/-- What the wallet with a number holds. -/
def holding (l : Ledger (Faulty Memory)) (id : Int) : ℚ := l.memory.wallets.holding id

/-- **Getting ready moves nothing:** the wallets that are opened are empty. -/
theorem Evolves.holding_of_quiet (h : l.Evolves Effect.Quiet l') (id : Int) :
    l'.holding id = l.holding id := by
  obtain ⟨ps, hps⟩ := h.turns fun _ he => he.isTurn
  have hnil : ps = [] := by
    have hlog := hps.log
    rw [h.log_of_quiet.1] at hlog
    exact List.self_eq_append_right.1 hlog
  subst hnil
  have hsum := hps.holding (fun _ hp => absurd hp List.not_mem_nil) id
  rwa [List.map_nil, List.sum_nil, add_zero] at hsum

/-- **A transfer that was made before:** its receipt is that of a record, and nothing moves. -/
structure Repeated (l : Ledger (Faulty Memory)) (receipt : Receipt)
    (l' : Ledger (Faulty Memory)) : Prop where
  recorded : ∃ p ∈ l.memory.wallets.log, receipt = p.receipt
  log : l'.memory.wallets.log = l.memory.wallets.log
  holdings : ∀ id, l'.holding id = l.holding id

/-- **A transfer that is carried out:** one posting of the amount that was asked for is recorded,
and what other wallets hold does not change. -/
structure Carried (l : Ledger (Faulty Memory)) (r : TransferRequest) (p : Posting)
    (receipt : Receipt) (l' : Ledger (Faulty Memory)) : Prop where
  receipt : receipt = p.receipt
  log : l'.memory.wallets.log = l.memory.wallets.log ++ [p]
  taken : p.source.amount = ⟨r.symbol, r.amount⟩
  given : p.dest.amount = ⟨r.symbol, r.amount⟩
  apart : p.source.walletId ≠ p.dest.walletId
  /-- Where the tables are in order, the two wallets are those of the sender and the receiver. -/
  accounts : l.memory.Sound → p.Moves l'.memory (r.senderUuid, r.senderKind)
    (r.receiverUuid, r.receiverKind) ⟨r.symbol, r.amount⟩ r.ref
  others : ∀ id, id ≠ p.source.walletId → id ≠ p.dest.walletId → l'.holding id = l.holding id
  afforded : r.amount.toRat ≤ l.holding p.source.walletId
  /-- Sums from here on are refused. -/
  inRange : l.holding p.dest.walletId + r.amount.toRat < 2 ^ 96 - 1 / 2

theorem Delivered.amounts {r : TransferRequest} {p : Posting} (h : l.Delivered r p l') :
    p.source.amount = ⟨r.symbol, r.amount⟩ ∧ p.dest.amount = ⟨r.symbol, r.amount⟩ := by
  obtain ⟨l₁, mv, hprepared, hposted⟩ := h
  obtain ⟨table, hposts, -⟩ := hposted.made
  obtain ⟨hsource, hdest⟩ := hposts.amounts
  exact ⟨hsource.trans hprepared.sourceAmount,
    hdest.trans (hprepared.served.even.trans hprepared.sourceAmount)⟩

/-- **The two balances of a delivery** are rounded sums of what was there and the amount. -/
theorem Delivered.sums {r : TransferRequest} {p : Posting} (h : l.Delivered r p l') :
    (∃ x y : Decimal, l.holding p.source.walletId = x.toRat ∧
      l'.holding p.source.walletId = y.toRat ∧ x.add? r.amount.neg = some y) ∧
    (∃ x y : Decimal, l.holding p.dest.walletId = x.toRat ∧
      l'.holding p.dest.walletId = y.toRat ∧ x.add? r.amount = some y) := by
  have hamounts := h.amounts
  obtain ⟨l₁, mv, hprepared, hposted⟩ := h
  obtain ⟨table, hposts, hm⟩ := hposted.made
  have hquiet := hprepared.moved.holding_of_quiet
  have hafter : ∀ id, l'.holding id = table.holding id := fun id => by rw [holding, hm]; rfl
  have haddsUp := hposts.addsUp
  have hsource := hposts.holding_side (Posting.side?_source rfl)
  have hdest := hposts.holding_side (Posting.side?_dest haddsUp.apart rfl)
  have hdebit := haddsUp.debit
  have hcredit := haddsUp.credit
  rw [hamounts.1] at hdebit
  rw [hamounts.2] at hcredit
  exact ⟨⟨_, _, (hquiet _).symm.trans hsource.1, (hafter _).trans hsource.2, hdebit⟩,
    ⟨_, _, (hquiet _).symm.trans hdest.1, (hafter _).trans hdest.2, hcredit⟩⟩

theorem Delivered.carried {r : TransferRequest} {p : Posting} (h : l.Delivered r p l') :
    l.Carried r p p.receipt l' := by
  obtain ⟨-, x, y, hx, -, hcredit⟩ := h.sums
  have hlog := h.log
  have hmoves := h.moves
  have hamounts := h.amounts
  obtain ⟨l₁, mv, hprepared, hposted⟩ := h
  obtain ⟨table, hposts, hm⟩ := hposted.made
  have hquiet := hprepared.moved.holding_of_quiet
  have haddsUp := hposts.addsUp
  refine ⟨rfl, hlog, hamounts.1, hamounts.2, haddsUp.apart, hmoves, fun id hs hd => ?_, ?_, ?_⟩
  · rw [← hquiet, holding, hm]
    exact hposts.holding_other (Posting.side?_eq_none (Ne.symm hs) (Ne.symm hd))
  · have hafforded := haddsUp.afforded
    rw [hamounts.1, ← (hposts.holding_side (Posting.side?_source rfl)).1] at hafforded
    exact hafforded.trans_eq (hquiet _)
  · rw [hx]
    exact (le_abs_self _).trans_lt (Decimal.exists_add?_iff.1 ⟨y, hcredit⟩)

/-- **When a transfer is exact.** Whatever the stores hold and however they fail: a transfer with a
receipt repeats an earlier one and moves nothing, or it is carried out. Then the sender's wallet has
just the amount less if a decimal holds that difference, and only then; and the receiver's wallet
has just the amount more if a decimal holds that sum, and only then. -/
theorem transfer_exact_iff (r : TransferRequest) :
    (transfer t r).Ends
      (fun receipt l' => l.Repeated receipt l' ∨ ∃ p, l.Carried r p receipt l' ∧
        (l'.holding p.source.walletId = l.holding p.source.walletId - r.amount.toRat ↔
          IsDecimal (l.holding p.source.walletId - r.amount.toRat)) ∧
        (l'.holding p.dest.walletId = l.holding p.dest.walletId + r.amount.toRat ↔
          IsDecimal (l.holding p.dest.walletId + r.amount.toRat)))
      (fun _ _ => True) l := by
  refine ends_transfer_prepared r (fun _ _ _ => trivial) fun mv l₁ hprepared => ?_
  refine Ends.mono ends_post (fun receipt l₂ hreceives => ?_) fun _ _ _ => trivial
  cases hreceives with
  | replayed p _ earlier _ waits =>
    have hquiet := hprepared.moved.trans waits.quiet
    refine .inl ⟨⟨p, ?_, rfl⟩, hquiet.log_of_quiet.1, hquiet.holding_of_quiet⟩
    obtain ⟨ref, -, hfound⟩ := Option.bind_eq_some_iff.1 earlier
    obtain ⟨place, -, hp⟩ := Option.bind_eq_some_iff.1 hfound
    exact hprepared.moved.log_of_quiet.1 ▸ List.mem_of_getElem? hp
  | made p l₃ _ waits posted =>
    have hdelivered : l.Delivered r p l₂ := ⟨l₃, mv, hprepared.trans waits.quiet, posted⟩
    obtain ⟨⟨x, y, hx, hy, hdebit⟩, ⟨v, w, hv, hw, hcredit⟩⟩ := hdelivered.sums
    refine .inr ⟨p, hdelivered.carried, ?_, ?_⟩
    · rw [hx, hy, sub_eq_add_neg, ← Decimal.toRat_neg]
      exact Decimal.add?_toRat_iff hdebit
    · rw [hv, hw]
      exact Decimal.add?_toRat_iff hcredit

end Ledger

namespace Small

/-- The largest decimal. -/
def largest : Decimal := units 79228162514264337593543950335

def tenth : Decimal := (Decimal.fit? 1 1).getD .zero

/-- An owner who has as much gold as a wallet can hold. -/
def hoarding : List Operation :=
  [.createOwner "eve" "Eve" "1", .createWallet "eve" ⟨"GOLD", largest⟩ .main]

/-- A transfer of a tenth of a unit. -/
def alms : TransferRequest := { transfer "eve" "ann" 0 none with amount := tenth }

end Small

namespace Ledger

open WalletLedger.Small

/-- A tenth less than the largest decimal has a digit too many. -/
theorem not_isDecimal_largest_sub : ¬IsDecimal (largest.toRat - tenth.toRat) := by
  rintro ⟨d, hd⟩
  have hlargest : largest.toRat = 2 ^ 96 - 1 := by
    have hcoeff : largest.coeff = 2 ^ 96 - 1 := by decide
    have hscale : largest.scale = 0 := by decide
    rw [Decimal.toRat_eq, hcoeff, hscale]
    norm_num
  have htenth : tenth.toRat = 1 / 10 := by
    have hcoeff : tenth.coeff = 1 := by decide
    have hscale : tenth.scale = 1 := by decide
    rw [Decimal.toRat_eq, hcoeff, hscale]
    norm_num
  rw [hlargest, htenth] at hd
  rcases Nat.eq_zero_or_pos d.scale with hzero | hpos
  · rw [Decimal.toRat_eq, hzero, pow_zero, div_one, eq_sub_iff_add_eq] at hd
    have hint : 10 * d.coeff + 1 = 10 * (2 ^ 96 - 1) := by
      have hq : 10 * (d.coeff : ℚ) + 1 = 10 * (2 ^ 96 - 1) := by linarith
      exact_mod_cast hq
    omega
  · have hle := Decimal.toRat_le_of_scale_le hpos
    rw [hd] at hle
    norm_num at hle

/-- **A tenth of gold comes from nowhere:** no decimal holds what is left of the giver's gold, but
the transfer is accepted, the giver's balance is rounded to what it was, and the receiver has a
tenth more. -/
theorem transfer_rounded :
    ¬IsDecimal ((Operation.runAll terms ledger hoarding).holding 4 - alms.amount.toRat) ∧
    (((Ledger.transfer terms alms).runIn (Operation.runAll terms ledger hoarding)).1.map
      (·.sourceBalanceAfter)) = .ok largest ∧
    (Operation.runAll terms ledger hoarding).holding 4 = largest.toRat ∧
    (((Ledger.transfer terms alms).runIn (Operation.runAll terms ledger hoarding)).2).holding 4 =
      largest.toRat ∧
    (Operation.runAll terms ledger hoarding).holding 3 = 50 ∧
    (((Ledger.transfer terms alms).runIn (Operation.runAll terms ledger hoarding)).2).holding 3 =
      50 + tenth.toRat := by
  have hbefore : (Operation.runAll terms ledger hoarding).holding 4 = largest.toRat := by
    decide +kernel
  refine ⟨?_, by decide +kernel, hbefore, by decide +kernel, by decide +kernel, by decide +kernel⟩
  rw [hbefore]
  exact not_isDecimal_largest_sub

end Ledger

end WalletLedger
