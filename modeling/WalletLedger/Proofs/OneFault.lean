/-
One call that fails.

One fault is armed; it waits for a call of its name (`Awaits`), lets some of them pass and then
strikes one, which is not made, and after that it is spent (`Struck`). What matters for undoing is
whether it was a late call that failed. As long as none was (`OnTime`), every call is answered as
the memory answers it, or it is struck and nothing can fail from then on (`OnTime.ends_ask`). Early
calls leave a ledger on time, so a service that is still at its early calls has not been struck by a
fault that waits for a late one.

Once the fault is spent, what would succeed in a ledger without faults succeeds here
(`Succeeds.ends_struck`). This is how a service that undoes what it did is known to get through.
-/
import WalletLedger.Proofs.Sure

set_option autoImplicit false

namespace WalletLedger

open WalletLedger.Action

/-- A fault that is to strike once lets a call pass, or it strikes and is spent. -/
theorem Fault.consult_once (name method : String) (skip : Nat) :
    (∃ later, consult name [⟨method, .before, skip, 1⟩] =
        (none, [⟨method, .before, later, 1⟩])) ∨
      name = method ∧ consult name [⟨method, .before, skip, 1⟩] =
        (some .before, [⟨method, .before, 0, 0⟩]) := by
  unfold consult
  by_cases hname : method = name
  · subst hname
    cases skip with
    | zero => exact .inr ⟨rfl, by simp⟩
    | succ skip => exact .inl ⟨skip, by simp⟩
  · exact .inl ⟨skip, by simp [hname, consult]⟩

namespace Ledger

variable {l l' : Ledger (Faulty Memory)} {method : String} {α : Type}

/-! ## 1. Before and after the failure -/

/-- **One call is going to fail:** it will not be made. Calls of its name may pass before. -/
def Awaits (l : Ledger (Faulty Memory)) (method : String) : Prop :=
  ∃ skip, l.stores.armed = [⟨method, .before, skip, 1⟩]

/-- **The call has failed.** -/
def Struck (l : Ledger (Faulty Memory)) (method : String) : Prop :=
  l.stores.armed = [⟨method, .before, 0, 0⟩]

instance : Decidable (l.Struck method) := inferInstanceAs (Decidable (_ = _))

/-- **No late call has failed.** -/
def OnTime (l : Ledger (Faulty Memory)) (method : String) : Prop :=
  l.Awaits method ∨ l.Struck method ∧ lateCalls.contains method = false

theorem Awaits.not_struck (h : l.Awaits method) : ¬l.Struck method := by
  obtain ⟨skip, hskip⟩ := h
  rw [Struck, hskip]
  simp

theorem OnTime.not_late (h : l.OnTime method) (hstruck : l.Struck method) :
    lateCalls.contains method = false :=
  h.elim (fun hawaits => absurd hstruck hawaits.not_struck) (·.2)

/-- The fault makes no call that it reports as failed, and it hides nothing. -/
theorem OnTime.mode (h : l.OnTime method) {mode : FaultMode} (hmode : l.CanFail mode) :
    mode = .before := by
  obtain ⟨fault, hfault, rfl⟩ := hmode
  obtain ⟨skip, hskip⟩ | ⟨hstruck, -⟩ := h
  · rw [hskip, List.mem_singleton] at hfault
    rw [hfault]
  · rw [hstruck, List.mem_singleton] at hfault
    rw [hfault]

theorem OnTime.harmless (h : l.OnTime method) : l.Harmless := fun hafter => nomatch h.mode hafter

theorem Struck.spent (h : l.Struck method) : Spent l.stores.armed := by
  rw [h]
  intro name
  simp [Fault.consult]

/-! ## 2. Calls -/

variable {c : Call α} {Q : α → Ledger (Faulty Memory) → Prop}
  {E : Stop → Ledger (Faulty Memory) → Prop}

/-- A call that passes is answered as the memory answers it. -/
theorem ends_ask_of_passed {armed : List Fault}
    (h : Fault.consult c.name l.stores.armed = (none, armed))
    (answered : ∀ a m, l.memory.answer c = .ok (a, m) → Q a { l with stores := ⟨m, armed⟩ })
    (refused : ∀ cause, l.memory.answer c = .error cause → E (.refused cause) (l.rearmed armed)) :
    (ask c).Ends Q E l := by
  unfold Ends
  rw [runIn_ask_of_passed c h]
  cases ha : l.memory.answer c with
  | ok x => exact answered x.1 x.2 ha
  | error cause => exact refused cause ha

/-- Where the fault is spent, the memory answers. -/
theorem Struck.ends_ask (h : l.Struck method)
    (answered : ∀ a l', l'.Struck method → l.memory.answer c = .ok (a, l'.memory) → Q a l')
    (refused : ∀ cause l', l'.Struck method → l'.memory = l.memory →
      l.memory.answer c = .error cause → E (.refused cause) l') : (ask c).Ends Q E l :=
  ends_ask_of_passed (h.spent c.name) (fun a _ ha => answered a _ h ha)
    fun cause ha => refused cause _ h rfl ha

/-- **A call in time:** it is answered as the memory answers it, or it is the one that fails. -/
theorem OnTime.ends_ask (h : l.OnTime method)
    (answered : ∀ a l', l'.OnTime method → l.memory.answer c = .ok (a, l'.memory) → Q a l')
    (refused : ∀ cause l', l'.OnTime method → l'.memory = l.memory →
      l.memory.answer c = .error cause → E (.refused cause) l')
    (struck : ∀ cause l', c.name = method → l'.Struck method → l'.memory = l.memory →
      E (.refused cause) l') : (ask c).Ends Q E l := by
  obtain ⟨skip, hskip⟩ | hspent := h
  · obtain ⟨later, hpassed⟩ | ⟨hname, hstrikes⟩ := Fault.consult_once c.name method skip
    · exact ends_ask_of_passed (hskip ▸ hpassed)
        (fun a _ ha => answered a _ (.inl ⟨later, rfl⟩) ha)
        fun cause ha => refused cause _ (.inl ⟨later, rfl⟩) rfl ha
    · unfold Ends
      rw [runIn_ask_of_prevented c (hskip ▸ hstrikes)]
      exact struck _ _ hname rfl rfl
  · exact hspent.1.ends_ask (fun a l' hl' ha => answered a l' (.inr ⟨hl', hspent.2⟩) ha)
      fun cause l' hl' hm ha => refused cause l' (.inr ⟨hl', hspent.2⟩) hm ha

/-- Telling the time calls nobody. -/
theorem OnTime.ends_now {Q : Instant → Ledger (Faulty Memory) → Prop} (h : l.OnTime method)
    (told : ∀ v l', l'.OnTime method → l'.memory = l.memory → Q v l') : now.Ends Q E l :=
  told _ _ h rfl

/-! ## 3. Actions -/

section

variable {a : Action (Ledger (Faulty Memory)) α}

/-- **Early calls leave a ledger on time.** -/
theorem Early.onTime (ha : Early True a) (h : l.OnTime method) :
    a.Ends (fun _ l' => l'.OnTime method) (fun _ l' => l'.OnTime method) l := by
  refine ha.keeps (I := fun armed => (∃ skip, armed = [⟨method, .before, skip, 1⟩]) ∨
    armed = [⟨method, .before, 0, 0⟩] ∧ lateCalls.contains method = false) ?_ h
  rintro name armed hearly (⟨skip, rfl⟩ | ⟨rfl, hmethod⟩)
  · obtain ⟨later, hpassed⟩ | ⟨rfl, hstrikes⟩ := Fault.consult_once name method skip
    · rw [hpassed]
      exact .inl ⟨later, rfl⟩
    · rw [hstrikes]
      exact .inr ⟨rfl, hearly⟩
  · refine .inr ⟨?_, hmethod⟩
    simp [Fault.consult]

/-- The same beside whatever else is known of the action. -/
theorem OnTime.and (h : l.OnTime method) (ha : Early True a) (hends : a.Ends Q E l) :
    a.Ends (fun v l' => Q v l' ∧ l'.OnTime method)
      (fun stop l' => E stop l' ∧ l'.OnTime method) l :=
  hends.and (ha.onTime h)

/-- **What succeeds without faults succeeds once the fault is spent.** -/
theorem Succeeds.ends_struck {Q : α → Memory → Prop} (hsucceeds : Succeeds a Q l.memory)
    (ha : Early True a) (h : l.Struck method) :
    a.Ends (fun v l' => Q v l'.memory) (fun _ _ => False) l := by
  have hends := hsucceeds.ends (l := l.rearmed []) (sure_of_unarmed rfl)
  have hrun := ha.runIn_rearmed h.spent (l.rearmed []) rfl
  rw [show (l.rearmed []).rearmed l.stores.armed = l from rfl] at hrun
  unfold Ends at hends ⊢
  rw [hrun]
  generalize a.runIn (l.rearmed []) = r at hends
  obtain ⟨result, l'⟩ := r
  cases result with
  | ok v => exact hends
  | error stop => exact hends

end

end Ledger

end WalletLedger
