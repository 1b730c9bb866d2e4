/-
How an action ends.

`Ends a Q E s` says what one run of `a` from `s` leaves behind: `Q` holds of the value and the
state if there is a value, `E` of the stop and the state if there is none. What was written before a
stop stays written, so a statement about an action that says nothing of its stops says little;
that is why `E` is always there. Each way of building an action has its rule below, and a proof
about a service applies one rule for each line of it.

`Within R a Q s` is the form in which services are summed up. It says that the run moves along `R`
however it ends, and that `Q` holds if there is a value. `R` is a preorder, so the moves of the
parts compose, and a fact that was learned early is carried to a later state along the moves
between.
-/
import WalletLedger.Action
import Mathlib.Order.Defs.Unbundled

set_option autoImplicit false

namespace WalletLedger.Action

variable {σ τ α β : Type}

/-! ## Endings -/

/-- One run of the action from `s` ends in `Q` if it has a value and in `E` if it stops. -/
def Ends (a : Action σ α) (Q : α → σ → Prop) (E : Stop → σ → Prop) (s : σ) : Prop :=
  match a.runIn s with
  | (.ok v, s') => Q v s'
  | (.error stop, s') => E stop s'

section Rules

variable {a : Action σ α} {Q Q' : α → σ → Prop} {E E' : Stop → σ → Prop} {s : σ}

theorem Ends.of_ok {v : α} (h : a.Ends Q E s) (hr : (a.runIn s).1 = .ok v) :
    Q v (a.runIn s).2 := by
  unfold Ends at h
  split at h
  · rename_i w s' hw
    rw [hw] at hr ⊢
    cases hr
    exact h
  · rename_i stop s' hw
    rw [hw] at hr
    cases hr

theorem Ends.of_error {stop : Stop} (h : a.Ends Q E s) (hr : (a.runIn s).1 = .error stop) :
    E stop (a.runIn s).2 := by
  unfold Ends at h
  split at h
  · rename_i w s' hw
    rw [hw] at hr
    cases hr
  · rename_i stop' s' hw
    rw [hw] at hr ⊢
    cases hr
    exact h

/-- The run itself is one of the two endings. -/
theorem ends_iff : a.Ends Q E s ↔
    (∀ v, (a.runIn s).1 = .ok v → Q v (a.runIn s).2) ∧
      ∀ stop, (a.runIn s).1 = .error stop → E stop (a.runIn s).2 := by
  constructor
  · intro h
    exact ⟨fun v hv => h.of_ok hv, fun stop hs => h.of_error hs⟩
  · rintro ⟨hok, herr⟩
    unfold Ends
    split
    · rename_i v s' hv
      rw [hv] at hok
      exact hok v rfl
    · rename_i stop s' hs
      rw [hs] at herr
      exact herr stop rfl

theorem Ends.mono (h : a.Ends Q E s) (hQ : ∀ v s', Q v s' → Q' v s')
    (hE : ∀ stop s', E stop s' → E' stop s') : a.Ends Q' E' s := by
  rw [ends_iff] at h ⊢
  exact ⟨fun v hv => hQ _ _ (h.1 v hv), fun stop hs => hE _ _ (h.2 stop hs)⟩

/-- Two accounts of one run are one. -/
theorem Ends.and (h : a.Ends Q E s) (h' : a.Ends Q' E' s) :
    a.Ends (fun v s' => Q v s' ∧ Q' v s') (fun stop s' => E stop s' ∧ E' stop s') s := by
  rw [ends_iff] at h h' ⊢
  exact ⟨fun v hv => ⟨h.1 v hv, h'.1 v hv⟩, fun stop hs => ⟨h.2 stop hs, h'.2 stop hs⟩⟩

/-- The same where one thing is said of all endings. -/
theorem Ends.imp {I J : σ → Prop} (h : a.Ends (fun _ => I) (fun _ => I) s)
    (hIJ : ∀ s', I s' → J s') : a.Ends (fun _ => J) (fun _ => J) s :=
  h.mono (fun _ s' => hIJ s') fun _ s' => hIJ s'

theorem ends_pure (v : α) : (pure v : Action σ α).Ends Q E s ↔ Q v s := Iff.rfl

theorem ends_refuse (cause : Error) :
    (refuse cause : Action σ α).Ends Q E s ↔ E (.refused cause) s := Iff.rfl

theorem ends_abort : (abort : Action σ α).Ends Q E s ↔ E .aborted s := Iff.rfl

theorem ends_ofFun (f : σ → Except Stop α × σ) :
    (ofFun f).Ends Q E s ↔
      match f s with
      | (.ok v, s') => Q v s'
      | (.error stop, s') => E stop s' := Iff.rfl

theorem ends_bind (f : α → Action σ β) {Q : β → σ → Prop} :
    (a >>= f).Ends Q E s ↔ a.Ends (fun v s' => (f v).Ends Q E s') E s := by
  unfold Ends
  rw [runIn_bind]
  generalize a.runIn s = r
  obtain ⟨result, s'⟩ := r
  cases result <;> rfl

theorem ends_map (f : α → β) {Q : β → σ → Prop} :
    (f <$> a).Ends Q E s ↔ a.Ends (fun v s' => Q (f v) s') E s := by
  rw [map_eq_pure_bind, ends_bind]
  rfl

theorem ends_ofExcept (r : Except Error α) :
    (ofExcept r : Action σ α).Ends Q E s ↔
      (∀ v, r = .ok v → Q v s) ∧ ∀ cause, r = .error cause → E (.refused cause) s := by
  cases r with
  | ok v => simp [ofExcept, ends_pure]
  | error cause => simp [ofExcept, ends_refuse]

theorem ends_orRefuse (cause : Error) (o : Option α) :
    (orRefuse cause o : Action σ α).Ends Q E s ↔
      (∀ v, o = some v → Q v s) ∧ (o = none → E (.refused cause) s) := by
  cases o with
  | none => simp [orRefuse, ends_refuse]
  | some v => simp [orRefuse, ends_pure]

theorem ends_orAbort (o : Option α) :
    (orAbort o : Action σ α).Ends Q E s ↔
      (∀ v, o = some v → Q v s) ∧ (o = none → E .aborted s) := by
  cases o with
  | none => simp [orAbort, ends_abort]
  | some v => simp [orAbort, ends_pure]

theorem ends_require (cause : Error) (b : Bool) {Q : Unit → σ → Prop} :
    (require cause b : Action σ Unit).Ends Q E s ↔
      (b = true → Q () s) ∧ (b = false → E (.refused cause) s) := by
  cases b with
  | false => simp [require, ends_refuse]
  | true => simp [require, ends_pure]

/-- A refusal that is looked at becomes a value; an abort passes by. -/
theorem ends_attempt {Q : Except Error α → σ → Prop} :
    a.attempt.Ends Q E s ↔
      a.Ends (fun v s' => Q (.ok v) s')
        (fun stop s' =>
          (∀ cause, stop = .refused cause → Q (.error cause) s') ∧
            (stop = .aborted → E .aborted s')) s := by
  unfold attempt
  rw [ends_ofFun]
  unfold Ends
  generalize a.runIn s = r
  obtain ⟨result, s'⟩ := r
  cases result with
  | ok v => simp
  | error stop => cases stop <;> simp

theorem ends_zoom {part : τ → σ} {put : σ → τ → τ} {t : τ} {Q : α → τ → Prop}
    {E : Stop → τ → Prop} :
    (a.zoom part put).Ends Q E t ↔
      a.Ends (fun v s' => Q v (put s' t)) (fun stop s' => E stop (put s' t)) (part t) := by
  unfold Ends
  rw [runIn_zoom]
  generalize a.runIn (part t) = r
  obtain ⟨result, s'⟩ := r
  cases result <;> rfl

end Rules

/-! ## Moving along a preorder -/

/-- The run moves along `R`, and ends in `Q` if it has a value. -/
def Within (R : σ → σ → Prop) (a : Action σ α) (Q : α → σ → Prop) (s : σ) : Prop :=
  a.Ends (fun v s' => R s s' ∧ Q v s') (fun _ s' => R s s') s

section Moves

variable {R : σ → σ → Prop} {a : Action σ α} {Q Q' : α → σ → Prop} {s : σ}

theorem Within.moves (h : Within R a Q s) : R s (a.runIn s).2 := by
  cases hr : (a.runIn s).1 with
  | ok v => exact (h.of_ok hr).1
  | error stop => exact h.of_error hr

theorem Within.mono (h : Within R a Q s) (hQ : ∀ v s', R s s' → Q v s' → Q' v s') :
    Within R a Q' s :=
  Ends.mono h (fun v s' hv => ⟨hv.1, hQ v s' hv.1 hv.2⟩) fun _ _ => id

/-- The relation may be widened as well. -/
theorem Within.weaken {R' : σ → σ → Prop} (h : Within R a Q s)
    (hR : ∀ s', R s s' → R' s s') : Within R' a Q s :=
  Ends.mono h (fun _ s' hv => ⟨hR s' hv.1, hv.2⟩) fun _ s' => hR s'

theorem Within.map {f : α → β} {Q' : β → σ → Prop} (h : Within R a Q s)
    (hf : ∀ v s', R s s' → Q v s' → Q' (f v) s') : Within R (f <$> a) Q' s :=
  (ends_map f).2 (Ends.mono h (fun v s' hv => ⟨hv.1, hf v s' hv.1 hv.2⟩) fun _ _ => id)

/-- The rule for an attempt: if it was refused, only the moves are known. -/
theorem Within.attempt (h : Within R a Q s) :
    Within R a.attempt (fun r s' => ∀ v, r = .ok v → Q v s') s := by
  refine ends_attempt.2 (Ends.mono h (fun v s' hv => ?_) fun stop s' hR => ?_)
  · exact ⟨hv.1, fun w hw => by cases hw; exact hv.2⟩
  · exact ⟨fun cause _ => ⟨hR, fun w hw => nomatch hw⟩, fun _ => hR⟩

/-- **The rule for sequences.** What follows starts where the first part ended, and is told how that
state came about. -/
theorem Within.bind [IsTrans σ R] {f : α → Action σ β} {Q' : β → σ → Prop} (h : Within R a Q s)
    (hf : ∀ v s', R s s' → Q v s' → Within R (f v) Q' s') : Within R (a >>= f) Q' s := by
  refine (ends_bind f).2 (Ends.mono h (fun v s' hv => ?_) fun _ _ => id)
  exact Ends.mono (hf v s' hv.1 hv.2) (fun _ s'' hw => ⟨trans_of R hv.1 hw.1, hw.2⟩)
    fun _ s'' hw => trans_of R hv.1 hw

/-- The same rule where more is to be told of the ending: the moves of the first part lead to where
the second starts, or to where the whole stops. -/
theorem Within.and_then {f : α → Action σ β} {Q' : β → σ → Prop} {E : Stop → σ → Prop}
    (h : Within R a Q s) (hf : ∀ v s', R s s' → Q v s' → (f v).Ends Q' E s')
    (hE : ∀ stop s', R s s' → E stop s') : (a >>= f).Ends Q' E s :=
  (ends_bind f).2 (Ends.mono h (fun v s' hv => hf v s' hv.1 hv.2) hE)

variable [Std.Refl R]

theorem within_pure {v : α} (h : Q v s) : Within R (pure v) Q s := ⟨refl_of R s, h⟩

theorem within_refuse (cause : Error) : Within R (refuse cause : Action σ α) Q s := refl_of R s

theorem within_ofExcept {r : Except Error α} (h : ∀ v, r = .ok v → Q v s) :
    Within R (ofExcept r) Q s :=
  (ends_ofExcept r).2 ⟨fun v hv => ⟨refl_of R s, h v hv⟩, fun _ _ => refl_of R s⟩

theorem within_orRefuse {cause : Error} {o : Option α} (h : ∀ v, o = some v → Q v s) :
    Within R (orRefuse cause o) Q s :=
  (ends_orRefuse cause o).2 ⟨fun v hv => ⟨refl_of R s, h v hv⟩, fun _ => refl_of R s⟩

theorem within_orAbort {o : Option α} (h : ∀ v, o = some v → Q v s) :
    Within R (orAbort o) Q s :=
  (ends_orAbort o).2 ⟨fun v hv => ⟨refl_of R s, h v hv⟩, fun _ => refl_of R s⟩

theorem within_require {cause : Error} {b : Bool} {Q : Unit → σ → Prop}
    (h : b = true → Q () s) : Within R (require cause b) Q s :=
  (ends_require cause b).2 ⟨fun hb => ⟨refl_of R s, h hb⟩, fun _ => refl_of R s⟩

end Moves

/-! ## Leaving the state alone -/

section Answers

variable {a : Action σ α} {v : α} {s : σ}

/-- **The action has a value and leaves the state as it is,** all of it. -/
def Answers (a : Action σ α) (v : α) (s : σ) : Prop := a.runIn s = (.ok v, s)

theorem answers_pure (v : α) : (pure v : Action σ α).Answers v s := rfl

theorem Answers.bind {f : α → Action σ β} {w : β} (ha : a.Answers v s)
    (hf : (f v).Answers w s) : (a >>= f).Answers w s := by
  rw [Answers, runIn_bind, ha]
  exact hf

/-- What follows starts where it started. -/
theorem Answers.ends_bind {f : α → Action σ β} {Q : β → σ → Prop} {E : Stop → σ → Prop}
    (ha : a.Answers v s) : (a >>= f).Ends Q E s ↔ (f v).Ends Q E s := by
  rw [Action.ends_bind, Ends, ha]

theorem answers_ofExcept {r : Except Error α} (h : r = .ok v) :
    (ofExcept r : Action σ α).Answers v s := by
  rw [h]
  exact answers_pure v

theorem answers_orRefuse {cause : Error} {o : Option α} (h : o = some v) :
    (orRefuse cause o : Action σ α).Answers v s := by
  rw [h]
  exact answers_pure v

theorem answers_require {cause : Error} {b : Bool} (h : b = true) :
    (require cause b : Action σ Unit).Answers () s := by
  rw [h]
  exact answers_pure ()

end Answers

/-! ## Runs that have a value -/

section Values

variable {a : Action σ α} {s s' : σ}

/-- A sequence has a value just if its parts have one after the other. -/
theorem runIn_bind_eq_ok {f : α → Action σ β} {w : β} :
    (a >>= f).runIn s = (.ok w, s') ↔
      ∃ v s₁, a.runIn s = (.ok v, s₁) ∧ (f v).runIn s₁ = (.ok w, s') := by
  rw [runIn_bind]
  generalize a.runIn s = r
  obtain ⟨result, s₁⟩ := r
  cases result with
  | ok v =>
    refine ⟨fun h => ⟨v, s₁, rfl, h⟩, ?_⟩
    rintro ⟨_, _, ⟨⟩, h⟩
    exact h
  | error stop => simp

/-- What is known of one run that has a value. -/
theorem Ends.of_runIn {Q : α → σ → Prop} {E : Stop → σ → Prop} {v : α} (h : a.Ends Q E s)
    (hr : a.runIn s = (.ok v, s')) : Q v s' := by
  rw [Ends, hr] at h
  exact h

theorem runIn_ofExcept_eq_ok {r : Except Error α} {v : α} :
    (ofExcept r : Action σ α).runIn s = (.ok v, s') ↔ r = .ok v ∧ s' = s := by
  cases r with
  | ok w => simp [ofExcept, runIn_pure, eq_comm]
  | error cause => simp [ofExcept, runIn_refuse]

theorem runIn_orRefuse_eq_ok {cause : Error} {o : Option α} {v : α} :
    (orRefuse cause o : Action σ α).runIn s = (.ok v, s') ↔ o = some v ∧ s' = s := by
  cases o with
  | some w => simp [orRefuse, runIn_pure, eq_comm]
  | none => simp [orRefuse, runIn_refuse]

theorem runIn_require_eq_ok {cause : Error} {b : Bool} {u : Unit} :
    (require cause b : Action σ Unit).runIn s = (.ok u, s') ↔ b = true ∧ s' = s := by
  cases b with
  | true => simp [require, runIn_pure, eq_comm]
  | false => simp [require, runIn_refuse]

/-- Where it is known which runs stop, it is known which have a value. -/
theorem Ends.ok_iff {C : Prop} (h : a.Ends (fun _ _ => C) (fun _ _ => ¬C) s) :
    (∃ v, (a.runIn s).1 = .ok v) ↔ C := by
  cases hr : (a.runIn s).1 with
  | ok v => exact iff_of_true ⟨v, rfl⟩ (h.of_ok hr)
  | error stop => exact iff_of_false nofun (h.of_error hr)

theorem runIn_attempt_eq_ok {v : α} :
    a.attempt.runIn s = (.ok (.ok v), s') ↔ a.runIn s = (.ok v, s') := by
  rw [attempt, runIn_ofFun]
  generalize a.runIn s = r
  obtain ⟨result, s₁⟩ := r
  cases result with
  | ok w => simp
  | error stop => cases stop <;> simp

end Values

end WalletLedger.Action
