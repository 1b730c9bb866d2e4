/-
What a run says to a database.

All that a client sends stands in its database, together with the answers. `Action.Says` is about
the part of it that one run adds: whatever the database answers, what the run adds and how it ends
go together as `Q` says. There is one rule for each way of building an action, as for
`Action.Ends`, and nothing is assumed of the replies, so a statement about a run holds for every
script of them.

A transaction has seven courses, and `Database.Transacts` lists them. Everything that is said about
transactions elsewhere is read off this list.
-/
import WalletLedger.Database.Stores
import WalletLedger.Ledger.Basic
import WalletLedger.Proofs.Action

set_option autoImplicit false

namespace WalletLedger

open WalletLedger.Action

/-! ## 1. Talks -/

/-- What was exchanged, oldest first. -/
def Database.transcript (d : Database) : List Exchange := d.exchanges.reverse

namespace Exchange

/-- Whether a step of a transaction was taken, with or without success. -/
def isStep (v : Verb) : Exchange → Bool
  | .statement _ _ => false
  | .step w _ => w == v

end Exchange

namespace Action

variable {σ τ α β : Type} {view : σ → List Exchange}

/-- **What a run says:** it adds a talk to what was exchanged before, and `Q` holds of the talk and
of the result. -/
def Says (view : σ → List Exchange) (a : Action σ α)
    (Q : List Exchange → Except Stop α → Prop) : Prop :=
  ∀ s, ∃ talk, view (a.runIn s).2 = view s ++ talk ∧ Q talk (a.runIn s).1

section Rules

variable {a : Action σ α} {Q Q' : List Exchange → Except Stop α → Prop}

theorem Says.mono (h : Says view a Q) (hQ : ∀ talk r, Q talk r → Q' talk r) : Says view a Q' := by
  intro s
  obtain ⟨talk, hview, hsaid⟩ := h s
  exact ⟨talk, hview, hQ talk _ hsaid⟩

/-- A run that says nothing. -/
theorem says_nothing (h : ∀ s, view (a.runIn s).2 = view s ∧ Q [] (a.runIn s).1) :
    Says view a Q := fun s => ⟨[], (h s).1.trans (List.append_nil _).symm, (h s).2⟩

theorem says_pure {v : α} (h : Q [] (.ok v)) : Says view (pure v) Q :=
  says_nothing fun _ => ⟨rfl, h⟩

theorem says_refuse {cause : Error} (h : Q [] (.error (.refused cause))) :
    Says view (refuse cause) Q :=
  says_nothing fun _ => ⟨rfl, h⟩

theorem says_ofExcept (r : Except Error α) :
    Says view (ofExcept r) fun talk result => talk = [] ∧ ∀ v, result = .ok v → r = .ok v := by
  cases r with
  | ok v => exact says_pure ⟨rfl, fun w hw => by cases hw; rfl⟩
  | error cause => exact says_refuse ⟨rfl, nofun⟩

theorem says_orRefuse (cause : Error) (o : Option α) :
    Says view (orRefuse cause o) fun talk result =>
      talk = [] ∧ ∀ v, result = .ok v → o = some v := by
  cases o with
  | some v => exact says_pure ⟨rfl, fun w hw => by cases hw; rfl⟩
  | none => exact says_refuse ⟨rfl, nofun⟩

/-- **The rule for sequences:** one talk follows the other. -/
theorem Says.bind {f : α → Action σ β} {P : List Exchange → Except Stop β → Prop}
    (ha : Says view a Q) (stopped : ∀ talk stop, Q talk (.error stop) → P talk (.error stop))
    (hf : ∀ talk v, Q talk (.ok v) → Says view (f v) fun talk' r => P (talk ++ talk') r) :
    Says view (a >>= f) P := by
  intro s
  obtain ⟨talk, hview, hsaid⟩ := ha s
  rw [runIn_bind]
  generalize a.runIn s = run at hview hsaid
  obtain ⟨result, s₁⟩ := run
  cases result with
  | error stop => exact ⟨talk, hview, stopped talk stop hsaid⟩
  | ok v =>
    obtain ⟨talk', hview', hsaid'⟩ := hf talk v hsaid s₁
    exact ⟨talk ++ talk', by rw [hview', hview, List.append_assoc], hsaid'⟩

/-- What follows a run that says nothing begins the talk. -/
theorem Says.bind_quiet {f : α → Action σ β} {P : List Exchange → Except Stop β → Prop}
    {R : α → Prop} (ha : Says view a fun talk r => talk = [] ∧ ∀ v, r = .ok v → R v)
    (stopped : ∀ stop, P [] (.error stop)) (hf : ∀ v, R v → Says view (f v) P) :
    Says view (a >>= f) P := by
  refine ha.bind (fun talk stop h => h.1 ▸ stopped stop) fun talk v h => ?_
  rw [h.1]
  exact hf v (h.2 v rfl)

theorem Says.map {f : α → β} {P : List Exchange → Except Stop β → Prop} (ha : Says view a Q)
    (hP : ∀ talk r, Q talk r → P talk (r.map f)) : Says view (f <$> a) P := by
  rw [map_eq_pure_bind]
  refine ha.bind (fun talk stop h => hP _ _ h) fun talk v h => says_pure ?_
  rw [List.append_nil]
  exact hP _ _ h

/-- **What an attempt says:** the same as the action, and a refusal is an answer. -/
inductive Answered (Q : List Exchange → Except Stop α → Prop) :
    List Exchange → Except Stop (Except Error α) → Prop
  | value {talk : List Exchange} {v : α} (said : Q talk (.ok v)) : Answered Q talk (.ok (.ok v))
  | refused {talk : List Exchange} {cause : Error} (said : Q talk (.error (.refused cause))) :
      Answered Q talk (.ok (.error cause))
  | aborted {talk : List Exchange} (said : Q talk (.error .aborted)) :
      Answered Q talk (.error .aborted)

theorem Says.attempt (ha : Says view a Q) : Says view a.attempt (Answered Q) := by
  intro s
  obtain ⟨talk, hview, hsaid⟩ := ha s
  refine ⟨talk, ?_⟩
  unfold Action.attempt
  rw [runIn_ofFun]
  generalize a.runIn s = run at hview hsaid
  obtain ⟨result, s₁⟩ := run
  cases result with
  | ok v => exact ⟨hview, .value hsaid⟩
  | error stop =>
    cases stop with
    | refused cause => exact ⟨hview, .refused hsaid⟩
    | aborted => exact ⟨hview, .aborted hsaid⟩

theorem Says.aside {a : Action σ Unit} {Q P : List Exchange → Except Stop Unit → Prop}
    (ha : Says view a Q) (h : ∀ talk r, Q talk r → P talk (.ok ())) : Says view a.aside P := by
  intro s
  obtain ⟨talk, hview, hsaid⟩ := ha s
  exact ⟨talk, hview, h talk _ hsaid⟩

/-- A run in a part of a state says what it says there. -/
theorem Says.zoom {part : τ → σ} {put : σ → τ → τ} (hput : ∀ s t, part (put s t) = s)
    (ha : Says view a Q) : Says (fun t => view (part t)) (a.zoom part put) Q := by
  intro t
  obtain ⟨talk, hview, hsaid⟩ := ha (part t)
  rw [runIn_zoom]
  exact ⟨talk, (congrArg view (hput _ t)).trans hview, hsaid⟩

end Rules

end Action

/-! ## 2. Statements and steps -/

/-- **A reply shows a value** if that is how its first row is read. -/
def Reply.Shows {α : Type} (reply : Reply) (read : Row → Except Error α) (v : α) : Prop :=
  ∃ row, reply.found.head? = some row ∧ read row = .ok v

namespace Database

variable {α : Type}

theorem says_send (s : Statement) :
    Says transcript (send s) fun talk r =>
      ∃ reply, talk = [.statement s reply] ∧ r = .ok reply := by
  intro d
  exact ⟨_, List.reverse_cons, _, rfl, rfl⟩

/-- A refusal is the only reply that is not accepted. -/
theorem says_accepted (reply : Reply) :
    Says transcript (accepted reply) fun talk r => talk = [] ∧ ∀ v, r = .ok v → v = reply := by
  unfold accepted
  split
  · exact says_refuse ⟨rfl, nofun⟩
  · exact says_pure ⟨rfl, fun v hv => by cases hv; rfl⟩

/-- One statement is sent, and its reply is judged. -/
theorem says_reply {f : Reply → α} (s : Statement) :
    Says transcript (do return f (← accepted (← send s))) fun talk r =>
      ∃ reply, talk = [.statement s reply] ∧ ∀ v, r = .ok v → v = f reply := by
  refine (says_send s).bind (fun _ _ ⟨_, _, h⟩ => nomatch h) fun talk reply h => ?_
  obtain ⟨_, rfl, h⟩ := h
  cases h
  refine (says_accepted reply).bind_quiet (fun stop => ⟨reply, rfl, nofun⟩) fun v hv => says_pure ?_
  exact ⟨reply, rfl, fun w hw => by cases hw; rw [hv]⟩

theorem says_execute (s : Statement) :
    Says transcript (execute s) fun talk r =>
      ∃ reply, talk = [.statement s reply] ∧ ∀ n, r = .ok n → n = reply.count :=
  says_reply s

/-- **A statement that may find a row** answers with what its reply shows. -/
theorem says_fetch? (read : Row → Except Error α) (s : Statement) :
    Says transcript (fetch? read s) fun talk r =>
      ∃ reply, talk = [.statement s reply] ∧ ∀ v, r = .ok (some v) → reply.Shows read v := by
  have hfirst : Says transcript (fetchFirst? s) fun talk r =>
      ∃ reply, talk = [.statement s reply] ∧ ∀ o, r = .ok o → o = reply.found.head? := by
    unfold fetchFirst? fetch
    refine (says_reply s).bind (fun talk stop ⟨reply, h, _⟩ => ⟨reply, h, nofun⟩)
      fun talk rows ⟨reply, h, hrows⟩ => says_pure ⟨reply, ?_, fun o ho => ?_⟩
    · rw [h, List.append_nil]
    · cases ho
      rw [hrows rows rfl]
  refine hfirst.bind (fun talk stop ⟨reply, h, _⟩ => ⟨reply, h, nofun⟩)
    fun talk found ⟨reply, h, hfound⟩ => ?_
  refine (says_ofExcept (found.mapM read)).mono fun talk' r h' => ⟨reply, ?_, fun v hv => ?_⟩
  · rw [h, h'.1, List.append_nil]
  · have hread := h'.2 _ hv
    rw [hfound found rfl] at hread
    cases hrow : reply.found.head? with
    | none => rw [hrow] at hread; cases hread
    | some row =>
      rw [hrow, Option.mapM_some] at hread
      refine ⟨row, hrow, ?_⟩
      cases hv' : read row with
      | error cause => rw [hv'] at hread; cases hread
      | ok w => rw [hv'] at hread; cases hread; rfl

/-- A step is taken, or it is refused and that is told. -/
inductive Steps (v : Verb) : List Exchange → Except Stop Unit → Prop
  | taken : Steps v [.step v none] (.ok ())
  | refused (e : ServerError) :
      Steps v [.step v (some e)] (.error (.refused (.database e.fault)))

theorem says_step (v : Verb) : Says transcript (step v) (Steps v) := by
  intro d
  unfold step
  rw [runIn_ofFun]
  cases d.steps.headD (d.refusals.lookup v) with
  | none => exact ⟨_, List.reverse_cons, .taken⟩
  | some e => exact ⟨_, List.reverse_cons, .refused e⟩

/-- A step that is taken aside is sent all the same. -/
theorem says_aside_step (v : Verb) :
    Says transcript (aside (step v)) fun talk r => ∃ refusal,
      talk = [.step v refusal] ∧ r = .ok () := by
  refine (says_step v).aside fun talk r h => ?_
  cases h with
  | taken => exact ⟨none, rfl, rfl⟩
  | refused e => exact ⟨some e, rfl, rfl⟩

/-! ## 3. Transactions -/

/-- **The courses of a transaction** whose body says what `Q` tells. -/
inductive Transacts (Q : List Exchange → Except Stop (Ending α) → Prop) :
    List Exchange → Except Stop α → Prop
  /-- It is not opened, and nothing else is said. -/
  | unopened (e : ServerError) (stop : Stop) : Transacts Q [.step .start (some e)] (.error stop)
  | aborted (said : List Exchange) (body : Q said (.error .aborted)) :
      Transacts Q (.step .start none :: said) (.error .aborted)
  /-- The body is refused; it does not matter whether the undoing is. -/
  | refused (said : List Exchange) (cause : Error) (refusal : Option ServerError)
      (body : Q said (.error (.refused cause))) :
      Transacts Q (.step .start none :: said ++ [.step .rollback refusal])
        (.error (.refused cause))
  | undone (said : List Exchange) (answer : α) (body : Q said (.ok (.undo answer))) :
      Transacts Q (.step .start none :: said ++ [.step .rollback none]) (.ok answer)
  /-- It was to be undone, and that is refused. -/
  | stuck (said : List Exchange) (answer : α) (e : ServerError) (stop : Stop)
      (body : Q said (.ok (.undo answer))) :
      Transacts Q (.step .start none :: said ++ [.step .rollback (some e)]) (.error stop)
  | kept (said : List Exchange) (answer : α) (body : Q said (.ok (.keep answer))) :
      Transacts Q (.step .start none :: said ++ [.step .commit none]) (.ok answer)
  /-- It was to be kept, and that is refused. -/
  | lost (said : List Exchange) (answer : α) (e : ServerError) (refusal : Option ServerError)
      (stop : Stop) (body : Q said (.ok (.keep answer))) :
      Transacts Q (.step .start none :: said ++ [.step .commit (some e), .step .rollback refusal])
        (.error stop)

/-- **A transaction takes one of its courses.** -/
theorem says_inTransaction {body : Action Database (Ending α)}
    {Q : List Exchange → Except Stop (Ending α) → Prop} (hbody : Says transcript body Q) :
    Says transcript (inTransaction body) (Transacts Q) := by
  unfold inTransaction
  refine (says_step .start).bind (fun talk stop h => ?_) fun talk _ h => ?_
  · cases h with
    | refused e => exact .unopened e _
  cases h with
  | taken =>
  refine hbody.attempt.bind (fun said stop h => ?_) fun said ending h => ?_
  · cases h with
    | aborted body => exact .aborted said body
  cases h with
  | refused body =>
    refine (says_aside_step .rollback).bind (fun _ _ ⟨_, _, h⟩ => nomatch h)
      fun talk _ ⟨refusal, h, _⟩ => says_refuse ?_
    subst h
    exact .refused said _ refusal body
  | @value ending body =>
    cases ending with
    | undo answer =>
      refine (says_step .rollback).bind (fun talk stop h => ?_) fun talk _ h => says_pure ?_
      · cases h with
        | refused e => exact .stuck said answer e _ body
      · cases h with
        | taken => exact .undone said answer body
    | keep answer =>
      refine (says_step .commit).attempt.bind (fun talk stop h => ?_) fun talk answered h => ?_
      · cases h with
        | aborted h => cases h
      cases h with
      | value h =>
        cases h with
        | taken => exact says_pure (.kept said answer body)
      | refused h =>
        cases h with
        | refused e =>
          refine (says_aside_step .rollback).bind (fun _ _ ⟨_, _, h⟩ => nomatch h)
            fun talk _ ⟨refusal, h, _⟩ => says_refuse ?_
          subst h
          exact .lost said answer e refusal _ body

end Database

end WalletLedger
