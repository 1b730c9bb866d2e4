/-
The graph that is kept, and the graph that would be built now.

Routes are looked up in a graph that is kept until somebody announces a change (`forgetGraph`). A
service that changes what the graph is built from announces the change itself, but it does so after
its last write, and a stop before that is passed on at once. So there is one way for the kept graph
to become outdated: a service stops after some of its writes (`GraphCall.Overlooks`). Every other
call leaves no graph, or it leaves the memory and the kept graph as they are, or it builds the graph
from the memory as it is (`Ledger.Settled`).

Where no call to the stores fails, only the two services that set flags for a list of currencies can
stop halfway, and they do so at a currency that is not registered (`GraphCall.StopsAtUnknown`): the
flags of the currencies before it are set by then.
-/
import WalletLedger.Proofs.Runs
import WalletLedger.Proofs.Sure

set_option autoImplicit false

namespace WalletLedger

open WalletLedger.Action

/-! ## 1. Calls of the graph's services -/

/-- **What can happen to the routes:** a service of the graph is called, or the table of currencies
is changed behind its back. -/
inductive GraphCall where
  -- Services
  | routes (source dest : String) (limit : Nat)
  | firstRoute (source dest : String)
  | addRate (rate : Rate) (ignoreIfExists : Bool)
  | updateRate (rate : Rate)
  | deleteRate (source dest : String)
  | forbid (pair : ForbiddenPair)
  | allow (pair : ForbiddenPair)
  | addTransitive (symbols : List String)
  | deleteTransitive (symbols : List String)
  /-- The services are told that the currencies were changed. -/
  | announce
  -- Changes of the currencies themselves
  | register (c : Currency)
  | setActive (symbol : String) (on : Bool)
  | setFlag (symbol : String) (on : Bool)

namespace GraphCall

open Ledger in
/-- Making a call; what it answers does not matter here. -/
def run (t : Terms) : GraphCall → Action (Ledger (Faulty Memory)) Unit
  | .routes source dest limit => discard (Ledger.routes t source dest limit)
  | .firstRoute source dest => discard (Ledger.firstRoute t source dest)
  | .addRate rate ignoreIfExists => Ledger.addRate rate ignoreIfExists
  | .updateRate rate => discard (Ledger.updateRate rate)
  | .deleteRate source dest => discard (Ledger.deleteRate source dest)
  | .forbid pair => Ledger.forbid pair
  | .allow pair => discard (Ledger.allow pair)
  | .addTransitive symbols => Ledger.addTransitive symbols
  | .deleteTransitive symbols => discard (Ledger.deleteTransitive symbols)
  | .announce => forgetGraph
  | .register c => ask (.addCurrency c)
  | .setActive symbol on => ask (.setActive symbol on)
  | .setFlag symbol on => ask (.setTransitive symbol on)

/-- The ledger after a call, however it ended. -/
def after (t : Terms) (l : Ledger (Faulty Memory)) (c : GraphCall) : Ledger (Faulty Memory) :=
  ((c.run t).runIn l).2

def runAll (t : Terms) (l : Ledger (Faulty Memory)) (calls : List GraphCall) :
    Ledger (Faulty Memory) :=
  calls.foldl (after t) l

theorem runAll_concat (t : Terms) (l : Ledger (Faulty Memory)) (calls : List GraphCall)
    (c : GraphCall) : runAll t l (calls ++ [c]) = c.after t (runAll t l calls) := by
  rw [runAll, List.foldl_append]
  rfl

/-- The changes that nobody tells the services of. -/
def IsOutside : GraphCall → Prop
  | .register _ | .setActive _ _ | .setFlag _ _ => True
  | _ => False

/-- **Every outside change is announced** later on. -/
def Announced (calls : List GraphCall) : Prop :=
  ∀ earlier c later, calls = earlier ++ c :: later → c.IsOutside → announce ∈ later

/-- The flags that a call is to set, and for whom. -/
def flags? : GraphCall → Option (Bool × List String)
  | .addTransitive symbols => some (true, symbols)
  | .deleteTransitive symbols => some (false, symbols)
  | _ => none

theorem not_isOutside_of_flags {c : GraphCall} {flags : Bool × List String}
    (h : c.flags? = some flags) : ¬c.IsOutside := by
  intro hout
  cases c <;> first | exact hout | cases h

/-- What is announced stays announced; a change at the end is not announced yet. -/
theorem announced_concat {calls : List GraphCall} {c : GraphCall} :
    Announced (calls ++ [c]) ↔ c = announce ∨ (¬c.IsOutside ∧ Announced calls) := by
  constructor
  · intro h
    by_cases hc : c = announce
    · exact .inl hc
    refine .inr ⟨fun hout => ?_, fun earlier d later hcalls hout => ?_⟩
    · exact absurd (h calls c [] rfl hout) List.not_mem_nil
    · have hmem := h earlier d (later ++ [c]) (by simp [hcalls]) hout
      rcases List.mem_append.1 hmem with hlater | hlast
      · exact hlater
      · exact absurd (List.mem_singleton.1 hlast).symm hc
  · intro h earlier d later hcalls hout
    rcases List.eq_nil_or_concat later with rfl | ⟨before, last, rfl⟩
    · -- The change is the last call, which is neither an announcement nor a service.
      obtain ⟨-, hcd⟩ := List.append_inj' hcalls rfl
      cases hcd
      rcases h with rfl | ⟨hin, -⟩
      · exact hout.elim
      · exact absurd hout hin
    · rw [List.concat_eq_append] at hcalls ⊢
      rw [← List.cons_append, ← List.append_assoc] at hcalls
      obtain ⟨hinit, hlast⟩ := List.append_inj' hcalls rfl
      cases hlast
      rcases h with rfl | ⟨-, hcalls'⟩
      · exact List.mem_append_right _ List.mem_cons_self
      · exact List.mem_append_left _ (hcalls' earlier d before hinit hout)

end GraphCall

/-! ## 2. Fresh graphs -/

/-- Two graphs that offer the same routes. -/
def Graph.Offers (policy : RoutePolicy) (g g' : Graph) : Prop :=
  ∀ source dest, g.routes source dest policy = g'.routes source dest policy

/-- The table with a flag set for all currencies of a list. -/
def CurrencyTable.marked (table : CurrencyTable) (on : Bool) (symbols : List String) :
    CurrencyTable :=
  ⟨table.rows.map fun c => if c.symbol ∈ symbols then { c with isTransitive := on } else c⟩

namespace Memory

/-- The graph that is built from the rows as they are. -/
def graph (m : Memory) (t : Terms) : Graph :=
  .build m.currencies.rows m.rates.rates m.rates.forbidden t.maxHops

def IsRegistered (m : Memory) (symbol : String) : Bool := (m.currencies.find? symbol).isSome

end Memory

namespace Ledger

/-- **A graph that is kept offers what a new one would.** -/
def IsFresh (t : Terms) (l : Ledger (Faulty Memory)) : Prop :=
  ∀ g, l.graph = some g → g.Offers t.policy (l.memory.graph t)

/-- **The routes that are answered are those of a graph that is built now.** Without faults an
answer is missing only where there is no route. -/
structure ServesFresh (t : Terms) (l : Ledger (Faulty Memory)) : Prop where
  routes (source dest : String) (limit : Nat) :
    (Ledger.routes t source dest limit).Ends
      (fun found _ => found = ((l.memory.graph t).routes source dest t.policy).take limit)
      (fun _ _ => ¬l.Sure) l
  first (source dest : String) :
    (Ledger.firstRoute t source dest).Ends
      (fun route _ => ((l.memory.graph t).routes source dest t.policy).head? = some route)
      (fun _ _ => l.Sure → ((l.memory.graph t).routes source dest t.policy).head? = none) l

/-- **Nothing is overlooked:** no graph is kept, or what it is built from is as before and the graph
is the one from before or a new one. -/
def Settled (t : Terms) (l l' : Ledger (Faulty Memory)) : Prop :=
  l'.graph = none ∨
    (l'.memory = l.memory ∧ (l'.graph = l.graph ∨ l'.graph = some (l.memory.graph t)))

theorem Settled.isFresh {t : Terms} {l l' : Ledger (Faulty Memory)} (h : Settled t l l')
    (hl : IsFresh t l) : IsFresh t l' := by
  intro g hg
  rcases h with hnone | ⟨hm, hsame | hnew⟩
  · rw [hnone] at hg
    cases hg
  · rw [hm]
    exact hl g (hsame ▸ hg)
  · rw [hnew] at hg
    cases hg
    rw [hm]
    exact fun _ _ => rfl

end Ledger

/-- **A service that leaves an outdated graph:** it stops, the graph is still kept, and a graph that
was built now would offer other routes than before. -/
structure GraphCall.Overlooks (t : Terms) (l : Ledger (Faulty Memory)) (c : GraphCall) : Prop where
  service : ¬c.IsOutside
  stops : ∃ stop, ((c.run t).runIn l).1 = .error stop
  keeps : l.graph ≠ none ∧ (c.after t l).graph = l.graph
  outdates : ¬((c.after t l).memory.graph t).Offers t.policy (l.memory.graph t)

/-- **A list of currencies with an unknown one in it,** while a graph is kept: the flags of those
before it are set, and they change the routes. -/
def GraphCall.StopsAtUnknown (t : Terms) (l : Ledger (Faulty Memory)) (c : GraphCall) : Prop :=
  ∃ on symbols, c.flags? = some (on, symbols) ∧ (∃ s ∈ symbols, l.memory.IsRegistered s = false) ∧
    l.graph ≠ none ∧
    ¬((l.memory.withCurrencies (l.memory.currencies.marked on
      (symbols.takeWhile l.memory.IsRegistered))).graph t).Offers t.policy (l.memory.graph t)

/-! ## 3. Which calls reach the graph -/

namespace Ledger

variable {α β : Type} {t : Terms} {l : Ledger (Faulty Memory)}

/-- The same graph is kept. -/
def SameGraph (l l' : Ledger (Faulty Memory)) : Prop := l'.graph = l.graph

instance : IsTrans (Ledger (Faulty Memory)) SameGraph := ⟨fun _ _ _ h h' => h'.trans h⟩

instance : Std.Refl SameGraph := ⟨fun _ => rfl⟩

/-- The stores do not know of the graph. -/
theorem sameGraph_ask (c : Call α) : Within SameGraph (ask c) (fun _ _ => True) l := by
  unfold ask
  exact ends_zoom.2 (ends_iff.2 ⟨fun _ _ => ⟨rfl, trivial⟩, fun _ _ => rfl⟩)

theorem sameGraph_requireCurrency (symbol : String) :
    Within SameGraph (requireCurrency symbol) (fun _ _ => True) l :=
  (sameGraph_ask _).bind fun _ _ _ _ => within_orRefuse fun _ _ => trivial

theorem sameGraph_setTransitive (on : Bool) (symbols : List String) :
    ∀ {l}, Within SameGraph (setTransitive on symbols) (fun _ _ => True) l := by
  induction symbols with
  | nil => exact fun {l} => within_pure trivial
  | cons symbol rest ih => exact fun {l} => (sameGraph_ask _).bind fun _ _ _ _ => ih

/-- **An action that ends with an announcement:** a stop before it leaves the graph as it was. -/
def Announces (a : Action (Ledger (Faulty Memory)) α) : Prop :=
  ∀ l, a.Ends (fun _ l' => l'.graph = none) (fun _ l' => l'.graph = none ∨ l'.graph = l.graph) l

theorem announces_forgetGraph : Announces forgetGraph := fun _ => rfl

/-- What is done after the announcement does not undo it. -/
theorem announces_forgetGraph_bind {a : Action (Ledger (Faulty Memory)) α}
    (ha : ∀ l, Within SameGraph a (fun _ _ => True) l) :
    Announces (forgetGraph >>= fun _ => a) := fun l => by
  show Ends a _ _ { l with graph := none }
  exact Ends.mono (ha _) (fun _ _ h => h.1) fun _ _ h => .inl h

/-- What is done before it may stop. -/
theorem Announces.after {a : Action (Ledger (Faulty Memory)) α}
    {f : α → Action (Ledger (Faulty Memory)) β} (ha : ∀ l, Within SameGraph a (fun _ _ => True) l)
    (hf : ∀ v, Announces (f v)) : Announces (a >>= f) := fun l =>
  (ha l).and_then (fun v l' hl _ => (hf v l').mono (fun _ _ h => h) fun _ _ h =>
    h.imp_right fun hl' => hl'.trans hl) fun _ _ => .inr

/-- A list is answered unless a fault strikes. -/
theorem ends_listing {c : Call α} {x : α} (hc : l.memory.answer c = .ok (x, l.memory))
    (hmiss : ¬l.CanFail .miss) :
    (ask c).Ends (fun a l' => a = x ∧ l.Still l' ∧ l.SameGraph l')
      (fun _ l' => ¬l.Sure ∧ l.Still l' ∧ l.SameGraph l') l := by
  have hread : (ask c).Ends (fun a l' => a = x ∧ l.Still l')
      (fun _ l' => ¬l.Sure ∧ l.Still l') l := by
    refine ends_ask_cases ?_ ?_ ?_ ?_ ?_
    · intro a l' hl ha
      rw [hc] at ha
      have hpair := Except.ok.inj ha
      exact ⟨(congrArg Prod.fst hpair).symm, hl, (congrArg Prod.snd hpair).symm⟩
    · exact fun _ _ _ h => absurd h hmiss
    · intro cause l' _ ha
      rw [hc] at ha
      cases ha
    · exact fun _ mode l' hl hmode => ⟨fun hsure => hsure mode hmode, hl⟩
    · intro _ a l' hl hmode ha
      rw [hc] at ha
      exact ⟨fun hsure => hsure _ hmode, hl, (congrArg Prod.snd (Except.ok.inj ha)).symm⟩
  exact (hread.and (sameGraph_ask c)).mono (fun _ _ h => ⟨h.1.1, h.1.2, h.2.1⟩)
    fun _ _ h => ⟨h.1.1, h.1.2, h.2⟩

/-- A graph that is kept is the one that is used. -/
theorem answers_currentGraph {g : Graph} (hg : l.graph = some g) :
    (currentGraph t).Answers g l := by
  unfold currentGraph
  refine Answers.bind (v := l.graph) rfl ?_
  rw [hg]
  exact answers_pure g

/-- **Looking the graph up:** it is the kept one, or one that is built now and kept. -/
theorem ends_currentGraph (hmiss : ¬l.CanFail .miss) :
    (currentGraph t).Ends
      (fun g l' => l'.memory = l.memory ∧
        ((l.graph = some g ∧ l'.graph = l.graph) ∨
          (l.graph = none ∧ g = l.memory.graph t ∧ l'.graph = some (l.memory.graph t))))
      (fun _ l' => l'.memory = l.memory ∧ l'.graph = l.graph ∧ l.graph = none ∧ ¬l.Sure) l := by
  unfold currentGraph
  refine (Answers.ends_bind (v := l.graph) rfl).2 ?_
  cases hg : l.graph with
  | some g => exact ⟨rfl, .inl ⟨rfl, hg⟩⟩
  | none =>
    refine (ends_bind _).2 ((ends_listing (c := .listCurrencies) rfl hmiss).mono ?_ ?_)
    · rintro _ l₁ ⟨rfl, h₁, hg₁⟩
      refine (ends_bind _).2 ((ends_listing (l := l₁) (c := .listRates) rfl
        (mt (h₁.modes _) hmiss)).mono ?_ ?_)
      · rintro _ l₂ ⟨rfl, h₂, hg₂⟩
        have h₁₂ := h₁.trans h₂
        refine (ends_bind _).2 ((ends_listing (l := l₂) (c := .listForbidden) rfl
          (mt (h₁₂.modes _) hmiss)).mono ?_ ?_)
        · rintro _ l₃ ⟨rfl, h₃, -⟩
          have hbuilt : Graph.build l.memory.currencies.rows l₁.memory.rates.rates
              l₂.memory.rates.forbidden t.maxHops = l.memory.graph t := by
            rw [h₁₂.memory, h₁.memory]
            rfl
          exact ⟨(h₁₂.trans h₃).memory, .inr ⟨rfl, hbuilt, congrArg some hbuilt⟩⟩
        · rintro _ l₃ ⟨hsure, h₃, hg₃⟩
          exact ⟨(h₁₂.trans h₃).memory, hg₃.trans (hg₂.trans (hg₁.trans hg)), rfl,
            fun h => hsure (h₁₂.sure h)⟩
      · rintro _ l₂ ⟨hsure, h₂, hg₂⟩
        exact ⟨(h₁.trans h₂).memory, hg₂.trans (hg₁.trans hg), rfl, fun h => hsure (h₁.sure h)⟩
    · rintro _ l₁ ⟨hsure, h₁, hg₁⟩
      exact ⟨h₁.memory, hg₁.trans hg, rfl, hsure⟩

/-- **Fresh answers come from a fresh graph,** and from no other. -/
theorem servesFresh_iff (hmiss : ¬l.CanFail .miss) : ServesFresh t l ↔ IsFresh t l := by
  have hgraph := ends_currentGraph (t := t) hmiss
  constructor
  · intro h g hg source dest
    -- All routes of the kept graph are answered if the limit is no fewer than either graph has.
    obtain ⟨limit, hlong, hlong'⟩ : ∃ n, (g.routes source dest t.policy).length ≤ n ∧
        ((l.memory.graph t).routes source dest t.policy).length ≤ n :=
      ⟨_, le_max_left _ _, le_max_right _ _⟩
    have hanswers : (Ledger.routes t source dest limit).Answers
        ((g.routes source dest t.policy).take limit) l :=
      (answers_currentGraph hg).bind (answers_pure _)
    have heq := (h.routes source dest limit).of_ok (congrArg Prod.fst hanswers)
    rwa [List.take_of_length_le hlong, List.take_of_length_le hlong'] at heq
  · intro h
    have hserved : ∀ g, (l.graph = some g ∨ g = l.memory.graph t) →
        g.Offers t.policy (l.memory.graph t) := by
      rintro g (hg | rfl)
      · exact h g hg
      · exact fun _ _ => rfl
    constructor
    · intro source dest limit
      unfold Ledger.routes
      refine (ends_bind _).2 (hgraph.mono (fun g l' hg => ?_) fun _ _ hstop => hstop.2.2.2)
      have hg' := hserved g (hg.2.imp And.left fun h => h.2.1)
      exact congrArg (List.take limit) (hg' source dest)
    · intro source dest
      unfold Ledger.firstRoute
      refine (ends_bind _).2 (hgraph.mono (fun g l' hg => ?_) fun _ _ hstop hsure =>
        absurd hsure hstop.2.2.2)
      have hg' := hserved g (hg.2.imp And.left fun h => h.2.1)
      refine (ends_orRefuse _ _).2 ⟨fun route hroute => ?_, fun hnone _ => ?_⟩
      · rw [← hg' source dest]
        exact hroute
      · rw [← hg' source dest]
        exact hnone

end Ledger

/-! ## 4. One call -/

namespace GraphCall

variable {t : Terms} {l : Ledger (Faulty Memory)}

open Ledger

theorem ends_discard {α : Type} {a : Action (Ledger (Faulty Memory)) α}
    {Q : Unit → Ledger (Faulty Memory) → Prop} {E : Stop → Ledger (Faulty Memory) → Prop} :
    (discard a : Action (Ledger (Faulty Memory)) Unit).Ends Q E l ↔ a.Ends (fun _ => Q ()) E l :=
  ends_map fun _ => ()

/-- A call writes currencies and rates, and it arms no faults. -/
theorem within_run (c : GraphCall) :
    Within (Evolves fun _ => True) (c.run t) (fun _ _ => True) l := by
  have looks : ∀ (source dest : String) (limit : Nat),
      Within Still (Ledger.routes t source dest limit) (fun _ _ => True) l :=
    fun _ _ _ => within_currentGraph.bind fun _ _ _ _ => within_pure trivial
  cases c with
  | routes source dest limit =>
    exact Operation.within_discard (within_of_still (looks source dest limit))
  | firstRoute source dest =>
    exact Operation.within_discard (within_of_still (within_firstRoute source dest))
  | addRate rate ignoreIfExists => exact within_addRate trivial rate ignoreIfExists
  | updateRate rate => exact Operation.within_discard (within_updateRate trivial rate)
  | deleteRate source dest => exact Operation.within_discard (within_deleteRate trivial source dest)
  | forbid pair => exact within_forbid trivial pair
  | allow pair => exact Operation.within_discard (within_allow trivial pair)
  | addTransitive symbols =>
    exact (within_setTransitive trivial true symbols).bind fun _ _ _ _ =>
      within_of_still (within_setGraph none)
  | deleteTransitive symbols =>
    exact Operation.within_discard (within_deleteTransitive trivial symbols)
  | announce => exact within_of_still (within_setGraph none)
  | register c => exact within_registerCurrency trivial c
  | setActive symbol on => exact Ledger.within_setActive trivial symbol on
  | setFlag symbol on => exact within_setFlag trivial symbol on

theorem follows_after (c : GraphCall) : l.Follows (c.after t l) := (within_run c).moves.toFollows

theorem follows_runAll (calls : List GraphCall) : l.Follows (runAll t l calls) := by
  induction calls generalizing l with
  | nil => exact .refl l
  | cons c calls ih => exact (follows_after c).trans ih

/-- **A service overlooks nothing unless it stops,** and then it is the kept graph from before that
it leaves. -/
theorem ends_run (hmiss : ¬l.CanFail .miss) {c : GraphCall} (hc : ¬c.IsOutside) :
    (c.run t).Ends (fun _ l' => Settled t l l')
      (fun _ l' => Settled t l l' ∨ l'.graph = l.graph) l := by
  -- Looking up builds a graph if none is kept; every other service forgets it in the end.
  have looked : (currentGraph t).Ends (fun _ l' => Settled t l l') (fun _ l' => Settled t l l') l :=
    (ends_currentGraph hmiss).mono
      (fun _ _ h => .inr ⟨h.1, h.2.imp And.right fun hnew => hnew.2.2⟩)
      fun _ _ h => .inr ⟨h.1, .inl h.2.1⟩
  have announced : ∀ {α : Type} {a : Action (Ledger (Faulty Memory)) α}, Announces a →
      a.Ends (fun _ l' => Settled t l l') (fun _ l' => Settled t l l' ∨ l'.graph = l.graph) l :=
    fun h => (h l).mono (fun _ _ => .inl) fun _ _ h => h.imp_left .inl
  cases c with
  | routes source dest limit =>
    exact ends_discard.2 ((ends_bind _).2 (looked.mono (fun _ _ h => h) fun _ _ => .inl))
  | firstRoute source dest =>
    refine ends_discard.2 ((ends_bind _).2 (looked.mono (fun _ _ h => ?_) fun _ _ => .inl))
    exact (ends_orRefuse _ _).2 ⟨fun _ _ => h, fun _ => .inl h⟩
  | addRate rate ignoreIfExists =>
    refine announced (.after (fun _ => within_ofExcept fun _ _ => trivial) fun _ => ?_)
    refine .after (fun _ => sameGraph_requireCurrency _) fun _ => ?_
    refine .after (fun _ => sameGraph_requireCurrency _) fun _ => ?_
    exact .after (fun _ => sameGraph_ask _) fun _ => announces_forgetGraph
  | updateRate rate =>
    refine ends_discard.2 (announced (.after (fun _ => within_ofExcept fun _ _ => trivial)
      fun _ => ?_))
    exact .after (fun _ => sameGraph_ask _) fun _ =>
      announces_forgetGraph_bind fun _ => sameGraph_ask _
  | deleteRate source dest =>
    exact ends_discard.2 (announced (.after (fun _ => sameGraph_ask _) fun _ =>
      announces_forgetGraph_bind fun _ => sameGraph_ask _))
  | forbid pair =>
    exact announced (.after (fun _ => sameGraph_ask _) fun _ => announces_forgetGraph)
  | allow pair =>
    exact ends_discard.2 (announced (.after (fun _ => sameGraph_ask _) fun _ =>
      announces_forgetGraph_bind fun _ => sameGraph_ask _))
  | addTransitive symbols =>
    exact announced (.after (fun _ => sameGraph_setTransitive true symbols) fun _ =>
      announces_forgetGraph)
  | deleteTransitive symbols =>
    refine ends_discard.2 (announced (.after (fun _ => sameGraph_setTransitive false symbols)
      fun _ => announces_forgetGraph_bind fun _ => ?_))
    exact (sameGraph_ask _).bind fun _ _ _ _ => within_pure trivial
  | announce => exact announced announces_forgetGraph
  | _ => exact absurd trivial hc

/-- A fresh graph stays fresh, if it is not overlooked. -/
theorem isFresh_after (hmiss : ¬l.CanFail .miss) {c : GraphCall} (hc : ¬c.IsOutside)
    (hseen : ¬c.Overlooks t l) (hl : IsFresh t l) : IsFresh t (c.after t l) := by
  have hrun := ends_run (t := t) hmiss hc
  cases hr : ((c.run t).runIn l).1 with
  | ok _ => exact (hrun.of_ok hr : Settled t l (c.after t l)).isFresh hl
  | error stop =>
    have hstop : Settled t l (c.after t l) ∨ (c.after t l).graph = l.graph := hrun.of_error hr
    rcases hstop with hsettled | hkept
    · exact hsettled.isFresh hl
    intro g hg
    have hgl : l.graph = some g := hkept ▸ hg
    have hoffers : ((c.after t l).memory.graph t).Offers t.policy (l.memory.graph t) := by
      by_contra houtdated
      exact hseen ⟨hc, ⟨stop, hr⟩, ⟨by rw [hgl]; nofun, hkept⟩, houtdated⟩
    exact fun source dest => (hl g hgl source dest).trans (hoffers source dest).symm

/-- What was overlooked shows in the answers. -/
theorem Overlooks.not_isFresh {c : GraphCall} (h : c.Overlooks t l) (hl : IsFresh t l) :
    ¬IsFresh t (c.after t l) := by
  intro hafter
  obtain ⟨hkept, hsame⟩ := h.keeps
  obtain ⟨g, hg⟩ := Option.ne_none_iff_exists'.1 hkept
  exact h.outdates fun source dest =>
    ((hafter g (hsame.trans hg)) source dest).symm.trans (hl g hg source dest)

/-! ## 5. Where no call to the stores fails -/

end GraphCall

namespace CurrencyTable

variable {table : CurrencyTable} {on : Bool}

theorem marked_nil : table.marked on [] = table := by simp [marked]

/-- One flag after the other. -/
theorem marked_cons (symbol : String) (symbols : List String) :
    (table.marked on [symbol]).marked on symbols = table.marked on (symbol :: symbols) := by
  simp only [marked, List.map_map]
  congr 1
  refine List.map_congr_left fun c _ => ?_
  by_cases hsymbol : c.symbol = symbol <;> by_cases hmem : c.symbol ∈ symbols <;>
    simp [hsymbol, hmem]

/-- Setting flags registers nothing. -/
theorem isSome_find?_marked (symbols : List String) (s : String) :
    ((table.marked on symbols).find? s).isSome = (table.find? s).isSome := by
  have hkeeps : ∀ c : Currency,
      ((if c.symbol ∈ symbols then { c with isTransitive := on } else c).symbol == s) =
        (c.symbol == s) := by
    intro c
    split_ifs <;> rfl
  rw [find?, marked, find?_map_of_keeps hkeeps, Option.isSome_map]
  rfl

theorem setTransitive_eq {t : CurrencyTable} {symbol : String}
    (h : table.setTransitive symbol on = .ok t) :
    (table.find? symbol).isSome = true ∧ t = table.marked on [symbol] := by
  unfold setTransitive update at h
  split_ifs at h with hsome
  cases h
  exact ⟨hsome, by simp [marked]⟩

theorem setTransitive_eq_error {symbol : String} {cause : Error}
    (h : table.setTransitive symbol on = .error cause) : (table.find? symbol).isSome = false := by
  unfold setTransitive update at h
  split_ifs at h with hsome
  exact Bool.eq_false_iff.2 hsome

end CurrencyTable

namespace GraphCall

variable {t : Terms} {l : Ledger (Faulty Memory)}

open Ledger

/-- **Flags are set up to the first unknown currency.** The induction is on the list; what is
registered does not change on the way. -/
theorem ends_setTransitive (hl : l.Sure) (on : Bool) (symbols : List String) :
    (setTransitive on symbols).Ends (fun _ l' => l'.Sure ∧ ∀ s ∈ symbols, l.memory.IsRegistered s)
      (fun _ l' => (∃ s ∈ symbols, l.memory.IsRegistered s = false) ∧
        l'.memory = l.memory.withCurrencies
          (l.memory.currencies.marked on (symbols.takeWhile l.memory.IsRegistered))) l := by
  induction symbols generalizing l with
  | nil => exact ⟨hl, nofun⟩
  | cons symbol rest ih =>
    unfold setTransitive
    refine (ends_bind _).2 (hl.ends_ask (fun _ l₁ h₁ ha => ?_) fun cause l₁ h₁ ha => ?_)
    · obtain ⟨table, hset, hm⟩ := Memory.writing_eq ha
      obtain ⟨hsome, rfl⟩ := CurrencyTable.setTransitive_eq hset
      have hknown : l.memory.IsRegistered symbol = true := hsome
      have hsame : l₁.memory.IsRegistered = l.memory.IsRegistered := by
        rw [hm]
        exact funext fun s => CurrencyTable.isSome_find?_marked [symbol] s
      refine Ends.mono (ih (h₁.sure hl)) (fun _ l₂ h₂ => ?_) fun _ l₂ h₂ => ?_
      · rw [hsame] at h₂
        exact ⟨h₂.1, List.forall_mem_cons.2 ⟨hknown, h₂.2⟩⟩
      · rw [hsame, hm] at h₂
        obtain ⟨⟨s, hs, hunknown⟩, hm₂⟩ := h₂
        refine ⟨⟨s, List.mem_cons_of_mem _ hs, hunknown⟩, ?_⟩
        rw [List.takeWhile_cons_of_pos hknown, ← CurrencyTable.marked_cons]
        exact hm₂
    · have hunknown : l.memory.IsRegistered symbol = false := by
        unfold Memory.IsRegistered
        cases hset : l.memory.currencies.setTransitive symbol on with
        | error cause => exact CurrencyTable.setTransitive_eq_error hset
        | ok table =>
          simp only [Memory.answer, hset] at ha
          cases ha
      refine ⟨⟨symbol, List.mem_cons_self, hunknown⟩, ?_⟩
      rw [List.takeWhile_cons_of_neg (by simp [hunknown]), CurrencyTable.marked_nil, h₁.memory]
      rfl

/-- The services that set flags stop only at an unknown currency. -/
theorem ends_flags (hl : l.Sure) {c : GraphCall} {on : Bool} {symbols : List String}
    (hc : c.flags? = some (on, symbols)) :
    (c.run t).Ends (fun _ _ => ∀ s ∈ symbols, l.memory.IsRegistered s)
      (fun _ l' => ((∃ s ∈ symbols, l.memory.IsRegistered s = false) ∧
        l'.memory = l.memory.withCurrencies
          (l.memory.currencies.marked on (symbols.takeWhile l.memory.IsRegistered))) ∧
        l'.graph = l.graph) l := by
  have hset := fun on symbols =>
    (ends_setTransitive hl on symbols).and (sameGraph_setTransitive on symbols (l := l))
  cases c with
  | addTransitive =>
    cases hc
    exact (ends_bind _).2 (Ends.mono (hset _ _) (fun _ _ h => h.1.2) fun _ _ => id)
  | deleteTransitive =>
    cases hc
    refine ends_discard.2 ((ends_bind _).2 (Ends.mono (hset _ _) (fun _ l₁ h => ?_) fun _ _ => id))
    -- The list of those that still have the flag is read without fail.
    have hsure : Ledger.Sure { l₁ with graph := none } := h.1.1
    exact (ends_bind _).2 ((ends_bind _).2 (hsure.ends_ask (fun _ _ _ _ => h.1.2)
      fun _ _ _ ha => nomatch ha))
  | _ => cases hc

/-- A write that is refused changes nothing, and after one that is not nothing stops. -/
theorem ends_write {α β : Type} (hl : l.Sure) (c : Call α)
    {rest : α → Action (Ledger (Faulty Memory)) β}
    (hrest : ∀ v l', l'.Sure → (rest v).Ends (fun _ _ => True) (fun _ _ => False) l') :
    (ask c >>= rest).Ends (fun _ _ => True) (fun _ l' => l'.memory = l.memory) l := by
  refine (ends_bind _).2 (hl.ends_ask (fun v l' hl' _ => ?_) fun _ _ hstill _ => hstill.memory)
  exact Ends.mono (hrest v l' (hl'.sure hl)) (fun _ _ => id) fun _ _ => False.elim

/-- The other services write once. -/
theorem ends_single (hl : l.Sure) {c : GraphCall} (hc : ¬c.IsOutside) (hflags : c.flags? = none) :
    (c.run t).Ends (fun _ _ => True) (fun _ l' => l'.memory = l.memory) l := by
  have looked : (currentGraph t).Ends (fun _ l' => l'.memory = l.memory)
      (fun _ l' => l'.memory = l.memory) l :=
    (ends_currentGraph (hl .miss)).mono (fun _ _ h => h.1) fun _ _ h => h.1
  have forgets : ∀ l' : Ledger (Faulty Memory),
      forgetGraph.Ends (fun _ _ => True) (fun _ _ => False) l' := fun _ => trivial
  have lists : ∀ {α : Type} (c : Call α) (l' : Ledger (Faulty Memory)), l'.Sure →
      (∃ v, l'.memory.answer c = .ok (v, l'.memory)) →
      (forgetGraph >>= fun _ => ask c).Ends (fun _ _ => True) (fun _ _ => False) l' := by
    intro α c l' hl' hread
    obtain ⟨v, hv⟩ := hread
    have hsure : Ledger.Sure { l' with graph := none } := hl'
    refine (ends_bind _).2 (hsure.ends_ask (fun _ _ _ _ => trivial) fun _ _ _ ha => ?_)
    exact nomatch hv.symm.trans ha
  have checked : ∀ {β : Type} {l' : Ledger (Faulty Memory)}
      {f : Currency → Action (Ledger (Faulty Memory)) β} (symbol : String), l.Still l' →
      (∀ v l₁, l.Still l₁ → (f v).Ends (fun _ _ => True) (fun _ l₂ => l₂.memory = l.memory) l₁) →
      (requireCurrency symbol >>= f).Ends (fun _ _ => True) (fun _ l₂ => l₂.memory = l.memory) l' :=
    fun symbol hstill hf => hstill.next (within_requireCurrency symbol)
      (fun _ _ h => h.memory) fun v l₁ h₁ _ => hf v l₁ h₁
  cases c with
  | routes source dest limit =>
    exact ends_discard.2 ((ends_bind _).2 (looked.mono (fun _ _ _ => trivial) fun _ _ => id))
  | firstRoute source dest =>
    refine ends_discard.2 ((ends_bind _).2 (looked.mono (fun _ _ h => ?_) fun _ _ => id))
    exact (ends_orRefuse _ _).2 ⟨fun _ _ => trivial, fun _ => h⟩
  | addRate rate ignoreIfExists =>
    refine (Still.refl l).next still_ofExcept (fun _ _ h => h.memory) fun _ l₁ h₁ _ => ?_
    refine checked rate.source h₁ fun _ l₂ h₂ => checked rate.dest h₂ fun _ l₃ h₃ => ?_
    exact Ends.mono (ends_write (h₃.sure hl) _ fun _ l' _ => forgets l') (fun _ _ => id)
      fun _ _ h => h.trans h₃.memory
  | updateRate rate =>
    refine ends_discard.2 ?_
    refine (Still.refl l).next still_ofExcept (fun _ _ h => h.memory) fun _ l₁ h₁ _ => ?_
    exact Ends.mono (ends_write (h₁.sure hl) _ fun _ l' hl' => lists .listRates l' hl' ⟨_, rfl⟩)
      (fun _ _ => id) fun _ _ h => h.trans h₁.memory
  | deleteRate source dest =>
    exact ends_discard.2 (ends_write hl _ fun _ l' hl' => lists .listRates l' hl' ⟨_, rfl⟩)
  | forbid pair => exact ends_write hl _ fun _ l' _ => forgets l'
  | allow pair =>
    exact ends_discard.2 (ends_write hl _ fun _ l' hl' => lists .listForbidden l' hl' ⟨_, rfl⟩)
  | announce => exact trivial
  | addTransitive => cases hflags
  | deleteTransitive => cases hflags
  | _ => exact absurd trivial hc

/-- **Without faults, what is overlooked** are the flags before an unknown currency. -/
theorem overlooks_iff (hl : l.Sure) (c : GraphCall) : c.Overlooks t l ↔ c.StopsAtUnknown t l := by
  constructor
  · intro h
    obtain ⟨stop, hstop⟩ := h.stops
    cases hflags : c.flags? with
    | none =>
      have hsame : (c.after t l).memory = l.memory :=
        (ends_single hl h.service hflags).of_error hstop
      exact absurd (fun _ _ => hsame ▸ rfl) h.outdates
    | some flags =>
      obtain ⟨on, symbols⟩ := flags
      obtain ⟨⟨hunknown, hm⟩, -⟩ := (ends_flags (t := t) hl hflags).of_error hstop
      have houtdates := h.outdates
      rw [show (c.after t l).memory = _ from hm] at houtdates
      exact ⟨on, symbols, hflags, hunknown, h.keeps.1, houtdates⟩
  · rintro ⟨on, symbols, hflags, ⟨s, hs, hunknown⟩, hkept, houtdates⟩
    have hrun := ends_flags (t := t) hl hflags
    cases hr : ((c.run t).runIn l).1 with
    | ok v =>
      have hknown := hrun.of_ok hr s hs
      rw [hunknown] at hknown
      cases hknown
    | error stop =>
      obtain ⟨⟨-, hm⟩, hsame⟩ := hrun.of_error hr
      refine ⟨not_isOutside_of_flags hflags, ⟨stop, hr⟩, ⟨hkept, hsame⟩, ?_⟩
      rw [show (c.after t l).memory = _ from hm]
      exact houtdates

end GraphCall

/-! ## 6. Runs -/

namespace Ledger

open GraphCall

variable {t : Terms} {l : Ledger (Faulty Memory)}

/-- The induction is on the run: an announcement leaves no graph at all, and every other call that
may come last is a service. -/
theorem isFresh_runAll (hgraph : l.graph = none) (hmiss : ¬l.CanFail .miss)
    {calls : List GraphCall}
    (hseen : ∀ earlier c later, calls = earlier ++ c :: later → Announced earlier →
      ¬c.Overlooks t (GraphCall.runAll t l earlier)) (hcalls : Announced calls) :
    IsFresh t (GraphCall.runAll t l calls) := by
  induction calls using List.reverseRecOn with
  | nil => exact fun g hg => nomatch hgraph.symm.trans hg
  | append_singleton calls c ih =>
    rw [runAll_concat]
    rcases announced_concat.1 hcalls with rfl | ⟨hc, hearlier⟩
    · exact fun g hg => nomatch hg
    · refine isFresh_after (mt ((follows_runAll calls).modes _) hmiss) hc
        (hseen calls c [] rfl hearlier) (ih (fun earlier d later hd => ?_) hearlier)
      exact hseen earlier d (later ++ [c]) (by simp [hd])

/-- **When the kept graph is up to date.** In every run that begins without a graph, over any stores
that say nothing false: as long as outside changes are announced, the routes that are answered are
those of a graph that is built now, just if no service overlooks its own writes. Where no call to
the stores fails, such a service is one that sets flags for a list with an unknown currency. -/
theorem routes_fresh_iff (hgraph : l.graph = none) (hmiss : ¬l.CanFail .miss)
    (calls : List GraphCall) :
    ((∀ earlier later, calls = earlier ++ later → Announced earlier →
        ServesFresh t (GraphCall.runAll t l earlier)) ↔
      ∀ earlier c later, calls = earlier ++ c :: later → Announced earlier →
        ¬c.Overlooks t (GraphCall.runAll t l earlier)) ∧
    (l.Sure → ∀ earlier c later, calls = earlier ++ c :: later →
      (c.Overlooks t (GraphCall.runAll t l earlier) ↔
        c.StopsAtUnknown t (GraphCall.runAll t l earlier))) := by
  have hserves : ∀ earlier, ServesFresh t (GraphCall.runAll t l earlier) ↔
      IsFresh t (GraphCall.runAll t l earlier) :=
    fun earlier => servesFresh_iff (mt ((follows_runAll earlier).modes _) hmiss)
  refine ⟨⟨fun h earlier c later hcalls hearlier hover => ?_,
      fun h earlier later hcalls hearlier => ?_⟩,
    fun hl earlier c _ _ => overlooks_iff ((follows_runAll earlier).sure hl) c⟩
  · have hfresh := (hserves _).1 (h earlier (c :: later) hcalls hearlier)
    refine hover.not_isFresh hfresh ?_
    rw [← runAll_concat]
    exact (hserves _).1 (h (earlier ++ [c]) later (by simp [hcalls])
      (announced_concat.2 (.inr ⟨hover.service, hearlier⟩)))
  · refine (hserves _).2 (isFresh_runAll hgraph hmiss (fun before c after hbefore => ?_) hearlier)
    exact h before c (after ++ later) (by simp [hcalls, hbefore])

end Ledger

namespace Small

def tin : Currency := .define "TIN" "Tin" 2

def links : List Rate := [⟨"GOLD", "SILVER", units 3⟩, ⟨"SILVER", "TIN", units 2⟩]

/-- Gold is worth silver, and silver is worth tin, but no currency is transitive. No graph is kept
yet. -/
def linked : Ledger (Faulty Memory) :=
  .start ⟨((Memory.empty ids).withCurrencies ⟨[gold, silver, tin]⟩).withRates ⟨links, []⟩, []⟩ 0

/-- A route is looked up, and then silver is made transitive together with a currency that is not
registered. -/
def linking : List GraphCall := [.routes "GOLD" "TIN" 1, .addTransitive ["SILVER", "NONE"]]

-- Sorting does not unfold in the kernel; the rates are in their order already.
theorem links_sorted : links.mergeSort (fun a b => symbolLE a.dest b.dest) = links :=
  List.mergeSort_of_pairwise (by decide +kernel)

/-- The graph of the three currencies; it has the hubs that are given. -/
def linkedGraph (hubs : List String) : Graph := ⟨["GOLD", "SILVER", "TIN"], hubs, links, 4⟩

/-- What is kept in the end was built before silver was transitive. -/
theorem graph_runAll_linking :
    (GraphCall.runAll terms linked linking).graph = some (linkedGraph []) := by
  show some { linkedGraph [] with edges := links.mergeSort fun a b => symbolLE a.dest b.dest } = _
  rw [links_sorted]
  rfl

theorem graph_memory_linking :
    (GraphCall.runAll terms linked linking).memory.graph terms = linkedGraph ["SILVER"] := by
  show { linkedGraph ["SILVER"] with
    edges := links.mergeSort fun a b => symbolLE a.dest b.dest } = _
  rw [links_sorted]
  rfl

end Small

namespace Ledger

open WalletLedger.Small in
/-- The general theorem for a run that overlooks its last call. -/
theorem routes_fresh_iff_small : linked.graph = none ∧ ¬linked.CanFail .miss ∧
    ((∀ earlier later, linking = earlier ++ later → GraphCall.Announced earlier →
        ServesFresh terms (GraphCall.runAll terms linked earlier)) ↔
      ∀ earlier c later, linking = earlier ++ c :: later → GraphCall.Announced earlier →
        ¬c.Overlooks terms (GraphCall.runAll terms linked earlier)) ∧
    (linked.Sure → ∀ earlier c later, linking = earlier ++ c :: later →
      (c.Overlooks terms (GraphCall.runAll terms linked earlier) ↔
        c.StopsAtUnknown terms (GraphCall.runAll terms linked earlier))) :=
  ⟨rfl, sure_of_unarmed rfl .miss, routes_fresh_iff rfl (sure_of_unarmed rfl .miss) linking⟩

open WalletLedger.Small in
/-- **An outdated route.** There is a way from gold to tin by now, but none is found. -/
theorem outdated_graph_kept : GraphCall.Announced linking ∧
    ((Ledger.firstRoute terms "GOLD" "TIN").runIn (GraphCall.runAll terms linked linking)).1 =
      .error (.refused (.noConversionPath "GOLD" "TIN")) ∧
    (((GraphCall.runAll terms linked linking).memory.graph terms).routes "GOLD" "TIN"
      terms.policy).map (·.rate) = [units 6] ∧
    ¬ServesFresh terms (GraphCall.runAll terms linked linking) := by
  have hnow : (((GraphCall.runAll terms linked linking).memory.graph terms).routes "GOLD" "TIN"
      terms.policy).map (·.rate) = [units 6] := by
    rw [graph_memory_linking]
    decide +kernel
  refine ⟨?_, ?_, hnow, fun hserves => ?_⟩
  · intro earlier c later h hout
    have hmem : c ∈ linking := h ▸ List.mem_append_right _ List.mem_cons_self
    simp only [linking, List.mem_cons, List.not_mem_nil, or_false] at hmem
    rcases hmem with rfl | rfl <;> exact hout.elim
  · have hkept := answers_currentGraph (t := terms) graph_runAll_linking
    unfold Ledger.firstRoute
    rw [runIn_bind, hkept]
    decide +kernel
  · have hfresh := (servesFresh_iff (sure_of_unarmed rfl .miss)).1 hserves _ graph_runAll_linking
    have hkept : ((linkedGraph []).routes "GOLD" "TIN" terms.policy) = [] := by decide +kernel
    rw [← hfresh "GOLD" "TIN", hkept] at hnow
    cases hnow

end Ledger

end WalletLedger
