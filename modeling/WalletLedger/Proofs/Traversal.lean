/-
Services go where their calls go.

A service reaches the stores through single calls and through postings, and beside the stores it
looks at the clock, the graph and the policies and reports events. So a relation between ledgers
that all of these keep to is kept by every service, whatever the service does with what it is told
(`CarriesPosts.goes_run`, `CarriesPosts.goes_act`). A call that commits a posting is left out of the
single calls: no service makes it but as a part of posting, where the counters are advanced as well.

The lemmas follow the services one by one and say nothing else.
-/
import WalletLedger.Ledger.Opening
import WalletLedger.Proofs.Acts

set_option autoImplicit false

namespace WalletLedger

open WalletLedger.Action

/-- Whether a call commits a posting. -/
def Call.isCommit : {α : Type} → Call α → Bool
  | _, .commitPosting _ _ _ => true
  | _, _ => false

namespace Ledger

variable {α β : Type} {R : Ledger (Faulty Memory) → Ledger (Faulty Memory) → Prop}

/-! ## 1. Actions that go along a relation -/

/-- **An action goes along a relation:** every ledger is related to the one that the action makes of
it, however it ends. -/
def Goes (R : Ledger (Faulty Memory) → Ledger (Faulty Memory) → Prop)
    (a : Action (Ledger (Faulty Memory)) α) : Prop :=
  ∀ l, R l (a.runIn l).2

/-- **A relation that carries single calls,** and whatever leaves the stores and the counters as
they are. -/
structure Carries (R : Ledger (Faulty Memory) → Ledger (Faulty Memory) → Prop) : Prop where
  trans : ∀ {l l' l''}, R l l' → R l' l'' → R l l''
  beside : ∀ {l l'}, l'.stores = l.stores → l'.counters = l.counters → R l l'
  call : ∀ {α : Type} (c : Call α), c.isCommit = false → Goes R (ask c)

/-- **A relation that carries postings as well.** -/
structure CarriesPosts (t : Terms) (R : Ledger (Faulty Memory) → Ledger (Faulty Memory) → Prop) :
    Prop extends Carries R where
  post : ∀ access mv, Goes R (post t access mv)

theorem goes_of_ends {a : Action (Ledger (Faulty Memory)) α}
    (h : ∀ l, a.Ends (fun _ l' => R l l') (fun _ l' => R l l') l) : Goes R a := by
  intro l
  cases hr : (a.runIn l).1 with
  | ok v => exact (h l).of_ok hr
  | error stop => exact (h l).of_error hr

namespace Carries

variable {a : Action (Ledger (Faulty Memory)) α} {b : α → Action (Ledger (Faulty Memory)) β}

theorem refl (h : Carries R) (l : Ledger (Faulty Memory)) : R l l := h.beside rfl rfl

theorem goes_pure (h : Carries R) (v : α) : Goes R (pure v) := h.refl

theorem goes_refuse (h : Carries R) (cause : Error) :
    Goes R (refuse cause : Action (Ledger (Faulty Memory)) α) := h.refl

theorem goes_bind (h : Carries R) (ha : Goes R a) (hb : ∀ v, Goes R (b v)) :
    Goes R (a >>= b) := by
  intro l
  have hl := ha l
  rw [runIn_bind]
  generalize a.runIn l = r at hl ⊢
  obtain ⟨result, l'⟩ := r
  cases result with
  | ok v => exact h.trans hl (hb v l')
  | error stop => exact hl

theorem goes_attempt (ha : Goes R a) : Goes R a.attempt := by
  intro l
  have hl := ha l
  unfold attempt
  rw [runIn_ofFun]
  generalize a.runIn l = r at hl ⊢
  obtain ⟨result, l'⟩ := r
  match result with
  | .ok v => exact hl
  | .error (.refused cause) => exact hl
  | .error .aborted => exact hl

theorem goes_discard (h : Carries R) (ha : Goes R a) :
    Goes R (discard a : Action (Ledger (Faulty Memory)) Unit) :=
  h.goes_bind ha fun _ => h.goes_pure ()

theorem goes_ofExcept (h : Carries R) (r : Except Error α) :
    Goes R (ofExcept r : Action (Ledger (Faulty Memory)) α) := by
  cases r <;> exact h.refl

theorem goes_orRefuse (h : Carries R) (cause : Error) (o : Option α) :
    Goes R (orRefuse cause o : Action (Ledger (Faulty Memory)) α) := by
  cases o <;> exact h.refl

theorem goes_orAbort (h : Carries R) (o : Option α) :
    Goes R (orAbort o : Action (Ledger (Faulty Memory)) α) := by
  cases o <;> exact h.refl

theorem goes_require (h : Carries R) (cause : Error) (b : Bool) :
    Goes R (require cause b : Action (Ledger (Faulty Memory)) Unit) := by
  cases b <;> exact h.refl

theorem goes_peek (h : Carries R) (g : Ledger (Faulty Memory) → α) : Goes R (peek g) := h.refl

theorem goes_fresh (h : Carries R) : Goes R fresh := h.refl

theorem goes_now (h : Carries R) : Goes R now := fun _ => h.beside rfl rfl

theorem goes_report (h : Carries R) (e : Event) : Goes R (report e) := fun _ => h.beside rfl rfl

theorem goes_setGraph (h : Carries R) (graph : Option Graph) :
    Goes R (adjust fun l => { l with graph }) := fun _ => h.beside rfl rfl

/-- A call whose answer must be there. -/
theorem goes_required (h : Carries R) {c : Call (Option α)} (hc : c.isCommit = false)
    (cause : Error) :
    Goes R (do orRefuse cause (← ask c) : Action (Ledger (Faulty Memory)) α) :=
  h.goes_bind (h.call c hc) fun o => h.goes_orRefuse cause o

/-! ## 2. Wallets and owners -/

theorem goes_findWallet (h : Carries R) (owner : Owner) (currency : String) (kind : WalletKind) :
    Goes R (findWallet owner currency kind) :=
  h.call _ rfl

theorem goes_requireWallet (h : Carries R) (owner : Owner) (currency : String)
    (kind : WalletKind) : Goes R (requireWallet owner currency kind) :=
  h.goes_required rfl _

theorem goes_loadWallet (h : Carries R) (id : ℤ) : Goes R (loadWallet id) := h.goes_required rfl _

theorem goes_createWallet (h : Carries R) (owner : Owner) (initial : Amount) (kind : WalletKind) :
    Goes R (createWallet owner initial kind) :=
  h.call _ rfl

theorem goes_findOrCreateWallet (h : Carries R) (owner : Owner) (currency : String)
    (kind : WalletKind) : Goes R (findOrCreateWallet owner currency kind) := by
  unfold findOrCreateWallet
  refine h.goes_bind (h.goes_findWallet owner currency kind) fun found => ?_
  cases found with
  | some w => exact h.goes_pure w
  | none =>
    refine h.goes_bind (goes_attempt (h.goes_createWallet owner _ kind)) fun r => ?_
    cases r with
    | ok w => exact h.goes_pure w
    | error cause =>
      cases cause with
      | walletExists => exact h.goes_requireWallet owner currency kind
      | _ => exact h.goes_refuse _

theorem goes_retry (h : Carries R) {exhausted : Error}
    {a : Action (Ledger (Faulty Memory)) (Option α)} (ha : Goes R a) (attempts : ℕ) :
    Goes R (retry exhausted a attempts) := by
  induction attempts with
  | zero => exact h.goes_refuse exhausted
  | succ attempts ih =>
    refine h.goes_bind ha fun o => ?_
    cases o with
    | some answer => exact h.goes_pure answer
    | none => exact ih

theorem goes_mutateBalance (h : Carries R) (t : Terms) (id : ℤ) (change : Amount) :
    Goes R (mutateBalance t id change) := by
  refine h.goes_retry (h.goes_bind (h.goes_loadWallet id) fun w => ?_) t.maxAttempts
  exact h.goes_bind (h.goes_ofExcept _) fun balance => h.call _ rfl

theorem goes_requireOwner (h : Carries R) (uuid : String) : Goes R (requireOwner uuid) :=
  h.goes_required rfl _

theorem goes_createOwner (h : Carries R) (uuid title level : String) :
    Goes R (createOwner uuid title level) :=
  h.goes_bind (h.call _ rfl) fun owner => h.goes_bind (h.goes_report _) fun _ => h.goes_pure owner

theorem goes_findOrCreateOwner (h : Carries R) (uuid : String) :
    Goes R (findOrCreateOwner uuid) := by
  unfold findOrCreateOwner
  refine h.goes_bind (h.call _ rfl) fun found => ?_
  cases found with
  | some owner => exact h.goes_pure owner
  | none =>
    refine h.goes_bind (goes_attempt (h.goes_createOwner _ _ _)) fun r => ?_
    cases r with
    | ok owner => exact h.goes_pure owner
    | error cause => exact h.goes_requireOwner uuid

theorem goes_bootstrapSystemOwner (h : Carries R) (uuid : String) :
    Goes R (bootstrapSystemOwner uuid) := by
  unfold bootstrapSystemOwner
  refine h.goes_bind (h.call _ rfl) fun found => ?_
  cases found with
  | some owner => exact h.goes_pure owner
  | none => exact h.goes_createOwner _ _ _

/-! ## 3. Currencies and conversions -/

theorem goes_registerMissing (h : Carries R) (currencies : List Currency) :
    Goes R (registerMissing currencies) := by
  induction currencies with
  | nil => exact h.goes_pure ()
  | cons c rest ih =>
    rw [registerMissing]
    refine h.goes_bind (h.call _ rfl) fun found => ?_
    split_ifs
    · exact h.goes_bind (h.call _ rfl) fun _ => h.goes_bind (h.goes_report _) fun _ => ih
    · exact ih

theorem goes_requireCurrency (h : Carries R) (symbol : String) :
    Goes R (requireCurrency symbol) :=
  h.goes_required rfl _

theorem goes_requireActive (h : Carries R) (symbol : String) : Goes R (requireActive symbol) :=
  h.goes_bind (h.goes_requireCurrency symbol) fun currency =>
    h.goes_bind (h.goes_require _ _) fun _ => h.goes_pure currency

theorem goes_forgetGraph (h : Carries R) : Goes R forgetGraph := h.goes_setGraph none

theorem goes_currentGraph (h : Carries R) (t : Terms) : Goes R (currentGraph t) := by
  unfold currentGraph
  refine h.goes_bind (h.goes_peek _) fun graph => ?_
  cases graph with
  | some graph => exact h.goes_pure graph
  | none =>
    refine h.goes_bind (h.call _ rfl) fun currencies => h.goes_bind (h.call _ rfl) fun rates =>
      h.goes_bind (h.call _ rfl) fun forbidden => h.goes_bind (h.goes_setGraph _) fun _ => ?_
    exact h.goes_pure _

theorem goes_firstRoute (h : Carries R) (t : Terms) (source dest : String) :
    Goes R (firstRoute t source dest) :=
  h.goes_bind (h.goes_currentGraph t) fun _ => h.goes_orRefuse _ _

theorem goes_quote (h : Carries R) (t : Terms) (symbol : String) (value : Decimal)
    (dest : String) : Goes R (quote t symbol value dest) := by
  refine h.goes_bind (h.goes_requireActive dest) fun currency => h.goes_bind ?_ fun converted =>
    h.goes_pure _
  exact h.goes_bind (h.goes_firstRoute t _ _) fun route => h.goes_ofExcept _

theorem goes_addRate (h : Carries R) (rate : Rate) (ignoreIfExists : Bool) :
    Goes R (addRate rate ignoreIfExists) :=
  h.goes_bind (h.goes_ofExcept _) fun _ => h.goes_bind (h.goes_requireCurrency _) fun _ =>
    h.goes_bind (h.goes_requireCurrency _) fun _ => h.goes_bind (h.call _ rfl) fun _ =>
      h.goes_forgetGraph

/-- A write after which the graph is forgotten and something is listed. -/
theorem goes_write (h : Carries R) {c : Call Unit} {d : Call α} (hc : c.isCommit = false)
    (hd : d.isCommit = false) :
    Goes R (do ask c; forgetGraph; ask d : Action (Ledger (Faulty Memory)) α) :=
  h.goes_bind (h.call c hc) fun _ => h.goes_bind h.goes_forgetGraph fun _ => h.call d hd

theorem goes_updateRate (h : Carries R) (rate : Rate) : Goes R (updateRate rate) :=
  h.goes_bind (h.goes_ofExcept _) fun _ => h.goes_write rfl rfl

theorem goes_setTransitive (h : Carries R) (on : Bool) (symbols : List String) :
    Goes R (setTransitive on symbols) := by
  induction symbols with
  | nil => exact h.goes_pure ()
  | cons symbol rest ih => exact h.goes_bind (h.call _ rfl) fun _ => ih

theorem goes_deleteTransitive (h : Carries R) (symbols : List String) :
    Goes R (deleteTransitive symbols) :=
  h.goes_bind (h.goes_setTransitive false symbols) fun _ => h.goes_bind h.goes_forgetGraph fun _ =>
    h.goes_bind (h.call _ rfl) fun _ => h.goes_pure _

/-! ## 4. Reservations that are not settled -/

theorem goes_checkLiquidity (h : Carries R) (t : Terms) (needed : Amount) (kind : WalletKind) :
    Goes R (checkLiquidity t needed kind) :=
  h.goes_bind (h.goes_requireOwner _) fun system =>
    h.goes_bind (h.goes_findWallet system _ kind) fun _ => h.goes_require _ _

theorem goes_reserve (h : Carries R) (t : Terms) (r : ReserveRequest) : Goes R (reserve t r) := by
  unfold reserve
  refine h.goes_bind (h.goes_require _ _) fun _ => h.goes_bind (h.goes_requireActive _) fun _ =>
    h.goes_bind (h.goes_requireActive _) fun _ => h.goes_bind (h.goes_ofExcept _) fun amount =>
    h.goes_bind (h.goes_firstRoute t _ _) fun route => h.goes_bind (h.goes_ofExcept _) fun _ =>
    h.goes_bind (h.goes_require _ _) fun _ => h.goes_bind (h.goes_checkLiquidity t _ _) fun _ => ?_
  refine h.goes_bind h.goes_now fun _ => h.goes_bind (h.goes_orAbort _) fun _ =>
    h.goes_bind h.goes_fresh fun _ => h.goes_bind (h.call _ rfl) fun _ => ?_
  exact h.goes_pure _

theorem goes_cancelReservation (h : Carries R) (number : String) (issuer : Option String) :
    Goes R (cancelReservation number issuer) :=
  h.goes_bind (h.call _ rfl) fun _ => h.goes_bind (h.goes_orRefuse _ _) fun _ =>
    h.goes_bind (h.goes_require _ _) fun _ => h.goes_bind (h.call _ rfl) fun _ =>
      h.goes_bind (h.goes_require _ _) fun _ => h.goes_pure _

theorem goes_closeLapsed (h : Carries R) (rs : List Reservation) : Goes R (closeLapsed rs) := by
  induction rs with
  | nil => exact h.goes_pure 0
  | cons r rest ih =>
    exact h.goes_bind (h.call _ rfl) fun _ => h.goes_bind ih fun _ => h.goes_pure _

theorem goes_sweep (h : Carries R) (w : WorkerSettings) : Goes R (sweep w) :=
  h.goes_bind h.goes_now fun _ =>
    h.goes_bind (h.goes_bind (h.call _ rfl) fun _ => h.goes_closeLapsed _) fun _ =>
      h.goes_bind (h.goes_report _) fun _ => h.goes_pure _

/-! ## 5. Withdrawals that move no funds -/

theorem goes_requireWithdrawal (h : Carries R) (id : ℤ) : Goes R (requireWithdrawal id) :=
  h.goes_required rfl _

theorem goes_requirePolicy (h : Carries R) (symbol network : String) :
    Goes R (requirePolicy symbol network) :=
  h.goes_bind (h.goes_peek _) fun _ => h.goes_orRefuse _ _

theorem goes_processWithdrawal (h : Carries R) (id : ℤ) : Goes R (processWithdrawal id) :=
  h.goes_bind (h.goes_requireWithdrawal id) fun _ => h.goes_bind (h.goes_require _ _) fun _ =>
    h.goes_bind h.goes_now fun _ => h.goes_bind (h.call _ rfl) fun _ =>
      h.goes_bind (h.goes_orRefuse _ _) fun _ => h.goes_pure _

theorem goes_recordOnce (h : Carries R) (draft : WithdrawalDraft) : Goes R (recordOnce draft) := by
  unfold recordOnce
  refine h.goes_bind (h.call _ rfl) fun found => ?_
  cases found with
  | some w => exact h.goes_pure ()
  | none =>
    refine h.goes_bind h.goes_now fun now => h.goes_bind (goes_attempt (h.call _ rfl)) fun r => ?_
    cases r with
    | ok w => exact h.goes_pure ()
    | error cause =>
      refine h.goes_bind (h.call _ rfl) fun found => ?_
      cases found with
      | some w => exact h.goes_pure ()
      | none => exact h.goes_refuse cause

end Carries

/-! ## 6. Services that post -/

namespace CarriesPosts

variable {t : Terms}

theorem goes_transfer (h : CarriesPosts t R) (r : TransferRequest) : Goes R (transfer t r) := by
  unfold transfer
  refine h.goes_bind (h.goes_require _ _) fun _ => h.goes_bind (h.goes_requireActive _) fun _ =>
    h.goes_bind (h.goes_ofExcept _) fun _ => h.goes_bind (h.goes_requireOwner _) fun _ =>
    h.goes_bind (h.goes_requireWallet _ _ _) fun _ =>
    h.goes_bind (h.goes_findOrCreateOwner _) fun _ =>
    h.goes_bind (h.goes_findOrCreateWallet _ _ _) fun _ => ?_
  exact h.post _ _

theorem goes_deposit (h : CarriesPosts t R) (symbol receiver : String) (kind : WalletKind)
    (amount : Decimal) (description ref : Option String) :
    Goes R (deposit t symbol receiver kind amount description ref) :=
  h.goes_bind (h.call _ rfl) fun _ => h.goes_bind (h.goes_require _ _) fun _ => h.goes_transfer _

/-! ### Settling -/

theorem goes_giveUpUnlessPosted (h : CarriesPosts t R) (r : Reservation) (s : Settlement) :
    Goes R (giveUpUnlessPosted r s) := by
  unfold giveUpUnlessPosted
  refine h.goes_bind (h.call _ rfl) fun found => ?_
  cases found with
  | some p => exact h.goes_pure ()
  | none => exact h.goes_bind (h.call _ rfl) fun _ => h.goes_pure ()

theorem goes_refundAndGiveUp (h : CarriesPosts t R) (r : Reservation) (s : Settlement) :
    Goes R (refundAndGiveUp t r s) := by
  unfold refundAndGiveUp
  refine h.goes_bind (Carries.goes_attempt (h.goes_transfer _)) fun refunded => ?_
  cases refunded with
  | ok receipt => exact h.goes_bind (h.call _ rfl) fun _ => h.goes_pure ()
  | error cause => exact h.goes_pure ()

theorem goes_settle (h : CarriesPosts t R) (r : Reservation) (s : Settlement) :
    Goes R (settle t r s) := by
  unfold settle
  refine h.goes_bind (Carries.goes_attempt (h.goes_transfer _)) fun taken => ?_
  cases taken with
  | error cause =>
    exact h.goes_bind (h.goes_giveUpUnlessPosted r s) fun _ => h.goes_refuse cause
  | ok taken =>
    refine h.goes_bind (Carries.goes_attempt (h.goes_transfer _)) fun given => ?_
    cases given with
    | error cause => exact h.goes_bind (h.goes_refundAndGiveUp r s) fun _ => h.goes_refuse cause
    | ok given => exact h.goes_bind (h.call _ rfl) fun _ => h.goes_pure _

theorem goes_advanceReservation (h : CarriesPosts t R) (number : String)
    (description ref issuer : Option String) :
    Goes R (advanceReservation t number description ref issuer) := by
  unfold advanceReservation
  refine h.goes_bind (h.call _ rfl) fun _ => h.goes_bind (h.goes_orRefuse _ _) fun r =>
    h.goes_bind (h.goes_require _ _) fun _ => h.goes_bind h.goes_now fun _ =>
    h.goes_bind (h.goes_require _ _) fun _ => h.goes_bind (h.goes_require _ _) fun _ => ?_
  refine h.goes_bind h.goes_fresh fun _ => h.goes_bind h.goes_now fun _ =>
    h.goes_bind (h.call _ rfl) fun _ => h.goes_bind (h.goes_require _ _) fun _ => ?_
  exact h.goes_settle r _

theorem goes_resume (h : CarriesPosts t R) (r : Reservation) : Goes R (resume t r) := by
  unfold resume
  split
  · exact h.goes_pure _
  · refine h.goes_bind (h.call _ rfl) fun found => ?_
    cases found with
    | some p => exact h.goes_bind (h.call _ rfl) fun _ => h.goes_pure _
    | none => exact h.goes_bind (h.goes_settle r _) fun _ => h.goes_pure _

theorem goes_recoverOne (h : CarriesPosts t R) (r : Reservation) : Goes R (recoverOne t r) := by
  unfold recoverOne
  refine h.goes_bind (Carries.goes_attempt (h.goes_resume r)) fun result => ?_
  cases result <;> exact h.goes_bind (h.goes_report _) fun _ => h.goes_pure _

theorem goes_recoverAll (h : CarriesPosts t R) (rs : List Reservation) :
    Goes R (recoverAll t rs) := by
  induction rs with
  | nil => exact h.goes_pure 0
  | cons r rest ih =>
    exact h.goes_bind (h.goes_recoverOne r) fun _ => h.goes_bind ih fun _ => h.goes_pure _

theorem goes_recover (h : CarriesPosts t R) (w : WorkerSettings) : Goes R (recover t w) := by
  unfold recover
  refine h.goes_bind h.goes_now fun _ => h.goes_bind (h.goes_orAbort _) fun _ =>
    h.goes_bind (h.call _ rfl) fun stalled => ?_
  split_ifs
  · exact h.goes_bind (h.goes_report _) fun _ => h.goes_pure 0
  · exact h.goes_bind (h.goes_report _) fun _ => h.goes_recoverAll stalled

/-! ### Withdrawals -/

theorem goes_unstage (h : CarriesPosts t R) (ownerUuid : String) (amount : Amount)
    (cashoutId : ℤ) (staged : Receipt) :
    Goes R (unstage t ownerUuid amount cashoutId staged) :=
  h.goes_bind (h.goes_requireOwner _) fun _ => h.goes_bind (h.goes_loadWallet _) fun _ =>
    h.goes_bind (h.goes_requireWallet _ _ _) fun _ => h.post _ _

theorem goes_requestWithdrawal (h : CarriesPosts t R) (c : WithdrawalRequest) :
    Goes R (requestWithdrawal t c) := by
  unfold requestWithdrawal
  refine h.goes_bind (h.goes_requireActive _) fun _ => h.goes_bind (h.goes_requireOwner _) fun _ =>
    h.goes_bind (h.goes_require _ _) fun _ => h.goes_bind (h.goes_ofExcept _) fun _ =>
    h.goes_bind (h.goes_requirePolicy _ _) fun _ =>
    h.goes_bind (h.goes_requireWallet _ _ _) fun _ => h.goes_bind (h.goes_orAbort _) fun _ =>
    h.goes_bind (h.goes_require _ _) fun _ => h.goes_bind (h.goes_require _ _) fun _ => ?_
  refine h.goes_bind (h.goes_orAbort _) fun _ =>
    h.goes_bind (h.goes_findOrCreateWallet _ _ _) fun _ => h.goes_bind (h.post _ _) fun staged =>
    h.goes_bind h.goes_now fun _ =>
    h.goes_bind (Carries.goes_attempt (h.call _ rfl)) fun stored => ?_
  cases stored with
  | ok row => exact h.goes_pure _
  | error cause =>
    exact h.goes_bind (Carries.goes_attempt (h.goes_unstage _ _ _ staged)) fun _ =>
      h.goes_refuse cause

theorem goes_postOrRevert (h : CarriesPosts t R) (w : Withdrawal) (status : WithdrawalStatus)
    (mv : Movement) : Goes R (postOrRevert t w status mv) := by
  unfold postOrRevert
  refine h.goes_bind (Carries.goes_attempt (h.post _ _)) fun posted => ?_
  cases posted with
  | ok receipt => exact h.goes_pure receipt
  | error cause =>
    refine h.goes_bind (Carries.goes_attempt (h.call _ rfl)) fun found => ?_
    split
    · exact h.goes_pure _
    · exact h.goes_bind (h.call _ rfl) fun _ => h.goes_refuse cause

theorem goes_transitionWithLeg (h : CarriesPosts t R) (w : Withdrawal) (status : WithdrawalStatus)
    (update : WithdrawalUpdate) (cashout dest : Wallet) (category : Category)
    (description : Option String) (lost : Error) :
    Goes R (transitionWithLeg t w status update cashout dest category description lost) :=
  h.goes_bind h.goes_now fun _ => h.goes_bind (h.call _ rfl) fun _ =>
    h.goes_bind (h.goes_orRefuse _ _) fun _ => h.goes_bind (h.goes_orAbort _) fun _ =>
      h.goes_bind (h.goes_postOrRevert w status _) fun _ => h.goes_bind (h.call _ rfl) fun _ =>
        h.goes_pure _

theorem goes_decision (h : CarriesPosts t R) (d : Decision) : Goes R (d.run t) := by
  cases d with
  | accept c =>
    refine h.goes_bind (h.goes_requireWithdrawal _) fun w => ?_
    exact h.goes_bind (h.goes_require _ _) fun _ =>
      h.goes_bind (h.goes_loadWallet _) fun _ => h.goes_bind (h.goes_requireOwner _) fun _ =>
        h.goes_bind (h.goes_findOrCreateWallet _ _ _) fun _ =>
          h.goes_transitionWithLeg w _ _ _ _ _ _ _
  | cancel uuid id =>
    refine h.goes_bind (h.goes_requireWithdrawal _) fun w => ?_
    exact h.goes_bind (h.goes_require _ _) fun _ =>
      h.goes_bind (h.goes_require _ _) fun _ => h.goes_bind (h.goes_requireOwner _) fun _ =>
        h.goes_bind (h.goes_loadWallet _) fun _ =>
          h.goes_bind (h.goes_findOrCreateWallet _ _ _) fun _ =>
            h.goes_transitionWithLeg w _ _ _ _ _ _ _
  | reject c =>
    refine h.goes_bind (h.goes_requireWithdrawal _) fun w => ?_
    exact h.goes_bind (h.goes_require _ _) fun _ =>
      h.goes_bind (h.goes_loadWallet _) fun _ => h.goes_bind (h.goes_requireOwner _) fun _ =>
        h.goes_bind (h.goes_findOrCreateWallet _ _ _) fun _ =>
          h.goes_transitionWithLeg w _ _ _ _ _ _ _

theorem goes_withdrawManually (h : CarriesPosts t R) (c : ManualWithdrawal) :
    Goes R (withdrawManually t c) := by
  unfold withdrawManually
  refine h.goes_bind (h.goes_requireActive _) fun _ => h.goes_bind (h.goes_ofExcept _) fun _ =>
    h.goes_bind (h.goes_requireOwner _) fun _ => h.goes_bind (h.goes_requireWallet _ _ _) fun _ =>
    h.goes_bind (h.goes_findOrCreateOwner _) fun _ =>
    h.goes_bind (h.goes_findOrCreateWallet _ _ _) fun _ => ?_
  exact h.goes_bind (h.post _ _) fun posted => h.goes_bind (h.goes_recordOnce _) fun _ =>
    h.goes_pure posted

end CarriesPosts

end Ledger

/-! ## 7. Operations and acts -/

/-- **Operations that a service carries out,** or that change nothing in the stores. The other two
set up the circumstances of later ones. -/
def Operation.IsService : Operation → Prop
  | .inject _ => False
  | .arm _ => False
  | _ => True

/-- An act that does not set up the circumstances of later ones. -/
def Act.IsService : Act → Prop
  | .serve op => op.IsService
  | _ => True

namespace Ledger.CarriesPosts

variable {t : Terms} {R : Ledger (Faulty Memory) → Ledger (Faulty Memory) → Prop}

/-- **Every service goes along a relation that carries calls and postings.** -/
theorem goes_run (h : CarriesPosts t R) {op : Operation} (hop : op.IsService) :
    Goes R (op.run t) := by
  cases op with
  | createOwner => exact h.goes_discard (h.goes_createOwner _ _ _)
  | setPermissions => exact h.goes_discard (h.call _ rfl)
  | createWallet =>
    exact h.goes_bind (h.goes_requireOwner _) fun _ => h.goes_discard (h.goes_createWallet _ _ _)
  | mutateBalance => exact h.goes_discard (h.goes_mutateBalance t _ _)
  | registerCurrency | setActive => exact h.call _ rfl
  | addTransitive =>
    exact h.goes_bind (h.goes_setTransitive true _) fun _ => h.goes_forgetGraph
  | deleteTransitive => exact h.goes_discard (h.goes_deleteTransitive _)
  | addRate => exact h.goes_addRate _ _
  | updateRate => exact h.goes_discard (h.goes_updateRate _)
  | deleteRate => exact h.goes_discard (h.goes_write rfl rfl)
  | forbid => exact h.goes_bind (h.call _ rfl) fun _ => h.goes_forgetGraph
  | allow => exact h.goes_discard (h.goes_write rfl rfl)
  | quote => exact h.goes_discard (h.goes_quote t _ _ _)
  | transfer | depositManually => exact h.goes_discard (h.goes_transfer _)
  | deposit => exact h.goes_discard (h.goes_deposit _ _ _ _ _ _)
  | reserve => exact h.goes_discard (h.goes_reserve t _)
  | advance => exact h.goes_discard (h.goes_advanceReservation _ _ _ _)
  | cancel => exact h.goes_discard (h.goes_cancelReservation _ _)
  | sweep => exact h.goes_discard (h.goes_sweep _)
  | recover => exact h.goes_discard (h.goes_recover _)
  | request => exact h.goes_discard (h.goes_requestWithdrawal _)
  | process => exact h.goes_discard (h.goes_processWithdrawal _)
  | decide => exact h.goes_discard (h.goes_decision _)
  | withdrawManually => exact h.goes_discard (h.goes_withdrawManually _)
  | setPolicy | elapse => exact fun _ => h.beside rfl rfl
  | inject | arm => exact hop.elim

/-- **So does every act.** -/
theorem goes_act (h : CarriesPosts t R) {a : Act} (ha : a.IsService) : Goes R (a.run t) := by
  cases a with
  | serve op => exact h.goes_run ha
  | post access mv => exact h.goes_discard (h.post access mv)
  | openWallet => exact h.goes_discard (h.goes_createWallet _ _ _)
  | takeWallet => exact h.goes_discard (h.goes_findOrCreateWallet _ _ _)
  | resume r => exact h.goes_discard (h.goes_resume r)

end Ledger.CarriesPosts

end WalletLedger
