/-
Why a transfer that is asked for again is answered and not made again.

A posting that stands in the log is found under its reference, whatever happens after it, and so are
the two wallets that it names and the number of fractional digits that its amount was checked
against. `Memory.Records` gathers these facts: they hold when a transfer with a reference has a
receipt (`ends_transfer_records`), and no write takes any of them back (`Writes.records`). They are
just what a second request is held against before anything is computed, so a request that repeats
the first gets the first one's receipt without a single write, and the funds of the sender are not
looked at (`Records.answers`).

A request that bears the reference and is not the same movement is refused: the same posting would
have to record both (`Records.repeats`).
-/
import WalletLedger.Proofs.Delivery

set_option autoImplicit false

namespace WalletLedger

open WalletLedger.Action

/-! ## 1. What is recorded of a request -/

/-- **A request that repeats another one:** the same movement under the same reference. Its amount
may be written with another scale, and it may be described in other words. -/
structure TransferRequest.Repeats (r' r : TransferRequest) : Prop where
  symbol : r'.symbol = r.symbol
  senderUuid : r'.senderUuid = r.senderUuid
  senderKind : r'.senderKind = r.senderKind
  receiverUuid : r'.receiverUuid = r.receiverUuid
  receiverKind : r'.receiverKind = r.receiverKind
  amount : r'.amount.toRat = r.amount.toRat
  ref : r'.ref = r.ref
  category : r'.category = r.category

/-- **A request is recorded by a posting,** which is found under its reference and says what the
request says. -/
structure Memory.Records (m : Memory) (r : TransferRequest) (p : Posting) : Prop where
  found : r.ref.bind m.wallets.byRef? = some p
  kinds : (r.senderKind ≠ .cashout && r.receiverKind ≠ .cashout) = true
  positive : 0 < r.amount.toRat
  precision : ∃ n, m.HasPrecision r.symbol n ∧ r.amount.OnGrid n
  source : m.Files (r.senderUuid, r.senderKind) r.symbol p.source.walletId
  dest : m.Files (r.receiverUuid, r.receiverKind) r.symbol p.dest.walletId
  distinct : p.source.walletId ≠ p.dest.walletId
  taken : p.source.amount.same ⟨r.symbol, r.amount⟩ = true
  given : p.dest.amount.same ⟨r.symbol, r.amount⟩ = true
  category : p.category = r.category

theorem Amount.same_iff (a b : Amount) :
    a.same b = true ↔ a.currency = b.currency ∧ a.value.toRat = b.value.toRat := by
  rw [same, Bool.and_eq_true, beq_iff_eq, Decimal.sameValue_iff]

theorem Movement.isRecordedBy_iff (mv : Movement) (p : Posting) :
    mv.isRecordedBy p = true ↔ p.source.walletId = mv.source.id ∧ p.dest.walletId = mv.dest.id ∧
      p.source.amount.same mv.sourceAmount = true ∧ p.dest.amount.same mv.destAmount = true ∧
        p.category = mv.category := by
  simp only [isRecordedBy, Bool.and_eq_true, beq_iff_eq, and_assoc]

namespace Memory

variable {m m' : Memory} {r r' : TransferRequest} {p : Posting}

/-- **What is recorded stays recorded,** whatever is written. -/
theorem Writes.records {f : Effect → Prop} (h : m.Writes f m') (hp : m.Records r p) :
    m'.Records r p := by
  refine h.preserves (I := fun m => m.Records r p) (fun m e m' _ hc hm => ?_) hp
  obtain ⟨n, hn, hgrid⟩ := hm.precision
  obtain ⟨ref, href, hfound⟩ := Option.bind_eq_some_iff.1 hm.found
  exact
    { hm with
      found := Option.bind_eq_some_iff.2 ⟨ref, href, hc.byRef? hfound⟩
      precision := ⟨n, hc.hasPrecision hn, hgrid⟩
      source := hc.files hm.source
      dest := hc.files hm.dest }

/-- The posting records every request that repeats the one that it records. -/
theorem Records.of_repeats (hp : m.Records r p) (h : r'.Repeats r) : m.Records r' p := by
  obtain ⟨hsymbol, hsender, hsenderKind, hreceiver, hreceiverKind, hamount, href, hcategory⟩ := h
  obtain ⟨n, hn, hgrid⟩ := hp.precision
  have hsame : ∀ a : Amount, a.same ⟨r.symbol, r.amount⟩ = true →
      a.same ⟨r'.symbol, r'.amount⟩ = true := by
    intro a ha
    rw [Amount.same_iff] at ha ⊢
    exact ⟨ha.1.trans hsymbol.symm, ha.2.trans hamount.symm⟩
  exact
    { found := href ▸ hp.found
      kinds := by rw [hsenderKind, hreceiverKind]; exact hp.kinds
      positive := hamount ▸ hp.positive
      precision := ⟨n, hsymbol ▸ hn, by rw [Decimal.OnGrid, hamount]; exact hgrid⟩
      source := by rw [hsymbol, hsender, hsenderKind]; exact hp.source
      dest := by rw [hsymbol, hreceiver, hreceiverKind]; exact hp.dest
      distinct := hp.distinct
      taken := hsame _ hp.taken
      given := hsame _ hp.given
      category := hp.category.trans hcategory.symm }

/-- A wallet is the wallet of one account. -/
theorem Files.account_eq (hm : m.Sound) {account account' : String × WalletKind}
    {symbol symbol' : String} {id : Int} (h : m.Files account symbol id)
    (h' : m.Files account' symbol' id) : account = account' := by
  obtain ⟨w, ⟨o, ho, hw⟩, rfl⟩ := h
  obtain ⟨x, ⟨o', ho', hx⟩, hid⟩ := h'
  obtain ⟨hwmem, hwkey⟩ := hm.wallets.key_of_find? hw
  obtain ⟨hxmem, hxkey⟩ := hm.wallets.key_of_find? hx
  have heq : w = x := by
    have hfound := hm.wallets.wallet?_of_mem hxmem
    rw [hid, hm.wallets.wallet?_of_mem hwmem] at hfound
    exact Option.some.inj hfound
  have huuid := hm.wallets.ownerUuid_eq hwmem (Ledger.hasOwner_of_owner? ho).1
    (congrArg WalletKey.ownerId hwkey)
  have huuid' := hm.wallets.ownerUuid_eq hxmem (Ledger.hasOwner_of_owner? ho').1
    (congrArg WalletKey.ownerId hxkey)
  have hkind : w.kind = account.2 := congrArg WalletKey.kind hwkey
  have hkind' : x.kind = account'.2 := congrArg WalletKey.kind hxkey
  rw [(Ledger.hasOwner_of_owner? ho).2] at huuid
  rw [(Ledger.hasOwner_of_owner? ho').2] at huuid'
  exact Prod.ext (by rw [← huuid, ← huuid', heq]) (by rw [← hkind, ← hkind', heq])

/-- **One posting does not record two movements.** -/
theorem Records.repeats (hm : m.Sound) (hp : m.Records r p) (hp' : m.Records r' p)
    (href : r'.ref = r.ref) : r'.Repeats r := by
  have hsender := Files.account_eq hm hp'.source hp.source
  have hreceiver := Files.account_eq hm hp'.dest hp.dest
  have htaken := (Amount.same_iff _ _).1 hp.taken
  have htaken' := (Amount.same_iff _ _).1 hp'.taken
  exact
    { symbol := htaken'.1.symm.trans htaken.1
      senderUuid := congrArg Prod.fst hsender
      senderKind := congrArg Prod.snd hsender
      receiverUuid := congrArg Prod.fst hreceiver
      receiverKind := congrArg Prod.snd hreceiver
      amount := htaken'.2.symm.trans htaken.2
      ref := href
      category := hp'.category.symm.trans hp.category }

end Memory

namespace Ledger

variable {l l₁ l' : Ledger (Faulty Memory)} {t : Terms} {r r' : TransferRequest} {p : Posting}

/-! ## 2. A receipt is of a posting that records the request -/

/-- What is posted at all has passed the checks. -/
theorem ends_post_checked {access : Access} {mv : Movement} :
    (post t access mv).Ends (fun _ _ => mv.check = .ok ()) (fun _ _ => True) l := by
  unfold post
  refine (Still.refl l).next still_ofExcept (fun _ _ _ => trivial) fun _ l₁ _ checked => ?_
  exact ends_iff.2 ⟨fun _ _ => checked, fun _ _ => trivial⟩

/-- A posting of the movement that a request was prepared to records the request. -/
theorem Prepared.records {mv : Movement} (h : l.Prepared r mv l₁) (hl : l.memory.Sound)
    (checked : mv.check = .ok ()) (same : mv.isRecordedBy p = true) {f : Effect → Prop}
    (hmoves : l₁.Evolves f l') (found : r.ref.bind l'.memory.wallets.byRef? = some p) :
    l'.memory.Records r p := by
  obtain ⟨hsource, hdest, htaken, hgiven, hcategory⟩ := (mv.isRecordedBy_iff p).1 same
  obtain ⟨c, hc, -, ha⟩ := h.currency
  obtain ⟨-, hpositive, hgrid⟩ := Currency.checkedAmount_eq_ok_iff.1 ha
  have hprecision : l.memory.HasPrecision r.symbol c.precision := ⟨c, hc, rfl⟩
  have heven := h.served.even
  rw [h.sourceAmount] at htaken heven
  rw [heven] at hgiven
  exact
    { found, kinds := h.kinds
      positive := hpositive
      precision := ⟨c.precision, hmoves.preserves (fun _ _ _ _ hc => hc.hasPrecision)
        (h.moved.preserves (fun _ _ _ _ hc => hc.hasPrecision) hprecision), hgrid⟩
      source := hmoves.files ⟨mv.source, h.source, hsource.symm⟩
      dest := hmoves.files ⟨mv.dest, h.dest hl, hdest.symm⟩
      distinct := by rw [hsource, hdest]; exact Movement.check_ne checked
      taken := htaken
      given := hgiven
      category := hcategory.trans (by rw [h.movement]; rfl) }

/-- The record of a movement that was posted is found under its reference. -/
theorem Posted.found {access : Access} {mv : Movement} (h : l.Posted access mv p l')
    (hl : l'.memory.Sound) {ref : String} (href : mv.ref = some ref) :
    l'.memory.wallets.byRef? ref = some p ∧ mv.isRecordedBy p = true := by
  have hpref := h.ref.trans href
  obtain ⟨table, hposts, hm⟩ := h.made
  have hmem : p ∈ l'.memory.wallets.log := by
    rw [hm]
    show p ∈ table.log
    rw [hposts.log]
    exact List.mem_append_right _ (List.mem_singleton_self p)
  refine ⟨hl.wallets.byRef?_of_mem hmem hpref, (mv.isRecordedBy_iff p).2 ?_⟩
  cases hposts with
  | made source dest _ _ _ _ _ hsource hdest =>
    exact ⟨WalletTable.wallet?_id hsource, WalletTable.wallet?_id hdest,
      (Amount.same_iff _ _).2 ⟨rfl, rfl⟩, (Amount.same_iff _ _).2 ⟨rfl, rfl⟩, rfl⟩

/-- **A transfer with a reference that has a receipt is recorded,** and the receipt is that of its
record. -/
theorem ends_transfer_records (hl : l.memory.Sound) {ref : String} (href : r.ref = some ref) :
    (transfer t r).Ends (fun receipt l' => ∃ p, receipt = p.receipt ∧ l'.memory.Records r p)
      (fun _ _ => True) l := by
  refine ends_transfer_prepared r (fun _ _ _ => trivial) fun mv l₁ hprepared => ?_
  refine Ends.mono (ends_post.and ends_post_checked) (fun receipt l₂ hdone => ?_)
    fun _ _ _ => trivial
  obtain ⟨hreceives, checked⟩ := hdone
  have hmv : mv.ref = some ref := hprepared.ref.trans href
  cases hreceives with
  | replayed p _ earlier same waits =>
    refine ⟨p, rfl, hprepared.records hl checked same waits ?_⟩
    rw [href, Option.bind_some, waits.byRef?_eq]
    rw [hmv, Option.bind_some] at earlier
    exact earlier
  | made p l₃ _ waits posted =>
    have hserved : l₃.Served mv := hprepared.served.evolves waits
    have hmoves : l₁.Evolves (fun _ => True) l₂ :=
      (waits.evolves trivial).trans (posted.evolves trivial hserved)
    obtain ⟨found, same⟩ := posted.found (hmoves.sound (hprepared.moved.sound hl)) hmv
    refine ⟨p, rfl, hprepared.records hl checked same hmoves ?_⟩
    rw [href]
    exact found

/-! ## 3. Asking again -/

/-- **Under a reference that is taken nothing is posted,** whatever the request says. -/
theorem ends_transfer_taken (hp : r.ref.bind l.memory.wallets.byRef? = some p) :
    (transfer t r).Ends (fun _ l' => l.Evolves Effect.Quiet l')
      (fun _ l' => l.Evolves Effect.Quiet l') l := by
  refine ends_transfer_prepared r (fun _ _ => id) fun mv l₁ hprepared => ?_
  have htaken : mv.ref.bind l₁.memory.wallets.byRef? = some p := by
    rw [hprepared.ref, hprepared.moved.byRef?_of_quiet, hp]
  -- A posting would have found its reference unused.
  have hunposted : ∀ q l₂ l₃, l₁.Waits l₂ → ¬l₂.Posted .generic mv q l₃ := by
    rintro q l₂ l₃ hwaits ⟨-, table, hposts, -⟩
    cases hposts with
    | made _ _ _ _ _ _ _ _ _ _ _ _ unused =>
      rw [hwaits.quiet.byRef?_of_quiet, htaken] at unused
      cases unused
  refine Ends.mono ends_post (fun receipt l' hreceives => ?_) fun _ l' hfails => ?_
  · cases hreceives with
    | replayed q _ _ _ waits => exact hprepared.moved.trans waits.quiet
    | made q l₂ _ waits posted => exact absurd posted (hunposted q l₂ l' waits)
  · cases hfails with
    | refused _ waits => exact hprepared.moved.trans waits.quiet
    | struck q l₂ _ _ waits posted => exact absurd posted (hunposted q l₂ l' waits)

/-- Getting ready leaves every wallet that is there as it is. -/
theorem Evolves.wallets_of_quiet (h : l.Evolves Effect.Quiet l') :
    l.memory.wallets.wallets <+: l'.memory.wallets.wallets := by
  refine h.preserves (I := fun m => l.memory.wallets.wallets <+: m.wallets.wallets)
    (fun m e m' he hc hm => ?_) List.prefix_rfl
  cases hc with
  | wallet _ hcreate =>
    obtain ⟨-, -, -, -, rfl⟩ := WalletTable.createWallet_eq hcreate
    exact hm.trans (List.prefix_append _ _)
  | conflict hconflict =>
    obtain ⟨n, -, rfl⟩ := WalletTable.takeConflict?_eq hconflict
    exact hm
  | owner hcreate =>
    obtain ⟨-, -, rfl⟩ := WalletTable.createOwner_eq hcreate
    exact hm
  | flags hset =>
    obtain rfl := WalletTable.setFlags_eq hset
    exact hm
  | _ => cases he

/-- **A request that is recorded is answered from the record,** if its currency is active and the
stores do not fail. Nothing is written, and what the sender could pay does not matter. -/
theorem Sure.answers_transfer (h : l.Sure) (hl : l.memory.Sound) (hp : l.memory.Records r p)
    {c : Currency} (hc : l.memory.currencies.find? r.symbol = some c) (active : c.isActive = true) :
    (transfer t r).Answers p.receipt l := by
  obtain ⟨source, ⟨sender, hsender, hsource⟩, hsourceId⟩ := hp.source
  obtain ⟨dest, ⟨receiver, hreceiver, hdest⟩, hdestId⟩ := hp.dest
  obtain ⟨n, ⟨c', hc', hn⟩, hgrid⟩ := hp.precision
  obtain rfl : c = c' := Option.some.inj (hc.symm.trans hc')
  have hsymbol := CurrencyTable.find?_symbol hc
  have hsourceKey := (hl.wallets.key_of_find? hsource).2
  have hdestKey := (hl.wallets.key_of_find? hdest).2
  have hamount : c.checkedAmount r.amount = .ok ⟨r.symbol, r.amount⟩ :=
    Currency.checkedAmount_eq_ok_iff.2 ⟨by rw [hsymbol], hp.positive, hn ▸ hgrid⟩
  have hchecked : (Movement.ofAmount source dest ⟨r.symbol, r.amount⟩ r.category r.description
      r.ref).check = .ok () :=
    Movement.check_ofAmount ((Decimal.isPositive_iff _).2 hp.positive)
      (by rw [hsourceId, hdestId]; exact hp.distinct) (congrArg WalletKey.currency hsourceKey).symm
      (congrArg WalletKey.currency hdestKey).symm
  have hallowed : Access.generic.check source dest = .ok () := by
    have hsourceKind : source.kind = r.senderKind := congrArg WalletKey.kind hsourceKey
    have hdestKind : dest.kind = r.receiverKind := congrArg WalletKey.kind hdestKey
    have hkinds := hp.kinds
    rw [Access.check, hsourceKind, hdestKind]
    revert hkinds
    cases r.senderKind <;> cases r.receiverKind <;> decide
  have hreplay : (Movement.ofAmount source dest ⟨r.symbol, r.amount⟩ r.category r.description
      r.ref).replay p = .ok p.receipt := by
    rw [Movement.replay, if_pos ((Movement.isRecordedBy_iff _ p).2
      ⟨hsourceId.symm, hdestId.symm, hp.taken, hp.given, hp.category⟩)]
  rw [← hsymbol] at hsource hdest
  -- Everything is there, and the reference is looked up before anything is computed.
  unfold transfer
  refine (answers_require hp.kinds).bind ((h.answers_requireActive hc active).bind ?_)
  refine (answers_ofExcept hamount).bind ((h.answers_requireOwner hsender).bind ?_)
  refine (h.answers_requireWallet hsource).bind ((h.answers_findOrCreateOwner hreceiver).bind ?_)
  refine (h.answers_findOrCreateWallet hdest).bind ?_
  unfold post
  refine (answers_ofExcept hchecked).bind ((answers_ofExcept hallowed).bind ?_)
  refine Answers.bind (v := some p) ?_ (answers_ofExcept hreplay)
  exact hp.found ▸ h.answers_earlierPosting _

/-! ## 4. Once and for all -/

theorem sound_transfer (hl : l.memory.Sound) (r : TransferRequest) :
    ((transfer t r).runIn l).2.memory.Sound :=
  (within_transfer (f := fun _ => True) r ⟨fun _ _ => trivial, fun _ _ => trivial⟩).moves.sound hl

/-- Along a run what is recorded stays recorded. -/
theorem records_runAll (ops : List Operation) (hl : l.memory.Sound) (hp : l.memory.Records r p) :
    (Operation.runAll t l ops).memory.Records r p := by
  induction ops generalizing l with
  | nil => exact hp
  | cons op ops ih => exact ih (sound_after op hl) ((op.writes_after hl).records hp)

/-- **A reference is posted once.** No two postings of the log bear one reference. A transfer that
had a receipt gets the same receipt whenever it is asked for again while its currency is active and
the stores do not fail, whatever was done in between, and the ledger stays exactly as it is. And
under its reference nothing else is posted: whatever a request says that bears it, and whatever
calls fail, no posting is made and no wallet is changed, and it has a receipt only if it repeats the
first. -/
theorem transfer_once (h : l.Reachable t) :
    (∀ (i j : ℕ) (p q : Posting) (ref : String), l.memory.wallets.log[i]? = some p →
      l.memory.wallets.log[j]? = some q → p.ref = some ref → q.ref = some ref → i = j) ∧
    ∀ (r : TransferRequest) (ref : String) (receipt : Receipt), r.ref = some ref →
      ((transfer t r).runIn l).1 = .ok receipt → ∀ ops : List Operation,
      let l' := Operation.runAll t ((transfer t r).runIn l).2 ops
      (∀ r' : TransferRequest, r'.Repeats r → l'.Sure →
        (∃ c, l'.memory.currencies.find? r.symbol = some c ∧ c.isActive = true) →
        (transfer t r').runIn l' = (.ok receipt, l')) ∧
      ∀ r' : TransferRequest, r'.ref = some ref →
        ((transfer t r').runIn l').2.memory.wallets.log = l'.memory.wallets.log ∧
        l'.memory.wallets.wallets <+: ((transfer t r').runIn l').2.memory.wallets.wallets ∧
        ∀ receipt', ((transfer t r').runIn l').1 = .ok receipt' →
          r'.Repeats r ∧ receipt' = receipt := by
  refine ⟨fun i j p q ref hp hq hpref hqref => ?_, fun r ref receipt href hok ops => ?_⟩
  · have hi := h.sound.wallets.logged i p ref hp hpref
    exact Option.some.inj (hi.symm.trans (h.sound.wallets.logged j q ref hq hqref))
  obtain ⟨p, rfl, hrecords⟩ := (ends_transfer_records h.sound href).of_ok hok
  have hafter : ((transfer t r).runIn l).2.memory.Sound := sound_transfer h.sound r
  have hrecords := records_runAll (t := t) ops hafter hrecords
  have hsound := sound_runAll (t := t) ops hafter
  generalize Operation.runAll t ((transfer t r).runIn l).2 ops = l' at hrecords hsound
  refine ⟨fun r' hr' hsure ⟨c, hc, active⟩ => ?_, fun r' href' => ?_⟩
  · exact hsure.answers_transfer hsound (hrecords.of_repeats hr') (hr'.symbol.symm ▸ hc) active
  · have hsame : r'.ref = r.ref := href'.trans href.symm
    have hquiet : l'.Evolves Effect.Quiet ((transfer t r').runIn l').2 := by
      have htaken := ends_transfer_taken (t := t) (l := l') (r := r') (hsame ▸ hrecords.found)
      cases hresult : ((transfer t r').runIn l').1 with
      | ok receipt' => exact htaken.of_ok hresult
      | error stop => exact htaken.of_error hresult
    refine ⟨hquiet.log_of_quiet.1, hquiet.wallets_of_quiet, fun receipt' hok' => ?_⟩
    -- The posting that answers is the one that is recorded, and it records both requests.
    obtain ⟨q, rfl, hrecords'⟩ := (ends_transfer_records hsound href').of_ok hok'
    have hrecords := hquiet.writes.records hrecords
    obtain rfl : p = q := by
      have hfound := hrecords.found
      rw [← hsame, hrecords'.found] at hfound
      exact (Option.some.inj hfound).symm
    exact ⟨hrecords.repeats (hquiet.sound hsound) hrecords' hsame, rfl⟩

end Ledger

namespace Small

/-- The owner sends ten gold under a reference. -/
def once : TransferRequest := transfer "ann" "system" 10 (some "once")

/-- The same, with its amount written as `10.0` and another description. -/
def again : TransferRequest :=
  { once with amount := (Decimal.fit? 100 1).getD .zero, description := some "again" }

/-- Another amount under the same reference. -/
def other : TransferRequest := { once with amount := units 20 }

/-- The owner gives away the rest in between. -/
def spent : List Operation := [.transfer (transfer "ann" "system" 40 none)]

theorem again_repeats : again.Repeats once :=
  ⟨rfl, rfl, rfl, rfl, rfl, (Decimal.sameValue_iff _ _).1 (by decide +kernel), rfl, rfl⟩

end Small

open WalletLedger.Small in
/-- The transfer is asked for again when the owner has no gold left; under its reference another
amount is not posted. -/
theorem Ledger.transfer_once_small :
    ledger.Reachable terms ∧ again.Repeats once ∧
      ∃ receipt, ((Ledger.transfer terms once).runIn ledger).1 = .ok receipt ∧
        let l' := Operation.runAll terms ((Ledger.transfer terms once).runIn ledger).2 spent
        l'.memory.wallets.log.length = 2 ∧
        l'.memory.wallets.wallet? 3 = some ⟨3, 2, "ann", "GOLD", .main, units 0, 2⟩ ∧
        (Ledger.transfer terms again).runIn l' = (.ok receipt, l') ∧
        ((Ledger.transfer terms other).runIn l').2.memory.wallets.log =
          l'.memory.wallets.log := by
  have hok : ((Ledger.transfer terms once).runIn ledger).1.isOk = true := by decide +kernel
  obtain ⟨receipt, hreceipt⟩ :
      ∃ receipt, ((Ledger.transfer terms once).runIn ledger).1 = .ok receipt := by
    cases h : ((Ledger.transfer terms once).runIn ledger).1 with
    | ok receipt => exact ⟨receipt, rfl⟩
    | error stop => rw [h] at hok; cases hok
  obtain ⟨hanswers, hunposted⟩ :=
    (transfer_once reachable).2 once "once" receipt rfl hreceipt spent
  refine ⟨reachable, again_repeats, receipt, hreceipt, by decide +kernel, by decide +kernel, ?_, ?_⟩
  · refine hanswers again again_repeats (sure_of_unarmed (by decide +kernel)) ⟨gold, ?_, rfl⟩
    decide +kernel
  · exact (hunposted other rfl).1

end WalletLedger
