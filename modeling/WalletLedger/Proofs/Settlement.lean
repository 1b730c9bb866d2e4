/-
What the log and the reservations say of each other.

A settlement is interrupted by any failure and taken up again later, so the state between two
operations holds settlements at every stage. `Memory.Tidy` says what is true at every stage. Of the
attempts that a reservation had before, all legs net out: there is no deposit, and what was taken
was returned. Of its present attempt, a deposit has its withdraw leg and no refund beside it. A
reservation is committed only with a deposit of its present attempt in the log.

The invariant looks at the log through references only. So a step is summed up by the references
that it adds (`Memory.Gains`), and the leg that a settlement posts next is the one question that the
invariant asks (`Memory.Admits`): a deposit needs the withdraw leg and no refund, and a refund needs
that there is no deposit.
-/
import WalletLedger.Proofs.LegRefs
import WalletLedger.Proofs.Tables

set_option autoImplicit false

namespace WalletLedger

/-! ## 1. Legs in the log -/

namespace Memory

variable {m m' : Memory}

/-- **A leg stands at a place of the log:** of a reservation, in one of the attempts that the source
of identifiers gives, after whatever reference the settlement was given. -/
def LegAt (m : Memory) (number : String) (n : Nat) (leg : Leg) (place : Nat) : Prop :=
  ∃ p settleRef, m.wallets.log[place]? = some p ∧
    p.ref = some (leg.ref settleRef number (m.ids.attempt n))

/-- The attempt has the leg. -/
def HasLeg (m : Memory) (number : String) (n : Nat) (leg : Leg) : Prop :=
  ∃ place, m.LegAt number n leg place

/-- **Settlements are atomic.** What is committed was taken once and paid once; what is not, and is
not being settled either, was not paid, and all that was taken was returned. No attempt both pays
the receiver and refunds the sender. -/
structure Atomic (m : Memory) : Prop where
  committed : ∀ r ∈ m.reservations.rows, r.status = .committed →
    (∃! place, ∃ n, m.LegAt r.number n .deposit place) ∧
      ∃! place, ∃ n, m.LegAt r.number n .withdraw place ∧ ¬m.HasLeg r.number n .refund
  idle : ∀ r ∈ m.reservations.rows, r.status ≠ .committed → r.settlement = none → ∀ n,
    ¬m.HasLeg r.number n .deposit ∧ (m.HasLeg r.number n .withdraw → m.HasLeg r.number n .refund)
  apart : ∀ r ∈ m.reservations.rows, ∀ n,
    ¬(m.HasLeg r.number n .deposit ∧ m.HasLeg r.number n .refund)

/-- Some posting bears the reference. -/
def Bears (m : Memory) (ref : String) : Prop := ∃ p ∈ m.wallets.log, p.ref = some ref

theorem hasLeg_iff {number : String} {n : Nat} {leg : Leg} :
    m.HasLeg number n leg ↔ ∃ settleRef, m.Bears (leg.ref settleRef number (m.ids.attempt n)) := by
  constructor
  · rintro ⟨place, p, settleRef, hp, href⟩
    exact ⟨settleRef, p, List.mem_of_getElem? hp, href⟩
  · rintro ⟨settleRef, p, hp, href⟩
    obtain ⟨place, hplace⟩ := List.getElem?_of_mem hp
    exact ⟨place, p, settleRef, hplace, href⟩

theorem bears_iff (hm : m.Sound) {ref : String} :
    m.Bears ref ↔ ∃ p, m.wallets.byRef? ref = some p :=
  hm.wallets.exists_byRef?_iff.symm

/-- One reference stands at one place. -/
theorem place_unique (hm : m.Sound) {i j : Nat} {p q : Posting} {ref : String}
    (hp : m.wallets.log[i]? = some p) (hq : m.wallets.log[j]? = some q) (hpref : p.ref = some ref)
    (hqref : q.ref = some ref) : i = j := by
  have hi := hm.wallets.logged i p ref hp hpref
  have hj := hm.wallets.logged j q ref hq hqref
  rw [hi] at hj
  exact Option.some.inj hj

/-! ## 2. The invariant -/

/-- **An attempt that is over:** nobody was paid, and what was taken was returned. -/
def NetsOut (m : Memory) (number : String) (n : Nat) : Prop :=
  ¬m.HasLeg number n .deposit ∧ (m.HasLeg number n .withdraw → m.HasLeg number n .refund)

/-- **A reservation agrees with the log.** -/
structure Settles (m : Memory) (r : Reservation) : Prop where
  number : ∃ k, r.number = m.ids.reservation k
  attempt : ∀ s, r.settlement = some s → ∃ i < m.claimed, s.attempt = m.ids.attempt (i + 1)
  /-- All legs of the present attempt begin with the settlement's reference. -/
  single : ∀ s, r.settlement = some s → ∀ (leg : Leg) settleRef,
    m.Bears (leg.ref settleRef r.number s.attempt) → settleRef = s.settleRef
  paid : ∀ s, r.settlement = some s → m.Bears (r.legRef s .deposit) →
    m.Bears (r.legRef s .withdraw) ∧ ¬m.Bears (r.legRef s .refund)
  past : ∀ n, (∀ s, r.settlement = some s → s.attempt ≠ m.ids.attempt n) → m.NetsOut r.number n
  committed : r.status = .committed → ∃ s, r.settlement = some s ∧ m.Bears (r.legRef s .deposit)

/-- **All reservations agree with the log,** and no leg in the log is of an unknown reservation or
of an attempt that was not given yet. -/
structure Tidy (m : Memory) : Prop where
  sound : m.Sound
  numbers : (m.reservations.rows.map (·.number)).Nodup
  known : ∀ (leg : Leg) settleRef k n,
    m.Bears (leg.ref settleRef (m.ids.reservation k) (m.ids.attempt n)) →
      m.HasNumber (m.ids.reservation k) ∧ ∃ i < m.claimed, m.ids.attempt (i + 1) = m.ids.attempt n
  rows : ∀ r ∈ m.reservations.rows, m.Settles r

theorem tidy_empty (ids : IdSource) : (Memory.empty ids).Tidy := by
  refine ⟨sound_empty ids, List.nodup_nil, fun leg settleRef k n hbears => ?_, fun r hr => ?_⟩
  · obtain ⟨p, hp, -⟩ := hbears
    exact absurd hp List.not_mem_nil
  · exact absurd hr List.not_mem_nil

theorem Tidy.find?_of_mem (h : m.Tidy) {r : Reservation} (hr : r ∈ m.reservations.rows) :
    m.reservations.find? r.number = some r :=
  WalletLedger.find?_of_mem Reservation.number h.numbers hr

/-- Two rows with one number are one row. -/
theorem Tidy.eq_of_number (h : m.Tidy) {r x : Reservation} (hr : r ∈ m.reservations.rows)
    (hx : x ∈ m.reservations.rows) (heq : x.number = r.number) : x = r := by
  have hfound := h.find?_of_mem hx
  rw [heq, h.find?_of_mem hr] at hfound
  exact (Option.some.inj hfound).symm

/-- A leg of the present attempt is the leg that the settlement posts. -/
theorem Settles.hasLeg_iff {r : Reservation} (h : m.Settles r) {s : Settlement}
    (hs : r.settlement = some s) {n : Nat} (hn : s.attempt = m.ids.attempt n) (leg : Leg) :
    m.HasLeg r.number n leg ↔ m.Bears (r.legRef s leg) := by
  rw [Memory.hasLeg_iff, ← hn]
  constructor
  · rintro ⟨settleRef, hbears⟩
    rw [h.single s hs leg settleRef hbears] at hbears
    exact hbears
  · intro hbears
    exact ⟨s.settleRef, hbears⟩

/-- An attempt either is the present one or nets out. -/
theorem Settles.present_or_netsOut {r : Reservation} (h : m.Settles r) (n : Nat) :
    (∃ s, r.settlement = some s ∧ s.attempt = m.ids.attempt n) ∨ m.NetsOut r.number n := by
  by_cases hpresent : ∃ s, r.settlement = some s ∧ s.attempt = m.ids.attempt n
  · exact .inl hpresent
  · exact .inr (h.past n fun s hs hn => hpresent ⟨s, hs, hn⟩)

/-- No attempt pays the receiver and refunds the sender. -/
theorem Settles.apart {r : Reservation} (h : m.Settles r) (n : Nat) :
    ¬(m.HasLeg r.number n .deposit ∧ m.HasLeg r.number n .refund) := by
  rintro ⟨hdeposit, hrefund⟩
  rcases h.present_or_netsOut n with ⟨s, hs, hn⟩ | hnets
  · rw [h.hasLeg_iff hs hn] at hdeposit hrefund
    exact (h.paid s hs hdeposit).2 hrefund
  · exact hnets.1 hdeposit

/-- **Where reservations agree with the log, settlements are atomic.** -/
theorem Tidy.atomic (h : m.Tidy) : m.Atomic := by
  refine ⟨fun r hr hstatus => ?_, fun r hr _ hnone n => ?_, fun r hr n => (h.rows r hr).apart n⟩
  · have hr' := h.rows r hr
    obtain ⟨s, hs, hdeposit⟩ := hr'.committed hstatus
    obtain ⟨i, -, hi⟩ := hr'.attempt s hs
    obtain ⟨hwithdraw, hrefund⟩ := hr'.paid s hs hdeposit
    -- At every place where such a leg stands, it is the leg of the present attempt.
    have hunique : ∀ (leg : Leg) n place, m.LegAt r.number n leg place → ¬m.NetsOut r.number n →
        ∃ p, m.wallets.log[place]? = some p ∧ p.ref = some (r.legRef s leg) := by
      rintro leg n place ⟨p, settleRef, hp, href⟩ hnets
      rcases hr'.present_or_netsOut n with ⟨s', hs', hn⟩ | hnets'
      · obtain rfl : s' = s := Option.some.inj (hs'.symm.trans hs)
        rw [← hn] at href
        rw [hr'.single s' hs leg settleRef ⟨p, List.mem_of_getElem? hp, href⟩] at href
        exact ⟨p, hp, href⟩
      · exact absurd hnets' hnets
    constructor
    · obtain ⟨place, hplace⟩ := (hr'.hasLeg_iff hs hi .deposit).2 hdeposit
      refine ⟨place, ⟨i + 1, hplace⟩, ?_⟩
      rintro other ⟨n, hother⟩
      obtain ⟨p, hp, hpref⟩ := hunique .deposit n other hother fun hnets => hnets.1 ⟨other, hother⟩
      obtain ⟨q, hq, hqref⟩ := hunique .deposit _ place hplace fun hnets => hnets.1 ⟨place, hplace⟩
      exact place_unique h.sound hp hq hpref hqref
    · have hnot : ¬m.HasLeg r.number (i + 1) .refund := by
        rw [hr'.hasLeg_iff hs hi]
        exact hrefund
      obtain ⟨place, hplace⟩ := (hr'.hasLeg_iff hs hi .withdraw).2 hwithdraw
      refine ⟨place, ⟨i + 1, hplace, hnot⟩, ?_⟩
      rintro other ⟨n, hother, hn⟩
      obtain ⟨p, hp, hpref⟩ := hunique .withdraw n other hother fun hnets =>
        hn (hnets.2 ⟨other, hother⟩)
      obtain ⟨q, hq, hqref⟩ := hunique .withdraw _ place hplace fun hnets =>
        hnot (hnets.2 ⟨place, hplace⟩)
      exact place_unique h.sound hp hq hpref hqref
  · exact (h.rows r hr).past n fun s hs => by rw [hnone] at hs; cases hs

/-! ## 3. What the log gains -/

/-- **The log gains references,** and the reservations stay as they are. -/
structure Gains (m : Memory) (refs : String → Prop) (m' : Memory) : Prop where
  sound : m.Sound → m'.Sound
  ids : m'.ids = m.ids
  reservations : m'.reservations = m.reservations
  claimed : m'.claimed = m.claimed
  bears : ∀ ref, m'.Bears ref ↔ m.Bears ref ∨ refs ref

theorem Gains.trans {refs refs' : String → Prop} {m'' : Memory} (h : m.Gains refs m')
    (h' : m'.Gains refs' m'') : m.Gains (fun ref => refs ref ∨ refs' ref) m'' := by
  refine ⟨h'.sound ∘ h.sound, h'.ids.trans h.ids, h'.reservations.trans h.reservations,
    h'.claimed.trans h.claimed, fun ref => ?_⟩
  rw [h'.bears, h.bears, or_assoc]

/-- What the log bears already is no gain. -/
theorem Gains.congr {refs refs' : String → Prop} (h : m.Gains refs m')
    (hrefs : ∀ ref, m.Bears ref ∨ refs ref ↔ m.Bears ref ∨ refs' ref) : m.Gains refs' m' :=
  ⟨h.sound, h.ids, h.reservations, h.claimed, fun ref => (h.bears ref).trans (hrefs ref)⟩

/-- A reservation agrees with a log that bears the same references of its legs. -/
theorem Settles.congr {r : Reservation} (h : m.Settles r) (hids : m'.ids = m.ids)
    (hclaimed : m.claimed ≤ m'.claimed)
    (hbears : ∀ (leg : Leg) settleRef n, m'.Bears (leg.ref settleRef r.number (m.ids.attempt n)) ↔
      m.Bears (leg.ref settleRef r.number (m.ids.attempt n))) : m'.Settles r := by
  have hhas : ∀ n leg, m'.HasLeg r.number n leg ↔ m.HasLeg r.number n leg := by
    intro n leg
    rw [Memory.hasLeg_iff, Memory.hasLeg_iff, hids]
    exact exists_congr fun settleRef => hbears leg settleRef n
  have hpresent : ∀ s, r.settlement = some s → ∀ (leg : Leg) settleRef,
      m'.Bears (leg.ref settleRef r.number s.attempt) ↔
        m.Bears (leg.ref settleRef r.number s.attempt) := by
    intro s hs leg settleRef
    obtain ⟨i, -, hi⟩ := h.attempt s hs
    rw [hi]
    exact hbears leg settleRef (i + 1)
  refine ⟨hids ▸ h.number, fun s hs => ?_, fun s hs leg settleRef hleg => ?_, fun s hs hleg => ?_,
    fun n hn => ?_, fun hstatus => ?_⟩
  · obtain ⟨i, hlt, hi⟩ := h.attempt s hs
    exact ⟨i, hlt.trans_le hclaimed, hids ▸ hi⟩
  · exact h.single s hs leg settleRef ((hpresent s hs leg settleRef).1 hleg)
  · rw [Leg.legRef_eq, hpresent s hs] at hleg ⊢
    rw [Leg.legRef_eq, hpresent s hs]
    exact h.paid s hs hleg
  · rw [NetsOut, hhas, hhas, hhas]
    exact h.past n (hids ▸ hn)
  · obtain ⟨s, hs, hleg⟩ := h.committed hstatus
    refine ⟨s, hs, ?_⟩
    rw [Leg.legRef_eq, hpresent s hs]
    exact hleg

/-- **Postings that are no legs** leave the agreement alone. -/
theorem Tidy.gains_foreign {refs : String → Prop} (h : m.Tidy) (hg : m.Gains refs m')
    (hforeign : ∀ ref, refs ref → m.ids.Foreign ref) : m'.Tidy := by
  have hbears : ∀ (leg : Leg) settleRef number n,
      m'.Bears (leg.ref settleRef number (m.ids.attempt n)) ↔
        m.Bears (leg.ref settleRef number (m.ids.attempt n)) := by
    intro leg settleRef number n
    rw [hg.bears]
    refine or_iff_left fun hnew => ?_
    exact hforeign _ hnew settleRef number n leg rfl
  refine ⟨hg.sound h.sound, hg.reservations ▸ h.numbers, fun leg settleRef k n hleg => ?_,
    fun r hr => ?_⟩
  · rw [hg.ids, hbears] at hleg
    obtain ⟨⟨r, hr, hk⟩, hi⟩ := h.known leg settleRef k n hleg
    rw [hg.ids, hg.claimed]
    exact ⟨⟨r, hg.reservations ▸ hr, hk⟩, hi⟩
  · rw [hg.reservations] at hr
    exact (h.rows r hr).congr hg.ids hg.claimed.ge fun leg settleRef n =>
      hbears leg settleRef r.number n

/-- **When a leg may be posted.** -/
def Admits (m : Memory) (r : Reservation) (s : Settlement) : Leg → Prop
  | .withdraw => True
  | .deposit => m.Bears (r.legRef s .withdraw) ∧ ¬m.Bears (r.legRef s .refund)
  | .refund => ¬m.Bears (r.legRef s .deposit)

/-- The reference of a settlement's leg is read in one way. -/
theorem Settles.ref_inj (hplain : m.ids.Plain) {r : Reservation} (h : m.Settles r) {s : Settlement}
    (hs : r.settlement = some s) {leg other : Leg} {settleRef : String} {j i : Nat}
    (heq : other.ref settleRef (m.ids.reservation j) (m.ids.attempt i) = r.legRef s leg) :
    settleRef = s.settleRef ∧ m.ids.reservation j = r.number ∧ m.ids.attempt i = s.attempt ∧
      other = leg := by
  obtain ⟨k, hk⟩ := h.number
  obtain ⟨n, -, hn⟩ := h.attempt s hs
  refine Leg.ref_inj (hplain.attempt i) (hn ▸ hplain.attempt _) ?_ heq
  rw [hk]
  exact hplain.reservation j k

/-- A leg of another reservation does not matter. -/
theorem Settles.gains_other (hplain : m.ids.Plain) {r x : Reservation} (hx : m.Settles x)
    (hr : m.Settles r) {s : Settlement} (hs : r.settlement = some s) {leg : Leg}
    (hg : m.Gains (· = r.legRef s leg) m') (hne : x.number ≠ r.number) : m'.Settles x := by
  obtain ⟨j, hj⟩ := hx.number
  refine hx.congr hg.ids hg.claimed.ge fun other settleRef i => ?_
  rw [hg.bears]
  refine or_iff_left fun heq => ?_
  rw [hj] at heq hne
  exact hne (hr.ref_inj hplain hs heq).2.1

/-- The leg belongs to the present attempt, so the attempts before are as they were. -/
theorem Settles.hasLeg_gained (hplain : m.ids.Plain) {r : Reservation} (h : m.Settles r)
    {s : Settlement} (hs : r.settlement = some s) {leg : Leg}
    (hg : m.Gains (· = r.legRef s leg) m') {i : Nat} (hi : m.ids.attempt i ≠ s.attempt)
    (other : Leg) : m'.HasLeg r.number i other ↔ m.HasLeg r.number i other := by
  obtain ⟨k, hk⟩ := h.number
  rw [Memory.hasLeg_iff, Memory.hasLeg_iff, hg.ids]
  refine exists_congr fun settleRef => ?_
  rw [hg.bears]
  refine or_iff_left fun heq => ?_
  rw [hk] at heq
  exact hi (h.ref_inj hplain hs heq).2.2.1

/-- Nor are the other legs of the present attempt gained with it. -/
theorem Settles.bears_gained (hplain : m.ids.Plain) {r : Reservation} (h : m.Settles r)
    {s : Settlement} (hs : r.settlement = some s) {leg : Leg}
    (hg : m.Gains (· = r.legRef s leg) m') {other : Leg} (hne : other ≠ leg) :
    m'.Bears (r.legRef s other) ↔ m.Bears (r.legRef s other) := by
  obtain ⟨k, hk⟩ := h.number
  obtain ⟨n, -, hn⟩ := h.attempt s hs
  rw [hg.bears]
  refine or_iff_left fun heq => ?_
  rw [Leg.legRef_eq, hk, hn] at heq
  exact hne (h.ref_inj hplain hs heq).2.2.2

/-- A deposit has its withdraw leg and no refund beside it after an admitted leg as well. -/
theorem Settles.paid_gained (hplain : m.ids.Plain) {r : Reservation} (h : m.Settles r)
    {s : Settlement} (hs : r.settlement = some s) {leg : Leg} (hadmits : m.Admits r s leg)
    (hg : m.Gains (· = r.legRef s leg) m') (hdeposit : m'.Bears (r.legRef s .deposit)) :
    m'.Bears (r.legRef s .withdraw) ∧ ¬m'.Bears (r.legRef s .refund) := by
  have hother : ∀ other, other ≠ leg →
      (m'.Bears (r.legRef s other) ↔ m.Bears (r.legRef s other)) :=
    fun _ => h.bears_gained hplain hs hg
  cases leg with
  | withdraw =>
    rw [hother .deposit (by decide)] at hdeposit
    rw [hother .refund (by decide)]
    exact ⟨(hg.bears _).2 (.inr rfl), (h.paid s hs hdeposit).2⟩
  | deposit =>
    rw [hother .withdraw (by decide), hother .refund (by decide)]
    exact hadmits
  | refund =>
    rw [hother .deposit (by decide)] at hdeposit
    exact absurd hdeposit hadmits

/-- A leg of the reservation itself has to be admitted. -/
theorem Settles.gains_leg (hplain : m.ids.Plain) {r : Reservation} (h : m.Settles r)
    {s : Settlement} (hs : r.settlement = some s) {leg : Leg} (hadmits : m.Admits r s leg)
    (hg : m.Gains (· = r.legRef s leg) m') : m'.Settles r := by
  have hpresent : ∀ s', r.settlement = some s' → s' = s := by
    intro s' hs'
    rw [hs] at hs'
    exact (Option.some.inj hs').symm
  refine ⟨hg.ids ▸ h.number, ?_, fun s' hs' other settleRef hleg => ?_, fun s' hs' hdeposit => ?_,
    fun i hi => ?_, fun hstatus => ?_⟩
  · rw [hg.ids, hg.claimed]
    exact h.attempt
  · obtain rfl := hpresent s' hs'
    rcases (hg.bears _).1 hleg with hold | heq
    · exact h.single s' hs' other settleRef hold
    · obtain ⟨k, hk⟩ := h.number
      obtain ⟨n, -, hn⟩ := h.attempt s' hs'
      rw [hk, hn] at heq
      exact (h.ref_inj hplain hs heq).1
  · obtain rfl := hpresent s' hs'
    exact h.paid_gained hplain hs hadmits hg hdeposit
  · rw [hg.ids] at hi
    have hpast := h.hasLeg_gained hplain hs hg (hi s hs).symm
    rw [NetsOut, hpast, hpast, hpast]
    exact h.past i hi
  · obtain ⟨s', hs', hdeposit⟩ := h.committed hstatus
    exact ⟨s', hs', (hg.bears _).2 (.inl hdeposit)⟩

/-- **The next leg of a settlement** leaves the agreement alone if it may be posted. -/
theorem Tidy.gains_leg (hplain : m.ids.Plain) (h : m.Tidy) {r : Reservation}
    (hr : r ∈ m.reservations.rows) {s : Settlement} (hs : r.settlement = some s) {leg : Leg}
    (hadmits : m.Admits r s leg) (hg : m.Gains (· = r.legRef s leg) m') : m'.Tidy := by
  have hsettles := h.rows r hr
  refine ⟨hg.sound h.sound, hg.reservations ▸ h.numbers, fun other settleRef j i hleg => ?_,
    fun x hx => ?_⟩
  · rw [hg.ids, hg.bears] at hleg
    rw [hg.ids, hg.claimed]
    rcases hleg with hold | heq
    · obtain ⟨⟨x, hx, hj⟩, hi⟩ := h.known other settleRef j i hold
      exact ⟨⟨x, hg.reservations ▸ hx, hj⟩, hi⟩
    -- The new leg names the reservation and the attempt that it was posted for.
    · obtain ⟨n, hlt, hn⟩ := hsettles.attempt s hs
      obtain ⟨-, hj, hi, -⟩ := hsettles.ref_inj hplain hs heq
      exact ⟨⟨r, hg.reservations ▸ hr, hj.symm⟩, n, hlt, by rw [hi, hn]⟩
  · rw [hg.reservations] at hx
    by_cases hxr : x.number = r.number
    · obtain rfl := h.eq_of_number hr hx hxr
      exact hsettles.gains_leg hplain hs hadmits hg
    · exact (h.rows x hx).gains_other hplain hsettles hs hg hxr

/-! ## 4. Changes of a reservation -/

/-- A new reservation has no legs. -/
theorem Tidy.insert (h : m.Tidy) {r : Reservation} {t : ReservationTable} {k : Nat}
    (hinsert : m.reservations.insert r = .ok t) (hnumber : r.number = m.ids.reservation k)
    (hstatus : r.status = .reserved) (hsettlement : r.settlement = none) (reserved : Nat) :
    { m.withReservations t with reserved }.Tidy := by
  obtain ⟨hnone, rfl⟩ := ReservationTable.insert_eq hinsert
  have hnew : ∀ x ∈ m.reservations.rows, x.number ≠ r.number := by
    intro x hx heq
    have hfound := List.find?_eq_none.1 hnone x hx
    simp [heq] at hfound
  have hkept := Memory.hasNumber_insert hinsert
  refine ⟨⟨h.sound.1, h.sound.2, h.sound.3, h.sound.4⟩, ?_, fun leg settleRef j n hleg => ?_,
    fun x hx => ?_⟩
  · exact ReservationTable.Keyed.insert h.numbers hinsert
  · obtain ⟨hj, hi⟩ := h.known leg settleRef j n hleg
    exact ⟨hkept _ hj, hi⟩
  · rcases List.mem_append.1 hx with hx | hx
    · exact (h.rows x hx).congr rfl le_rfl fun _ _ _ => Iff.rfl
    · obtain rfl := List.mem_singleton.1 hx
      -- A leg of it in the log would be one of a reservation that is known.
      have hno : ∀ n leg, ¬m.HasLeg x.number n leg := by
        intro n leg hleg
        obtain ⟨settleRef, hbears⟩ := hasLeg_iff.1 hleg
        rw [hnumber] at hbears
        obtain ⟨⟨y, hy, heq⟩, -⟩ := h.known leg settleRef k n hbears
        exact hnew y hy (heq.trans hnumber.symm)
      refine ⟨⟨k, hnumber⟩, ?_, ?_, ?_, fun n _ => ⟨hno n _, fun hleg => absurd hleg (hno n _)⟩, ?_⟩
      · simp [hsettlement]
      · simp [hsettlement]
      · simp [hsettlement]
      · simp [hstatus]

theorem mem_amended {t : ReservationTable} {number : String} {g : Reservation → Reservation}
    {x : Reservation} (hx : x ∈ (t.amended number g).rows) :
    (x ∈ t.rows ∧ x.number ≠ number) ∨ ∃ y ∈ t.rows, y.number = number ∧ x = g y := by
  obtain ⟨y, hy, rfl⟩ := List.mem_map.1 hx
  split_ifs with hnumber
  · exact .inr ⟨y, hy, hnumber, rfl⟩
  · exact .inl ⟨hy, hnumber⟩

/-- **A change of one reservation** leaves the agreement alone if the new row agrees with the
log. -/
theorem Tidy.amend (h : m.Tidy) {r : Reservation} (hr : r ∈ m.reservations.rows)
    {g : Reservation → Reservation} (hg : ∀ x, (g x).number = x.number) {claimed : Nat}
    (hclaimed : m.claimed ≤ claimed)
    (hnew : { m.withReservations (m.reservations.amended r.number g) with claimed }.Settles (g r)) :
    { m.withReservations (m.reservations.amended r.number g) with claimed }.Tidy := by
  refine ⟨⟨h.sound.1, h.sound.2, h.sound.3, h.sound.4⟩, ?_, fun leg settleRef j n hleg => ?_,
    fun x hx => ?_⟩
  · exact ReservationTable.Keyed.amended h.numbers r.number hg
  · obtain ⟨⟨x, hx, hj⟩, i, hi, hn⟩ := h.known leg settleRef j n hleg
    refine ⟨⟨_, List.mem_map_of_mem hx, ?_⟩, i, hi.trans_le hclaimed, hn⟩
    split_ifs
    · exact (hg x).trans hj
    · exact hj
  · rcases mem_amended hx with ⟨hx, -⟩ | ⟨y, hy, hyr, rfl⟩
    · exact (h.rows x hx).congr rfl hclaimed fun _ _ _ => Iff.rfl
    · obtain rfl := h.eq_of_number hr hy hyr
      exact hnew

/-- No leg of an attempt that is new is in the log. -/
theorem Tidy.not_bears_fresh (h : m.Tidy) {r : Reservation} (hr : r ∈ m.reservations.rows)
    {s : Settlement} (hs : s.attempt = m.ids.attempt (m.claimed + 1))
    (hfresh : ∀ i < m.claimed, m.ids.attempt (i + 1) ≠ m.ids.attempt (m.claimed + 1)) (leg : Leg)
    (settleRef : String) : ¬m.Bears (leg.ref settleRef r.number s.attempt) := by
  intro hbears
  obtain ⟨k, hk⟩ := (h.rows r hr).number
  rw [hk, hs] at hbears
  obtain ⟨-, i, hi, heq⟩ := h.known leg settleRef k _ hbears
  exact hfresh i hi heq

/-- **Claiming** an idle reservation for an attempt that is new. -/
theorem Tidy.begin (h : m.Tidy) {r : Reservation} (hr : r ∈ m.reservations.rows)
    (hidle : r.settlement = none) (hstatus : r.status = .reserved) {s : Settlement}
    (hs : s.attempt = m.ids.attempt (m.claimed + 1))
    (hfresh : ∀ i < m.claimed, m.ids.attempt (i + 1) ≠ m.ids.attempt (m.claimed + 1)) :
    { m.withReservations (m.reservations.amended r.number fun x => { x with settlement := some s })
      with claimed := m.claimed + 1 }.Tidy := by
  have hsettles := h.rows r hr
  have hno := h.not_bears_fresh hr hs hfresh
  refine h.amend (g := fun x => { x with settlement := some s }) hr (fun _ => rfl) (Nat.le_succ _)
    ⟨hsettles.number, ?_, ?_, ?_, ?_, ?_⟩
  · rintro s' ⟨⟩
    exact ⟨m.claimed, Nat.lt_succ_self _, hs⟩
  · rintro s' ⟨⟩ leg settleRef hleg
    exact absurd hleg (hno leg settleRef)
  · rintro s' ⟨⟩ hdeposit
    exact absurd hdeposit (hno .deposit s.settleRef)
  · intro n _
    exact hsettles.past n (by simp [hidle])
  · intro hcommitted
    rw [hstatus] at hcommitted
    cases hcommitted

/-- **Giving a settlement up** whose attempt nets out. -/
theorem Tidy.clear (h : m.Tidy) {r : Reservation} (hr : r ∈ m.reservations.rows) {s : Settlement}
    (hs : r.settlement = some s) (hstatus : r.status = .reserved)
    (hdeposit : ¬m.Bears (r.legRef s .deposit))
    (hreturned : m.Bears (r.legRef s .withdraw) → m.Bears (r.legRef s .refund)) :
    (m.withReservations (m.reservations.amended r.number fun x =>
      { x with settlement := none })).Tidy := by
  have hsettles := h.rows r hr
  refine h.amend (g := fun x => { x with settlement := none }) hr (fun _ => rfl) le_rfl
    ⟨hsettles.number, ?_, ?_, ?_, fun n _ => ?_, ?_⟩
  · rintro s' ⟨⟩
  · rintro s' ⟨⟩
  · rintro s' ⟨⟩
  -- The attempt that was the present one is over now, and it nets out as the others do.
  · rcases hsettles.present_or_netsOut n with ⟨s', hs', hn⟩ | hnets
    · obtain rfl : s' = s := Option.some.inj (hs'.symm.trans hs)
      have hiff := hsettles.hasLeg_iff hs hn
      refine ⟨fun hleg => hdeposit ((hiff _).1 hleg), fun hleg => ?_⟩
      exact (hiff .refund).2 (hreturned ((hiff _).1 hleg))
    · exact hnets
  · intro hcommitted
    rw [hstatus] at hcommitted
    cases hcommitted

/-- **A new status,** which is that of a committed reservation only if the deposit was posted. -/
theorem Tidy.status (h : m.Tidy) {r : Reservation} (hr : r ∈ m.reservations.rows)
    (status : ReservationStatus)
    (hpaid : status = .committed → ∃ s, r.settlement = some s ∧ m.Bears (r.legRef s .deposit)) :
    (m.withReservations (m.reservations.amended r.number fun x => { x with status })).Tidy := by
  have hsettles := h.rows r hr
  exact h.amend (g := fun x => { x with status }) hr (fun _ => rfl) le_rfl ⟨hsettles.number,
    hsettles.attempt, hsettles.single, hsettles.paid, hsettles.past, hpaid⟩

/-! ## 5. Paid and refunded -/

/-- **Some attempt has paid the receiver and refunded the sender.** -/
def Doubled (m : Memory) : Prop :=
  ∃ number n, m.HasNumber number ∧ m.HasLeg number n .deposit ∧ m.HasLeg number n .refund

theorem Doubled.not_atomic (h : m.Doubled) : ¬m.Atomic := by
  obtain ⟨number, n, ⟨r, hr, rfl⟩, hdeposit, hrefund⟩ := h
  exact fun hatomic => hatomic.apart r hr n ⟨hdeposit, hrefund⟩

end Memory

/-! ## 6. Writes -/

/-- The effect puts the reference into the log. -/
def Effect.Logs (ref : String) : Effect → Prop
  | .transfer _ p => p.ref = some ref
  | .movement _ p => p.ref = some ref
  | _ => False

namespace Change

variable {m m' : Memory} {e : Effect}

theorem bears_iff (h : Change m e m') (ref : String) : m'.Bears ref ↔ m.Bears ref ∨ e.Logs ref := by
  have hposted : ∀ {access mv p table}, m.wallets.Posts access mv p table →
      ((∃ q ∈ table.log, q.ref = some ref) ↔ m.Bears ref ∨ p.ref = some ref) := by
    intro access mv p table hposts
    rw [hposts.log]
    simp only [List.mem_append, List.mem_singleton, or_and_right, exists_or, exists_eq_left]
    exact Iff.rfl
  by_cases he : e.IsPosting
  · cases h with
    | transfer hposts _ _ => exact hposted hposts
    | movement hposts => exact hposted hposts
    | _ => exact he.elim
  · have hnone : ¬e.Logs ref := by
      cases e with
      | transfer => exact absurd trivial he
      | movement => exact absurd trivial he
      | _ => exact id
    rw [Memory.Bears, (h.log he).1]
    exact (or_iff_left hnone).symm

/-- **A write that leaves the reservations alone** adds the reference of its posting, if any. -/
theorem gains (h : Change m e m') (he : e ≠ .reservation) : m.Gains e.Logs m' := by
  obtain ⟨hreservations, -, hclaimed⟩ := h.reservations he
  exact ⟨h.sound, h.ids, hreservations, hclaimed, h.bears_iff⟩

theorem doubled (h : Change m e m') (hm : m.Doubled) : m'.Doubled := by
  have hleg : ∀ {number n leg}, m.HasLeg number n leg → m'.HasLeg number n leg := by
    intro number n leg hleg
    obtain ⟨settleRef, hbears⟩ := Memory.hasLeg_iff.1 hleg
    rw [Memory.hasLeg_iff, h.ids]
    exact ⟨settleRef, (h.bears_iff _).2 (.inl hbears)⟩
  obtain ⟨number, n, hnumber, hdeposit, hrefund⟩ := hm
  exact ⟨number, n, h.hasNumber hnumber, hleg hdeposit, hleg hrefund⟩

end Change

/-- A change of one reservation leaves an attempt that was paid and refunded as it is. -/
theorem Memory.Doubled.amended {m : Memory} (h : m.Doubled) (number : String)
    {g : Reservation → Reservation} (hg : ∀ r, (g r).number = r.number) :
    (m.withReservations (m.reservations.amended number g)).Doubled :=
  (Change.reservation _ m.reserved m.claimed (hasNumber_amended number hg)).doubled h

end WalletLedger
