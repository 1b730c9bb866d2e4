/-
**What a row is read as.** A record is bound column by column when its row is inserted, and it is
read column by column, by name, by other code. The two agree on each kind of rows (`Lawful`): a row
that keeps what was bound is read as the record it was bound from, whatever other columns it has and
in whatever order. Only a zero changes on the way, and only in the number of digits it is written
with (`Decimal.plain`).

Some columns hold a number for one of a few values, and some hold an identifier. A row with a number
that no value has is refused, and so is a row with a malformed identifier, with one exception that
`rows_faithful_iff` tells exactly: a text of 26 digits for a number that is too large.
-/
import WalletLedger.Database.Reservations
import WalletLedger.Database.Withdrawals
import WalletLedger.Proofs.Decimal
import WalletLedger.Proofs.WrittenIds

set_option autoImplicit false

namespace WalletLedger

/-! ## 1. Plain zeros -/

/-- The decimal with the scale that a database gives to it: zero has none. -/
def Decimal.plain (d : Decimal) : Decimal := if d.isZero then .zero else d

theorem Decimal.toRat_plain (d : Decimal) : d.plain.toRat = d.toRat := by
  unfold plain
  split
  · next h => rw [toRat_zero, (isZero_iff d).1 h]
  · rfl

theorem Decimal.plain_of_ne_zero {d : Decimal} (h : d.toRat ≠ 0) : d.plain = d :=
  if_neg fun hzero => h ((isZero_iff d).1 hzero)

def Side.plain (s : Side) : Side :=
  { s with
    amount := { s.amount with value := s.amount.value.plain }
    balanceBefore := s.balanceBefore.plain
    balanceAfter := s.balanceAfter.plain }

def Posting.plain (p : Posting) : Posting :=
  { p with source := p.source.plain, dest := p.dest.plain }

def Reservation.plain (r : Reservation) : Reservation :=
  { r with sourceAmount := r.sourceAmount.plain, destAmount := r.destAmount.plain }

def Withdrawal.plain (w : Withdrawal) : Withdrawal :=
  { w with
    amount := w.amount.plain
    appliedFee := w.appliedFee.plain
    destAmount := w.destAmount.map Decimal.plain }

/-! ## 2. Columns -/

namespace Value

variable {column : String}

theorem asText_text (s : String) : asText column (.text s) = .ok s := rfl

theorem asInt_int (n : Int) : asInt column (.int n) = .ok n := rfl

theorem asTime_time (t : Instant) : asTime column (.time t) = .ok t := rfl

theorem asDecimal_ofDecimal (d : Decimal) : asDecimal column (.ofDecimal d) = .ok d.plain :=
  decimal_ofDecimal column d

theorem orNull_null {α : Type} (read : Reader α) : orNull read column .null = .ok none := rfl

theorem orNull_of_ne {α : Type} {read : Reader α} {v : Value} (h : v ≠ .null) :
    orNull read column v = (read column v).map some := by
  cases v with
  | null => contradiction
  | _ => rfl

theorem orNull_text (o : Option String) : orNull asText column (.ofOption .text o) = .ok o := by
  cases o <;> rfl

theorem orNull_decimal (o : Option Decimal) :
    orNull asDecimal column (.ofOption .ofDecimal o) = .ok (o.map Decimal.plain) := by
  cases o with
  | none => rfl
  | some d =>
    have hne : ofDecimal d ≠ .null := by
      unfold ofDecimal
      split <;> nofun
    rw [ofOption, orNull_of_ne hne, asDecimal_ofDecimal]
    rfl

end Value

namespace Row

section

variable {α β : Type} {r : Row} {column : String}

/-- **A row that keeps** some values under their columns, whatever else it has. -/
def Keeps (r bound : Row) : Prop := ∀ cv ∈ bound, r.value? cv.1 = some cv.2

/-- The values with another one for a column. -/
def put (bound : Row) (column : String) (v : Value) : Row :=
  bound.map fun cv => if cv.1 = column then (column, v) else cv

theorem mem_put {bound : Row} {v : Value} (h : (column, v) ∈ bound) (w : Value) :
    (column, w) ∈ bound.put column w :=
  List.mem_map.2 ⟨_, h, if_pos rfl⟩

theorem mem_put_of_ne {bound : Row} {column' : String} {v : Value} (h : (column', v) ∈ bound)
    (hne : column' ≠ column) (w : Value) : (column', v) ∈ bound.put column w :=
  List.mem_map.2 ⟨_, h, if_neg hne⟩

/-- **A row whose column, if it holds a number,** holds a known one. -/
def Knows (r : Row) (column : String) (known : Set Int) : Prop :=
  ∀ n, r.value? column = some (.int n) → n ∈ known

/-- **A row whose column, if it holds a text,** holds that of an identifier. -/
def Names (r : Row) (column : String) : Prop :=
  ∀ s, r.value? column = some (.text s) → TransferId.Legible s

theorem ok_bind (a : α) (f : α → Except Error β) : (Except.ok a >>= f) = f a := rfl

theorem bind_eq_ok {x : Except Error α} {f : α → Except Error β} {b : β} :
    x >>= f = .ok b ↔ ∃ a, x = .ok a ∧ f a = .ok b := by
  cases x <;> simp [bind, Except.bind]

theorem known_eq_ok {what shown : String} {o : Option α} {a : α} :
    known what shown o = .ok a ↔ o = some a := by
  cases o <;> simp [known]

theorem ofStored_eq_ok {s : String} {id : TransferId} :
    TransferId.ofStored s = .ok id ↔ TransferId.ofText? s = .ok id := by
  rw [TransferId.ofStored, known_eq_ok]
  cases TransferId.ofText? s <;> simp [Except.toOption]

theorem ofStored_text (id : TransferId) : TransferId.ofStored id.text = .ok id :=
  ofStored_eq_ok.2 (TransferId.ofText?_text id)

/-- A number that was read is that of a value. -/
theorem knows_of_read {ofId? : Int → Option α} {id : α → Int} {what shown : String} {n : Int}
    {a : α} (hid : ofId? n = some a ↔ id a = n) (hn : r.int column = .ok n)
    (ha : known what shown (ofId? n) = .ok a) : r.Knows column (Set.range id) := by
  intro m hm
  have hread : r.int column = .ok m := by rw [int, get, hm]; rfl
  obtain rfl : m = n := Except.ok.inj (hread.symm.trans hn)
  exact ⟨a, hid.1 (known_eq_ok.1 ha)⟩

theorem knows_of_kind {k : WalletKind} (h : WalletKind.ofRow r column = .ok k) :
    r.Knows column (Set.range WalletKind.id) := by
  obtain ⟨n, hn, hk⟩ := bind_eq_ok.1 h
  exact knows_of_read WalletKind.ofId?_eq_some hn hk

theorem names_of_read {s : String} {id : TransferId} (hs : r.text column = .ok s)
    (hid : TransferId.ofStored s = .ok id) : r.Names column := by
  intro s' hs'
  have hread : r.text column = .ok s' := by rw [text, get, hs']; rfl
  obtain rfl : s' = s := Except.ok.inj (hread.symm.trans hs)
  exact TransferId.read_iff.1 ⟨id, ofStored_eq_ok.1 hid⟩

theorem names_of_read? {o : Option String} {found : Option TransferId} (ho : r.text? column = .ok o)
    (hfound : o.mapM TransferId.ofStored = .ok found) : r.Names column := by
  intro s hs
  have hread : r.text? column = .ok (some s) := by rw [text?, get, hs]; rfl
  obtain rfl : some s = o := Except.ok.inj (hread.symm.trans ho)
  obtain ⟨id, hid, -⟩ := bind_eq_ok.1 hfound
  exact TransferId.read_iff.1 ⟨id, ofStored_eq_ok.1 hid⟩

end

end Row

/-! ## 3. Kinds of rows -/

/-- **A kind of rows:** what is bound for a record, how a row is read, which columns hold numbers of
a few values, and which hold identifiers. -/
structure Codec (α β : Type) where
  bound : α → Row
  read : Row → Except Error β
  /-- With the numbers that are known there, which are those of the values. -/
  numbered : List (String × Set Int)
  identified : List String

namespace Codec

variable {α β : Type} {c : Codec α β} {kept : α → β}

/-- **Reading agrees with binding** for a record and a row. `kept` is what is left of a record that
was bound. -/
structure Faithful (c : Codec α β) (kept : α → β) (a : α) (r : Row) : Prop where
  reads : r.Keeps (c.bound a) → c.read r = .ok (kept a)
  refuses_number : ∀ column ∈ c.numbered, ∀ n, r.value? column.1 = some (.int n) →
    n ∉ column.2 → ∃ e, c.read r = .error e
  refuses_id : ∀ column ∈ c.identified, ∀ s, r.value? column = some (.text s) →
    TransferId.Malformed s → ∃ e, c.read r = .error e

/-- **A row that is read** although an identifier in it is overlong. -/
def Misreads (c : Codec α β) (r : Row) : Prop :=
  ∃ column ∈ c.identified, ∃ s, r.value? column = some (.text s) ∧ TransferId.Overlong s ∧
    ∃ b, c.read r = .ok b

/-- **What holds of each kind of rows.** What is read has known numbers and legible identifiers, and
a row whose identifiers are legible is read if it keeps the rest of what was bound. -/
structure Lawful (c : Codec α β) (kept : α → β) : Prop where
  reads : ∀ a r, r.Keeps (c.bound a) → c.read r = .ok (kept a)
  knows : ∀ r b, c.read r = .ok b → ∀ column ∈ c.numbered, r.Knows column.1 column.2
  names : ∀ r b, c.read r = .ok b → ∀ column ∈ c.identified, r.Names column
  accepts : ∀ column ∈ c.identified, ∀ a r s id, TransferId.ofStored s = .ok id →
    r.Keeps ((c.bound a).put column (.text s)) → ∃ b, c.read r = .ok b
  binds : ∀ column ∈ c.identified, ∀ a, ∃ v, (column, v) ∈ c.bound a ∧
    ∀ s, v = .text s → ¬ TransferId.Overlong s

/-- Only an overlong identifier is taken for another one. -/
theorem Lawful.faithful_iff (h : c.Lawful kept) (a : α) (r : Row) :
    c.Faithful kept a r ↔ ¬ c.Misreads r := by
  constructor
  · rintro hfaithful ⟨column, hcolumn, s, hs, hover, b, hb⟩
    have hmalformed := TransferId.malformed_iff.2 (.inr hover)
    obtain ⟨e, he⟩ := hfaithful.refuses_id column hcolumn s hs hmalformed
    rw [hb] at he
    cases he
  · intro hread
    refine ⟨h.reads a r, fun column hcolumn n hn hunknown => ?_,
      fun column hcolumn s hs hmalformed => ?_⟩
    · cases hresult : c.read r with
      | error e => exact ⟨e, rfl⟩
      | ok b => exact absurd (h.knows r b hresult column hcolumn n hn) hunknown
    · cases hresult : c.read r with
      | error e => exact ⟨e, rfl⟩
      | ok b =>
        have hshort : ¬ TransferId.Overlong s := fun hover =>
          hread ⟨column, hcolumn, s, hs, hover, b, hresult⟩
        have hlegible := h.names r b hresult column hcolumn s hs
        exact absurd hlegible (TransferId.not_legible_iff.2 ⟨hmalformed, hshort⟩)

/-- **In a row that keeps the rest of what was bound,** it is taken for another one. -/
theorem Lawful.misreads_iff (h : c.Lawful kept) {column : String} (hcolumn : column ∈ c.identified)
    {a : α} {r : Row} {s : String} (hkeeps : r.Keeps ((c.bound a).put column (.text s))) :
    c.Misreads r ↔ TransferId.Overlong s := by
  obtain ⟨v, hv, -⟩ := h.binds column hcolumn a
  have hs : r.value? column = some (.text s) := hkeeps _ (Row.mem_put hv (.text s))
  constructor
  · rintro ⟨column', hcolumn', s', hs', hover, -⟩
    by_cases hsame : column' = column
    · subst hsame
      cases hs.symm.trans hs'
      exact hover
    · -- The other identifiers are those that were bound.
      obtain ⟨v', hv', hshort⟩ := h.binds column' hcolumn' a
      have hkept := hkeeps _ (Row.mem_put_of_ne hv' hsame (.text s))
      exact absurd hover (hshort s' (Option.some.inj (hkept.symm.trans hs')))
  · rintro ⟨n, hn, hle⟩
    obtain ⟨id, hid⟩ := TransferId.read_iff.2 ⟨n, hn⟩
    have hread := h.accepts column hcolumn a r s id (Row.ofStored_eq_ok.2 hid) hkeeps
    exact ⟨column, hcolumn, s, hs, ⟨n, hn, hle⟩, hread⟩

end Codec

/-! ## 4. Postings -/

namespace Posting

def codec : Codec Posting Posting where
  bound := toRow
  read := ofRow
  numbered := [
    ("source_wallet_type", Set.range WalletKind.id),
    ("dest_wallet_type", Set.range WalletKind.id),
    ("category", Set.range Category.id)]
  identified := ["id"]

theorem put_text (p : Posting) : p.toRow.put "id" (.text p.id.text) = p.toRow := by
  simp only [toRow, Row.put, List.map_cons, List.map_nil, String.reduceEq, ↓reduceIte]

/-- **A posting is read** as it was bound, with the identifier that its row has. -/
theorem ofRow_of_keeps {p : Posting} {r : Row} {s : String}
    (h : r.Keeps (p.toRow.put "id" (.text s))) :
    ofRow r = (TransferId.ofStored s).map fun id => { p.plain with id } := by
  simp only [toRow, Row.put, List.map_cons, List.map_nil, String.reduceEq, ↓reduceIte,
    Row.Keeps, List.forall_mem_cons] at h
  simp only [ofRow, Row.text, Row.int, Row.time, Row.decimal, Row.text?, Row.get, WalletKind.ofRow,
    h, Value.asText_text, Value.asInt_int, Value.asTime_time, Value.asDecimal_ofDecimal,
    Value.orNull_text, Except.mapError, Row.ok_bind, Row.known, WalletKind.ofId?_id,
    Category.ofId?_id]
  cases TransferId.ofStored s <;> rfl

/-- **What was read** had numbers and an identifier to read. -/
theorem coded_of_ofRow {p : Posting} {r : Row} (h : ofRow r = .ok p) :
    (∀ column ∈ codec.numbered, r.Knows column.1 column.2) ∧
      ∀ column ∈ codec.identified, r.Names column := by
  simp only [ofRow, Row.bind_eq_ok] at h
  obtain ⟨s, hs, n, hn, -, -, -, -, id, hid, -, -, -, -, source, hsource, -, -, -, -, dest, hdest,
    -, -, -, -, -, -, -, -, -, -, -, -, -, -, -, -, category, hcategory, -⟩ := h
  constructor
  · simp only [codec, List.forall_mem_cons, List.not_mem_nil, false_imp_iff, implies_true, and_true]
    exact ⟨Row.knows_of_kind hsource, Row.knows_of_kind hdest,
      Row.knows_of_read Category.ofId?_eq_some hn hcategory⟩
  · simp only [codec, List.forall_mem_cons, List.not_mem_nil, false_imp_iff, implies_true, and_true]
    exact Row.names_of_read hs hid

theorem lawful : codec.Lawful plain := by
  refine ⟨fun p r h => ?_, fun r p h => (coded_of_ofRow h).1, fun r p h => (coded_of_ofRow h).2,
    fun column hcolumn p r s id hid h => ?_, fun column hcolumn p => ?_⟩
  · change ofRow r = _
    rw [ofRow_of_keeps (s := p.id.text) (by rw [put_text]; exact h), Row.ofStored_text]
    rfl
  · obtain rfl : column = "id" := by simpa [codec] using hcolumn
    exact ⟨_, (ofRow_of_keeps h).trans (by rw [hid]; rfl)⟩
  · obtain rfl : column = "id" := by simpa [codec] using hcolumn
    refine ⟨.text p.id.text, by simp [codec, toRow], fun s hs => ?_⟩
    cases hs
    exact p.id.not_overlong_text

end Posting

/-! ## 5. Reservations -/

namespace Settlement

/-- A settlement is read as it was bound, and four nulls as none. -/
theorem ofRow_of_values {r : Row} {o : Option Settlement}
    (href : r.value? "settle_ref" = some (.ofOption (fun s => .text s.settleRef) o))
    (hattempt : r.value? "settle_attempt" = some (.ofOption (fun s => .text s.attempt) o))
    (hdescription : r.value? "settle_description" =
      some (.ofOption .text (o.bind (·.description))))
    (hstarted : r.value? "settle_started_at" = some (.ofOption (fun s => .time s.startedAt) o)) :
    ofRow r = .ok o := by
  cases o with
  | none =>
    simp only [ofRow, Row.text?, Row.time?, Row.get, href, hattempt, hstarted, Value.ofOption,
      Value.orNull_null, Except.mapError, Row.ok_bind]
    rfl
  | some s =>
    simp only [ofRow, Row.text?, Row.time?, Row.get, href, hattempt, hdescription, hstarted,
      Option.bind_some, Value.orNull_text]
    rfl

end Settlement

namespace Reservation

def codec : Codec Reservation Reservation where
  bound := toRow
  read := ofRow
  numbered := [
    ("sender_wallet_type", Set.range WalletKind.id),
    ("receiver_wallet_type", Set.range WalletKind.id),
    ("status", Set.range ReservationStatus.id)]
  identified := []

/-- **A reservation is read** as it was bound, with a settlement under way or without one. -/
theorem ofRow_of_keeps {v : Reservation} {r : Row} (h : r.Keeps v.toRow) :
    ofRow r = .ok v.plain := by
  simp only [toRow, Row.Keeps, List.forall_mem_cons] at h
  have hsettlement : Settlement.ofRow r = .ok v.settlement := by
    obtain ⟨-, -, -, -, -, -, -, -, -, -, -, -, href, hattempt, hdescription, hstarted, -⟩ := h
    exact Settlement.ofRow_of_values href hattempt hdescription hstarted
  simp only [ofRow, hsettlement, Row.text, Row.int, Row.time, Row.decimal, Row.get,
    WalletKind.ofRow, h, Value.asText_text, Value.asInt_int, Value.asTime_time,
    Value.asDecimal_ofDecimal, Except.mapError, Row.ok_bind, Row.known, WalletKind.ofId?_id,
    ReservationStatus.ofId?_id]
  rfl

theorem coded_of_ofRow {v : Reservation} {r : Row} (h : ofRow r = .ok v) :
    ∀ column ∈ codec.numbered, r.Knows column.1 column.2 := by
  simp only [ofRow, Row.bind_eq_ok] at h
  obtain ⟨n, hn, -, -, -, -, -, -, -, -, -, -, -, -, -, -, sender, hsender, -, -, receiver,
    hreceiver, -, -, -, -, status, hstatus, -⟩ := h
  simp only [codec, List.forall_mem_cons, List.not_mem_nil, false_imp_iff, implies_true, and_true]
  exact ⟨Row.knows_of_kind hsender, Row.knows_of_kind hreceiver,
    Row.knows_of_read ReservationStatus.ofId?_eq_some hn hstatus⟩

theorem lawful : codec.Lawful plain where
  reads _ _ h := ofRow_of_keeps h
  knows _ _ h := coded_of_ofRow h
  names _ _ _ _ hcolumn := absurd hcolumn List.not_mem_nil
  accepts _ hcolumn := absurd hcolumn List.not_mem_nil
  binds _ hcolumn := absurd hcolumn List.not_mem_nil

end Reservation

/-! ## 6. Withdrawals -/

namespace Withdrawal

/-- The row that a draft gets: what is bound for it, and what the database adds. -/
def stored (d : WithdrawalDraft) (id : Int) (createdAt : Instant) : Row :=
  d.toRow ++ [("id", .int id), ("status_reason", .null), ("create_date", .time createdAt),
    ("update_date", .null)]

def codec : Codec (WithdrawalDraft × Int × Instant) Withdrawal where
  bound := fun (d, id, createdAt) => stored d id createdAt
  read := ofRow
  numbered := [
    ("status", Set.range WithdrawalStatus.id),
    ("withdraw_type", Set.range WithdrawalType.id)]
  identified := ["request_transaction", "final_transaction"]

/-- The texts of a draft's identifiers are those that are bound. -/
theorem put_texts (d : WithdrawalDraft) (id : Int) (createdAt : Instant) :
    (stored d id createdAt).put "request_transaction" (.text d.requestTransaction.text) =
        stored d id createdAt ∧
      ∀ v, ((stored d id createdAt).put "request_transaction" v).put "final_transaction"
        (.ofOption .text (d.finalTransaction.map TransferId.text)) =
          (stored d id createdAt).put "request_transaction" v := by
  have hfinal : Value.ofOption .text (d.finalTransaction.map TransferId.text) =
      Value.ofOption (fun t => .text t.text) d.finalTransaction := by
    cases d.finalTransaction <;> rfl
  simp only [stored, WithdrawalDraft.toRow, Row.put, List.map_append, List.map_cons, List.map_nil,
    String.reduceEq, ↓reduceIte, hfinal, implies_true, and_self]

/-- **A withdrawal is read** as it was bound, with the identifiers that its row has. -/
theorem ofRow_of_keeps {d : WithdrawalDraft} {id : Int} {createdAt : Instant} {r : Row} {s : String}
    {t : Option String}
    (h : r.Keeps (((stored d id createdAt).put "request_transaction" (.text s)).put
      "final_transaction" (.ofOption .text t))) :
    ofRow r = do
      let requestTransaction ← TransferId.ofStored s
      let finalTransaction ← t.mapM TransferId.ofStored
      return ({ d with requestTransaction, finalTransaction }.toWithdrawal id createdAt).plain := by
  simp only [stored, WithdrawalDraft.toRow, Row.put, List.map_cons, List.map_nil,
    String.reduceEq, ↓reduceIte, Row.Keeps, List.cons_append, List.nil_append,
    List.forall_mem_cons] at h
  simp only [ofRow, Row.text, Row.int, Row.time, Row.decimal, Row.text?, Row.time?, Row.decimal?,
    Row.get, h, Value.asText_text, Value.asInt_int, Value.asTime_time, Value.asDecimal_ofDecimal,
    Value.orNull_text, Value.orNull_decimal, Value.orNull_null, Except.mapError, Row.ok_bind,
    Row.known, WithdrawalStatus.ofId?_id, WithdrawalType.ofId?_id]
  rfl

theorem coded_of_ofRow {w : Withdrawal} {r : Row} (h : ofRow r = .ok w) :
    (∀ column ∈ codec.numbered, r.Knows column.1 column.2) ∧
      ∀ column ∈ codec.identified, r.Names column := by
  simp only [ofRow, Row.bind_eq_ok] at h
  obtain ⟨s, hs, t, ht, n, hn, k, hk, -, -, -, -, -, -, -, -, -, -, requested, hrequested, final,
    hfinal, -, -, -, -, -, -, -, -, -, -, -, -, -, -, -, -, status, hstatus, -, -, type, htype,
    -⟩ := h
  constructor
  · simp only [codec, List.forall_mem_cons, List.not_mem_nil, false_imp_iff, implies_true, and_true]
    exact ⟨Row.knows_of_read WithdrawalStatus.ofId?_eq_some hn hstatus,
      Row.knows_of_read WithdrawalType.ofId?_eq_some hk htype⟩
  · simp only [codec, List.forall_mem_cons, List.not_mem_nil, false_imp_iff, implies_true, and_true]
    exact ⟨Row.names_of_read hs hrequested, Row.names_of_read? ht hfinal⟩

/-- The identifiers of a draft are read from their own texts. -/
theorem mapM_ofStored_text (o : Option TransferId) :
    (o.map TransferId.text).mapM TransferId.ofStored = .ok o := by
  cases o with
  | none => rfl
  | some id => exact Row.bind_eq_ok.2 ⟨id, Row.ofStored_text id, rfl⟩

/-- What is left of a draft that was bound. -/
def keptDraft (bound : WithdrawalDraft × Int × Instant) : Withdrawal :=
  (bound.1.toWithdrawal bound.2.1 bound.2.2).plain

theorem eq_of_identified {column : String} (h : column ∈ codec.identified) :
    column = "request_transaction" ∨ column = "final_transaction" := by
  simpa [codec] using h

theorem lawful : codec.Lawful keptDraft := by
  refine ⟨fun (d, id, createdAt) r h => ?_, fun r w h => (coded_of_ofRow h).1,
    fun r w h => (coded_of_ofRow h).2, fun column hcolumn (d, id, createdAt) r s read hread h => ?_,
    fun column hcolumn (d, id, createdAt) => ?_⟩
  · obtain ⟨hrequest, hfinal⟩ := put_texts d id createdAt
    have hkept := ofRow_of_keeps (d := d) (r := r) (s := d.requestTransaction.text)
      (t := d.finalTransaction.map TransferId.text) (by rw [hfinal, hrequest]; exact h)
    exact hkept.trans (by rw [Row.ofStored_text, mapM_ofStored_text]; rfl)
  · obtain ⟨hrequest, hfinal⟩ := put_texts d id createdAt
    obtain rfl | rfl := eq_of_identified hcolumn
    · have hkept := ofRow_of_keeps (d := d) (r := r) (s := s)
        (t := d.finalTransaction.map TransferId.text) (by rw [hfinal]; exact h)
      exact ⟨_, hkept.trans (by rw [hread, mapM_ofStored_text]; rfl)⟩
    · have hkept := ofRow_of_keeps (d := d) (r := r) (s := d.requestTransaction.text)
        (t := some s) (by rw [hrequest]; exact h)
      exact ⟨_, hkept.trans (by rw [Row.ofStored_text, Option.mapM_some, hread]; rfl)⟩
  · obtain rfl | rfl := eq_of_identified hcolumn
    · refine ⟨.text d.requestTransaction.text, by simp [codec, stored, WithdrawalDraft.toRow],
        fun s hs => ?_⟩
      cases hs
      exact d.requestTransaction.not_overlong_text
    · refine ⟨.ofOption (fun t => .text t.text) d.finalTransaction,
        by simp [codec, stored, WithdrawalDraft.toRow], fun s hs => ?_⟩
      cases hfinal : d.finalTransaction with
      | none => rw [hfinal] at hs; cases hs
      | some final =>
        rw [hfinal] at hs
        cases hs
        exact final.not_overlong_text

end Withdrawal

/-! ## 7. All of them -/

/-- **Rows do not drift, unless an identifier is overlong.** For every record and every row: what is
read from a row that keeps what was bound is the record, with each of its fields, and each decimal
is the same number, of the same scale unless it is zero; and a row with an unknown number or with a
malformed identifier is refused. All this holds just if the row is not misread, and a row that is
otherwise as bound is misread just if its identifier is overlong. -/
theorem rows_faithful_iff (p : Posting) (v : Reservation) (d : WithdrawalDraft) (id : Int)
    (createdAt : Instant) (r : Row) :
    (Posting.codec.Faithful Posting.plain p r ↔ ¬ Posting.codec.Misreads r) ∧
      Reservation.codec.Faithful Reservation.plain v r ∧
      (Withdrawal.codec.Faithful Withdrawal.keptDraft (d, id, createdAt) r ↔
        ¬ Withdrawal.codec.Misreads r) ∧
      (∀ column ∈ Posting.codec.identified, ∀ s, r.Keeps (p.toRow.put column (.text s)) →
        (Posting.codec.Misreads r ↔ TransferId.Overlong s)) ∧
      (∀ column ∈ Withdrawal.codec.identified, ∀ s,
        r.Keeps ((Withdrawal.stored d id createdAt).put column (.text s)) →
          (Withdrawal.codec.Misreads r ↔ TransferId.Overlong s)) ∧
      ∀ x : Decimal, x.plain.toRat = x.toRat ∧ (x.toRat ≠ 0 → x.plain = x) := by
  refine ⟨Posting.lawful.faithful_iff p r, (Reservation.lawful.faithful_iff v r).2 ?_,
    Withdrawal.lawful.faithful_iff _ r, fun column hcolumn s h => ?_,
    fun column hcolumn s h => ?_, fun x => ⟨x.toRat_plain, Decimal.plain_of_ne_zero⟩⟩
  · -- A reservation's row holds no identifiers.
    rintro ⟨_, hcolumn, -⟩
    exact absurd hcolumn List.not_mem_nil
  · exact Posting.lawful.misreads_iff hcolumn h
  · exact Withdrawal.lawful.misreads_iff (a := (d, id, createdAt)) hcolumn h

/-- Twenty-six of the highest digit stand for a number of 130 bits. -/
def TransferId.overlong : String := "ZZZZZZZZZZZZZZZZZZZZZZZZZZ"

namespace Posting

/-- A posting of nothing. -/
def idle : Posting where
  id := default
  source := ⟨1, "ann", .main, .zero "GOLD", .zero, .zero⟩
  dest := ⟨2, "eve", .main, .zero "GOLD", .zero, .zero⟩
  description := none
  ref := none
  category := .uncategorized
  createdAt := 0

/-- Its row, but for the identifier. -/
def misnamedRow : Row := idle.toRow.put "id" (.text TransferId.overlong)

/-- **A malformed identifier that is read** as the one with the highest number. -/
theorem misnamed_read :
    TransferId.Malformed TransferId.overlong ∧
      misnamedRow.value? "id" = some (.text TransferId.overlong) ∧
      (ofRow misnamedRow).toOption.map (fun p => p.id.text) =
        some "7ZZZZZZZZZZZZZZZZZZZZZZZZZ" := by
  refine ⟨TransferId.malformed_iff.2 (.inr ⟨2 ^ 130 - 1, ?_, ?_⟩), ?_, ?_⟩ <;> decide +kernel

end Posting

end WalletLedger
