/-
**Reservations.** A reservation locks the outcome of a conversion for a while. Settling it moves
the source amount from the sender to the system and the locked amount from the system to the
receiver, as two postings called legs; a third leg returns the source amount if the second cannot
be posted. While a settlement is under way the reservation carries it, and every leg's reference is
derived from it, so that a leg posted twice is one posting.
-/
import WalletLedger.Instant
import WalletLedger.Wallet

set_option autoImplicit false

namespace WalletLedger

/-! ## Status -/

inductive ReservationStatus where
  | reserved
  | committed
  | expired
  | canceled
deriving DecidableEq, Inhabited

namespace ReservationStatus

def all : List ReservationStatus := [.reserved, .committed, .expired, .canceled]

/-- The number under which a status is stored. -/
def id : ReservationStatus → Int
  | .reserved => 0
  | .committed => 1
  | .expired => 2
  | .canceled => 3

def ofId? : Int → Option ReservationStatus
  | 0 => some .reserved
  | 1 => some .committed
  | 2 => some .expired
  | 3 => some .canceled
  | _ => none

def name : ReservationStatus → String
  | .reserved => "RESERVED"
  | .committed => "COMMITTED"
  | .expired => "EXPIRED"
  | .canceled => "CANCELED"

/-- A terminal status is never left. -/
def isTerminal : ReservationStatus → Bool
  | .reserved => false
  | _ => true

def toDocument (s : ReservationStatus) : Document := .text s.name

def ofDocument? : Document → Option ReservationStatus :=
  Document.named? (all.map fun s => (s.name, s))

theorem ofId?_id (s : ReservationStatus) : ofId? s.id = some s := by cases s <;> rfl

/-- A number is read as the value that it is the number of. -/
theorem ofId?_eq_some {n : Int} {s : ReservationStatus} : ofId? n = some s ↔ s.id = n := by
  constructor
  · intro h
    unfold ofId? at h
    split at h <;> cases h <;> rfl
  · rintro rfl
    exact ofId?_id s

end ReservationStatus

/-! ## Settlements -/

/-- A settlement under way. -/
structure Settlement where
  /-- The first part of the reference of every leg. -/
  settleRef : String
  /-- New for each settlement, so that two of them share no reference. -/
  attempt : String
  description : Option String
  startedAt : Instant
deriving DecidableEq

/-- The postings of a settlement. -/
inductive Leg where
  /-- From the sender to the system. -/
  | withdraw
  /-- From the system to the receiver. -/
  | deposit
  /-- Back from the system to the sender. -/
  | refund
deriving DecidableEq

namespace Leg

def all : List Leg := [.withdraw, .deposit, .refund]

def name : Leg → String
  | .withdraw => "withdraw"
  | .deposit => "deposit"
  | .refund => "refund"

def ofDocument? : Document → Option Leg := Document.named? (all.map fun l => (l.name, l))

end Leg

namespace Settlement

def toDocument (s : Settlement) : Document :=
  .object [
    ("settle_ref", .text s.settleRef), ("attempt", .text s.attempt),
    ("description", .ofOption .text s.description), ("started_at", .int s.startedAt)]

def ofDocument? (d : Document) : Option Settlement := do
  let d := d.record 4 ["settle_ref", "attempt", "description", "started_at"]
  return {
    settleRef := ← d.need "settle_ref" Document.text?
    attempt := ← d.need "attempt" Document.text?
    description := ← d.maybe "description" Document.text?
    startedAt := ← d.need "started_at" (Document.signed? 64) }

end Settlement

/-! ## Reservations -/

/-- A conversion whose outcome is locked. -/
structure Reservation where
  number : String
  sourceSymbol : String
  destSymbol : String
  sourceAmount : Decimal
  /-- What the receiver will get. -/
  destAmount : Decimal
  senderUuid : String
  senderKind : WalletKind
  receiverUuid : String
  receiverKind : WalletKind
  reservedAt : Instant
  expiresAt : Instant
  status : ReservationStatus
  settlement : Option Settlement
deriving DecidableEq

/-- What a caller asks to be reserved. -/
structure ReserveRequest where
  sourceAmount : Decimal
  sourceSymbol : String
  destSymbol : String
  senderUuid : String
  senderKind : WalletKind
  receiverUuid : String
  receiverKind : WalletKind
deriving DecidableEq

namespace Reservation

/-- A reservation has lapsed from its last instant on. -/
def isExpiredAt (r : Reservation) (now : Instant) : Bool := r.expiresAt ≤ now

/-- Neither closed nor being settled. -/
def isIdle (r : Reservation) : Bool := r.status == .reserved && r.settlement.isNone

/-- **The reference of a leg:** the settlement's reference, the reservation's number, the attempt
and the leg's name, joined by hyphens. -/
def legRef (r : Reservation) (s : Settlement) (leg : Leg) : String :=
  s.settleRef ++ "-" ++ r.number ++ "-" ++ s.attempt ++ "-" ++ leg.name

/-- Reservations are worked off by date, and by number where dates are equal. -/
def before (r s : Reservation) : Bool :=
  r.reservedAt < s.reservedAt ||
    (r.reservedAt == s.reservedAt && !decide (s.number < r.number))

/-- The first `limit` of the reservations that meet a condition. -/
def batch (limit : Nat) (accepts : Reservation → Bool) (rows : List Reservation) :
    List Reservation :=
  ((rows.filter accepts).mergeSort before).take limit

def toDocument (r : Reservation) : Document :=
  .object [
    ("reserve_number", .text r.number),
    ("source_symbol", .text r.sourceSymbol),
    ("dest_symbol", .text r.destSymbol),
    ("source_amount", .ofDecimal r.sourceAmount),
    ("reserved_dest_amount", .ofDecimal r.destAmount),
    ("sender_uuid", .text r.senderUuid),
    ("sender_wallet_type", r.senderKind.toDocument),
    ("receiver_uuid", .text r.receiverUuid),
    ("receiver_wallet_type", r.receiverKind.toDocument),
    ("reserve_date", .int r.reservedAt),
    ("exp_date", .int r.expiresAt),
    ("status", r.status.toDocument),
    ("settlement", .ofOption Settlement.toDocument r.settlement)]

def ofDocument? (d : Document) : Option Reservation := do
  let d := d.record 13 ["reserve_number", "source_symbol", "dest_symbol", "source_amount",
    "reserved_dest_amount", "sender_uuid", "sender_wallet_type", "receiver_uuid",
    "receiver_wallet_type", "reserve_date", "exp_date", "status", "settlement"]
  return {
    number := ← d.need "reserve_number" Document.text?
    sourceSymbol := ← d.need "source_symbol" Document.text?
    destSymbol := ← d.need "dest_symbol" Document.text?
    sourceAmount := ← d.need "source_amount" Document.decimal?
    destAmount := ← d.need "reserved_dest_amount" Document.decimal?
    senderUuid := ← d.need "sender_uuid" Document.text?
    senderKind := ← d.need "sender_wallet_type" WalletKind.ofDocument?
    receiverUuid := ← d.need "receiver_uuid" Document.text?
    receiverKind := ← d.need "receiver_wallet_type" WalletKind.ofDocument?
    reservedAt := ← d.need "reserve_date" (Document.signed? 64)
    expiresAt := ← d.need "exp_date" (Document.signed? 64)
    status := ← d.need "status" ReservationStatus.ofDocument?
    settlement := ← d.maybe "settlement" Settlement.ofDocument? }

end Reservation

namespace ReserveRequest

def toDocument (r : ReserveRequest) : Document :=
  .object [
    ("source_amount", .ofDecimal r.sourceAmount),
    ("source_symbol", .text r.sourceSymbol),
    ("dest_symbol", .text r.destSymbol),
    ("sender_uuid", .text r.senderUuid),
    ("sender_wallet_type", r.senderKind.toDocument),
    ("receiver_uuid", .text r.receiverUuid),
    ("receiver_wallet_type", r.receiverKind.toDocument)]

def ofDocument? (d : Document) : Option ReserveRequest := do
  let d := d.record 6 ["source_amount", "source_symbol", "dest_symbol", "sender_uuid",
    "sender_wallet_type", "receiver_uuid", "receiver_wallet_type"]
  return {
    sourceAmount := ← d.need "source_amount" Document.decimal?
    sourceSymbol := ← d.need "source_symbol" Document.text?
    destSymbol := ← d.need "dest_symbol" Document.text?
    senderUuid := ← d.need "sender_uuid" Document.text?
    senderKind := ← d.orElse "sender_wallet_type" WalletKind.ofDocument? .main
    receiverUuid := ← d.need "receiver_uuid" Document.text?
    receiverKind := ← d.orElse "receiver_wallet_type" WalletKind.ofDocument? .main }

end ReserveRequest

end WalletLedger
