/-
**Reservations in a database.** A settlement under way stands in four columns of its reservation's
row, which are null otherwise. Each change of a reservation is one statement that changes the row
only if the reservation is as expected; if no row was changed, a second statement tells whether the
reservation was not as expected or is not there at all.
-/
import WalletLedger.Database.Wallets

set_option autoImplicit false

namespace WalletLedger

/-! ## Rows -/

namespace Settlement

/-- The settlement in the columns of a row, if there is one. -/
def ofRow (r : Row) : Except Error (Option Settlement) := do
  let settleRef ← r.text? "settle_ref"
  let attempt ← r.text? "settle_attempt"
  let startedAt ← r.time? "settle_started_at"
  match settleRef, attempt, startedAt with
  | some settleRef, some attempt, some startedAt =>
    return some { settleRef, attempt, description := ← r.text? "settle_description", startedAt }
  | _, _, _ => return none

end Settlement

namespace Reservation

def columns : List String :=
  ["reserve_number", "source_symbol", "dest_symbol", "source_amount", "reserved_dest_amount",
    "sender_uuid", "sender_wallet_type", "receiver_uuid", "receiver_wallet_type", "reserve_date",
    "exp_date", "status", "settle_ref", "settle_attempt", "settle_description",
    "settle_started_at"]

def toRow (r : Reservation) : Row :=
  [("reserve_number", .text r.number),
    ("source_symbol", .text r.sourceSymbol),
    ("dest_symbol", .text r.destSymbol),
    ("source_amount", .ofDecimal r.sourceAmount),
    ("reserved_dest_amount", .ofDecimal r.destAmount),
    ("sender_uuid", .text r.senderUuid),
    ("sender_wallet_type", .int r.senderKind.id),
    ("receiver_uuid", .text r.receiverUuid),
    ("receiver_wallet_type", .int r.receiverKind.id),
    ("reserve_date", .time r.reservedAt),
    ("exp_date", .time r.expiresAt),
    ("status", .int r.status.id),
    ("settle_ref", .ofOption (fun s => .text s.settleRef) r.settlement),
    ("settle_attempt", .ofOption (fun s => .text s.attempt) r.settlement),
    ("settle_description", .ofOption .text (r.settlement.bind (·.description))),
    ("settle_started_at", .ofOption (fun s => .time s.startedAt) r.settlement)]

/-- What is written is what is read. -/
theorem columns_toRow (r : Reservation) : r.toRow.map (·.1) = columns := rfl

def ofRow (r : Row) : Except Error Reservation := do
  let status ← r.int "status"
  let settlement ← Settlement.ofRow r
  let number ← r.text "reserve_number"
  let sourceSymbol ← r.text "source_symbol"
  let destSymbol ← r.text "dest_symbol"
  let sourceAmount ← r.decimal "source_amount"
  let destAmount ← r.decimal "reserved_dest_amount"
  let senderUuid ← r.text "sender_uuid"
  let senderKind ← WalletKind.ofRow r "sender_wallet_type"
  let receiverUuid ← r.text "receiver_uuid"
  let receiverKind ← WalletKind.ofRow r "receiver_wallet_type"
  let reservedAt ← r.time "reserve_date"
  let expiresAt ← r.time "exp_date"
  let status ← Row.known "reservation status" (toString status) (ReservationStatus.ofId? status)
  return {
    number, sourceSymbol, destSymbol, sourceAmount, destAmount, senderUuid, senderKind,
    receiverUuid, receiverKind, reservedAt, expiresAt, status, settlement }

end Reservation

namespace Database

open WalletLedger.Action Statement

def insertReservation (r : Reservation) : Action Database Unit := do
  let _ ← whenTaken (.internal (.duplicateReserveNumber r.number))
    (execute (insert "reserved_transfers_tb" r.toRow []))

def selectReservations (which : List String) (values : List Value) : Statement where
  text := words (["SELECT", names Reservation.columns, "FROM reserved_transfers_tb"] ++ which)
  values

def findReservation (number : String) : Action Database (Option Reservation) :=
  fetch? Reservation.ofRow (selectReservations ["WHERE reserve_number = $1"] [.text number])

/-- The number under which an open reservation is stored. -/
def reservedId : Value := .int ReservationStatus.reserved.id

/-- **Whether a conditional change was made.** A reservation that is not there cannot be changed. -/
def changed (number : String) (s : Statement) : Action Database Bool := do
  if 0 < (← execute s) then return true
  let known ← fetchOne (fun r => Row.single r Value.asBool)
    ⟨"SELECT EXISTS (SELECT 1 FROM reserved_transfers_tb WHERE reserve_number = $1)",
      [.text number]⟩
  require (.reservationNotFound number) known
  return false

def beginSettlement (number : String) (s : Settlement) : Action Database Bool :=
  changed number
    ⟨words ["UPDATE reserved_transfers_tb SET settle_ref = $2, settle_attempt = $6,",
      "settle_description = $3, settle_started_at = $4",
      "WHERE reserve_number = $1 AND status = $5 AND settle_ref IS NULL"],
      [.text number, .text s.settleRef, .ofOption .text s.description, .time s.startedAt,
        reservedId, .text s.attempt]⟩

def clearSettlement (number : String) : Action Database Bool :=
  changed number
    ⟨words ["UPDATE reserved_transfers_tb SET settle_ref = NULL, settle_attempt = NULL,",
      "settle_description = NULL, settle_started_at = NULL",
      "WHERE reserve_number = $1 AND status = $2 AND settle_ref IS NOT NULL"],
      [.text number, reservedId]⟩

def closeIfIdle (number : String) (status : ReservationStatus) : Action Database Bool :=
  changed number
    ⟨words ["UPDATE reserved_transfers_tb SET status = $3",
      "WHERE reserve_number = $1 AND status = $2 AND settle_ref IS NULL"],
      [.text number, reservedId, .int status.id]⟩

def updateStatusIf (number : String) (expected status : ReservationStatus) :
    Action Database Bool :=
  changed number
    ⟨"UPDATE reserved_transfers_tb SET status = $3 WHERE reserve_number = $1 AND status = $2",
      [.text number, .int expected.id, .int status.id]⟩

/-- The first reservations that are open and meet one more condition on a time. -/
def batch (condition : String) (t : Instant) (limit : Nat) : Action Database (List Reservation) :=
  fetchAll Reservation.ofRow
    (selectReservations
      ["WHERE status = $1 AND", condition, "ORDER BY reserve_date, reserve_number LIMIT $3"]
      [reservedId, .time t, .ofNat limit])

def findLapsed (now : Instant) (limit : Nat) : Action Database (List Reservation) :=
  batch "settle_ref IS NULL AND exp_date <= $2" now limit

def findStalled (startedBefore : Instant) (limit : Nat) : Action Database (List Reservation) :=
  batch "settle_ref IS NOT NULL AND settle_started_at < $2" startedBefore limit

end Database

end WalletLedger
