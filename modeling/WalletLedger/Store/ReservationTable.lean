/-
**The table of reservations.** Every change is conditional on the status that the row has, and on
whether a settlement is under way, so that of several callers who want to move one reservation only
one does.
-/
import WalletLedger.Reservation

set_option autoImplicit false

namespace WalletLedger

structure ReservationTable where
  rows : List Reservation
deriving DecidableEq

namespace ReservationTable

def empty : ReservationTable := ⟨[]⟩

def find? (t : ReservationTable) (number : String) : Option Reservation :=
  t.rows.find? (·.number == number)

def insert (t : ReservationTable) (r : Reservation) : Except Error ReservationTable :=
  if (t.find? r.number).isSome then .error (.internal (.duplicateReserveNumber r.number))
  else .ok ⟨t.rows ++ [r]⟩

/-- **A conditional change:** the row changes if it meets the condition, and the answer tells
whether it did. -/
def changeIf (t : ReservationTable) (number : String) (condition : Reservation → Bool)
    (f : Reservation → Reservation) : Except Error (Bool × ReservationTable) :=
  match t.find? number with
  | none => .error (.reservationNotFound number)
  | some r =>
    if condition r then
      .ok (true, ⟨t.rows.map fun x => if x.number = number then f x else x⟩)
    else .ok (false, t)

/-- **Claims** an idle reservation for a settlement. -/
def begin (t : ReservationTable) (number : String) (s : Settlement) :
    Except Error (Bool × ReservationTable) :=
  t.changeIf number (·.isIdle) fun r => { r with settlement := some s }

/-- Gives up the settlement of an open reservation. -/
def clear (t : ReservationTable) (number : String) : Except Error (Bool × ReservationTable) :=
  t.changeIf number (fun r => r.status == .reserved && r.settlement.isSome)
    fun r => { r with settlement := none }

/-- Closes an idle reservation. -/
def closeIfIdle (t : ReservationTable) (number : String) (status : ReservationStatus) :
    Except Error (Bool × ReservationTable) :=
  t.changeIf number (·.isIdle) fun r => { r with status }

/-- Changes the status of a reservation that has the expected one. -/
def updateStatusIf (t : ReservationTable) (number : String)
    (expected status : ReservationStatus) : Except Error (Bool × ReservationTable) :=
  t.changeIf number (·.status == expected) fun r => { r with status }

/-- The first idle reservations that have lapsed. -/
def lapsed (t : ReservationTable) (now : Instant) (limit : Nat) : List Reservation :=
  Reservation.batch limit (fun r => r.isIdle && r.isExpiredAt now) t.rows

/-- The first open reservations whose settlement began before an instant. -/
def stalled (t : ReservationTable) (startedBefore : Instant) (limit : Nat) : List Reservation :=
  Reservation.batch limit
    (fun r => r.status == .reserved && r.settlement.any (·.startedAt < startedBefore)) t.rows

end ReservationTable

end WalletLedger
