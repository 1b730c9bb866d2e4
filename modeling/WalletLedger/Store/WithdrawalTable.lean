/-
**The table of withdrawals,** ordered by number. At most one row stands for a posting. A change of
status names the status that the row must have, and a row can be put back as it was while it is
still in the status it was moved to.
-/
import WalletLedger.Withdrawal

set_option autoImplicit false

namespace WalletLedger

structure WithdrawalTable where
  rows : List Withdrawal
  lastId : Int
deriving DecidableEq

namespace WithdrawalTable

def empty : WithdrawalTable := ⟨[], 0⟩

def find? (t : WithdrawalTable) (id : Int) : Option Withdrawal := t.rows.find? (·.id == id)

/-- The row whose request was made by a posting. -/
def byRequest? (t : WithdrawalTable) (transfer : TransferId) : Option Withdrawal :=
  t.rows.find? (·.requestTransaction == transfer)

/-- A new row gets the next number. -/
def insert (t : WithdrawalTable) (d : WithdrawalDraft) (now : Instant) :
    Except Error (Withdrawal × WithdrawalTable) :=
  if (t.byRequest? d.requestTransaction).isSome then
    .error (.internal (.withdrawRecorded d.requestTransaction.text))
  else
    let row := d.toWithdrawal (t.lastId + 1) now
    .ok (row, ⟨t.rows ++ [row], row.id⟩)

/-- The table with one row replaced. -/
def replace (t : WithdrawalTable) (row : Withdrawal) : WithdrawalTable :=
  { t with rows := t.rows.map fun w => if w.id = row.id then row else w }

/-- **A change of status.** There is no row in the answer if the row had another status. -/
def transition (t : WithdrawalTable) (id : Int) (expected status : WithdrawalStatus)
    (u : WithdrawalUpdate) (now : Instant) :
    Except Error (Option Withdrawal × WithdrawalTable) :=
  match t.find? id with
  | none => .error (.withdrawalNotFound id)
  | some w =>
    if w.status = expected then
      let row := { w.apply u with status, updatedAt := some now }
      .ok (some row, t.replace row)
    else .ok (none, t)

/-- **Puts a row back** as it was, if it is still in the given status. -/
def revert (t : WithdrawalTable) (current : WithdrawalStatus) (earlier : Withdrawal) :
    Except Error (Bool × WithdrawalTable) :=
  match t.find? earlier.id with
  | none => .error (.withdrawalNotFound earlier.id)
  | some w =>
    if w.status = current then .ok (true, t.replace earlier) else .ok (false, t)

def setFinal (t : WithdrawalTable) (id : Int) (transfer : TransferId) :
    Except Error WithdrawalTable :=
  match t.find? id with
  | none => .error (.withdrawalNotFound id)
  | some w => .ok (t.replace { w with finalTransaction := some transfer })

/-- The rows that meet an operator's criteria, newest first. -/
def search (t : WithdrawalTable) (c : Withdrawal.Criteria) (offset : Nat) (size : Option Nat) :
    List Withdrawal :=
  let rows := (t.rows.reverse.filter c.accepts).drop offset
  match size with
  | none => rows
  | some n => rows.take n

/-- The rows that an owner's filter accepts, as the page shows them. -/
def history (t : WithdrawalTable) (f : Withdrawal.Filter) (page : Page) : List Withdrawal :=
  page.of (Withdrawal.listing f t.rows)

end WithdrawalTable

end WalletLedger
