/-
**The table of rates and forbidden pairs,** each ordered by source and destination and without
repetition.
-/
import WalletLedger.Routing.Rate

set_option autoImplicit false

namespace WalletLedger

structure RateTable where
  rates : List Rate
  forbidden : List ForbiddenPair
deriving DecidableEq

namespace RateTable

def empty : RateTable := ⟨[], []⟩

def find? (t : RateTable) (source dest : String) : Option Rate :=
  t.rates.find? (·.pair == (source, dest))

/-- Adds a rate for a pair that has none, unless that is to be overlooked. -/
def add (t : RateTable) (r : Rate) (ignoreIfExists : Bool) : Except Error RateTable :=
  if (t.find? r.source r.dest).isSome then
    if ignoreIfExists then .ok t else .error (.rateExists r.source r.dest)
  else
    .ok { t with rates := (r :: t.rates).mergeSort fun a b => symbolPairLE a.pair b.pair }

/-- Replaces the rate of a pair. -/
def update (t : RateTable) (r : Rate) : Except Error RateTable :=
  if (t.find? r.source r.dest).isSome then
    .ok { t with rates := t.rates.map fun q => if q.pair = r.pair then r else q }
  else .error (.rateNotFound r.source r.dest)

def delete (t : RateTable) (source dest : String) : Except Error RateTable :=
  if (t.find? source dest).isSome then
    .ok { t with rates := t.rates.filter (·.pair ≠ (source, dest)) }
  else .error (.rateNotFound source dest)

/-- Forbids a pair; forbidding it again changes nothing. -/
def forbid (t : RateTable) (p : ForbiddenPair) : RateTable :=
  if t.forbidden.contains p then t
  else
    { t with
      forbidden := (p :: t.forbidden).mergeSort fun a b => symbolPairLE a.pair b.pair }

/-- Allows a pair again. -/
def allow (t : RateTable) (p : ForbiddenPair) : RateTable :=
  { t with forbidden := t.forbidden.filter (· ≠ p) }

end RateTable

end WalletLedger
