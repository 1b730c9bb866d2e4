/-
**Pages of a listing.** Every listing is a filtered and sorted list; a page shows a stretch of it.
-/
import WalletLedger.Document

set_option autoImplicit false

namespace WalletLedger

/-- Which stretch of a listing in time order is asked for. -/
structure Page where
  offset : Nat
  limit : Nat
  ascending : Bool
deriving DecidableEq

namespace Page

/-- The fifty newest. -/
def standard : Page := ⟨0, 50, false⟩

/-- A listing in ascending order, turned as the page asks. -/
def direct {α : Type} (p : Page) (rows : List α) : List α :=
  if p.ascending then rows else rows.reverse

/-- The stretch of a listing that the page shows. -/
def cut {α : Type} (p : Page) (rows : List α) : List α :=
  (rows.drop p.offset).take p.limit

/-- A page of a listing that is given in ascending order. -/
def of {α : Type} (p : Page) (rows : List α) : List α := p.cut (p.direct rows)

def ofDocument? (d : Document) : Option Page := do
  return {
    offset := ← d.orElse "offset" (Document.nat? 64) standard.offset
    limit := ← d.orElse "limit" (Document.nat? 64) standard.limit
    ascending := ← d.orElse "ascending" Document.bool? standard.ascending }

end Page

end WalletLedger
