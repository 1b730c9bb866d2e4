/-
**Points in time,** in milliseconds since the start of 1970. The calendar ends on the last day of
the year 262142; a computation that leaves it has no instant.
-/

set_option autoImplicit false

namespace WalletLedger

/-- Milliseconds since the start of 1970, in universal time. -/
abbrev Instant := Int

namespace Instant

/-- The last instant of the calendar. -/
def latest : Instant := 8210266876799999

/-- The first instant of the calendar. -/
def earliest : Instant := -8334601228800000

/-- The instant `secs` seconds later, if the calendar has it. -/
def plusSeconds? (t : Instant) (secs : Int) : Option Instant :=
  let later := t + secs * 1000
  if earliest ≤ later && later ≤ latest then some later else none

/-- The whole seconds from one instant to a later one. -/
def secondsUntil (t later : Instant) : Int := (later - t).tdiv 1000

/-- The longest span, in seconds, that can be counted in milliseconds of 64 bits. -/
def longestSpan : Nat := 9223372036854775

end Instant

end WalletLedger
