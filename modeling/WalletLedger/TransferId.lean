/-
**Identifiers of postings.** A posting is named by 128 bits, written as 26 characters of base 32.
The alphabet leaves out `I`, `L`, `O` and `U`; reading accepts either case. Twenty-six characters
hold 130 bits, so the two highest are dropped.
-/
import WalletLedger.Power

set_option autoImplicit false

namespace WalletLedger

/-- The 128 bits that name a posting. -/
structure TransferId where
  bits : Nat
  bits_lt : bits < pow2 128
deriving DecidableEq

namespace TransferId

/-- The digits of base 32, in order. -/
def alphabet : List Char := "0123456789ABCDEFGHJKMNPQRSTVWXYZ".toList

/-- The character of a digit. -/
def charOfDigit (d : Nat) : Char := alphabet.getD d '0'

/-- The digit of a character, in either case. -/
def digitOfChar? (c : Char) : Option Nat := alphabet.findIdx? (· == c.toUpper)

/-- The last `count` digits of a number, most significant first. -/
def digits (count n : Nat) : List Nat :=
  (List.range count).map fun i => n / pow2 (5 * (count - 1 - i)) % 32

/-- **The written form,** always 26 characters. -/
def text (id : TransferId) : String := String.ofList ((digits 26 id.bits).map charOfDigit)

/-- The identifier of a number, its highest bits dropped. -/
def ofNat (n : Nat) : TransferId := ⟨n % pow2 128, Nat.mod_lt _ (pow2_pos 128)⟩

/-- Why a text names no posting. -/
inductive ReadError where
  | invalidLength
  | invalidCharacter
deriving DecidableEq, Repr

def ReadError.message : ReadError → String
  | .invalidLength => "invalid length"
  | .invalidCharacter => "invalid character"

/-- **Reading.** The length is counted in bytes and is looked at first. -/
def ofText? (s : String) : Except ReadError TransferId :=
  if s.utf8ByteSize ≠ 26 then .error .invalidLength
  else
    match s.toList.mapM digitOfChar? with
    | none => .error .invalidCharacter
    | some ds => .ok (ofNat (ds.foldl (fun n d => n * 32 + d) 0))

/-- Identifiers are ordered by their bits, which is the order of their written forms. -/
instance : LT TransferId := ⟨fun a b => a.bits < b.bits⟩

instance (a b : TransferId) : Decidable (a < b) := inferInstanceAs (Decidable (_ < (_ : Nat)))

instance : Inhabited TransferId := ⟨ofNat 0⟩

instance : Repr TransferId := ⟨fun id _ => id.text⟩

end TransferId

end WalletLedger
