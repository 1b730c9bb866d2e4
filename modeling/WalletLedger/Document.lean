/-
**Documents:** the trees of named and listed values in which settings, requests and answers are
exchanged. Reading a domain value from a document is strict: a field of the wrong kind, a missing
field without a default, or an integer outside its range has no value. Unknown fields are ignored.
A record is given by name, as an object, or by position, as a list.

The readers `need`, `maybe` and `orElse` are the three ways in which a field can be asked for.
-/
import WalletLedger.Decimal.Text

set_option autoImplicit false

namespace WalletLedger

/-- A tree of values. Entries of an `object` keep the order in which they were written. -/
inductive Document where
  | null
  | bool (value : Bool)
  | int (value : Int)
  /-- The number `coeff / 10 ^ places`, written with a point. -/
  | real (coeff : Int) (places : Nat)
  | text (value : String)
  /-- An unquoted word of a settings file; it is what its reader takes it for. -/
  | plain (word : String)
  | list (items : List Document)
  | object (entries : List (String × Document))
deriving Inhabited

namespace Document

/-! ## Words

What an unquoted word can be taken for besides a text. -/

/-- The words for an absent value; the blank is one of them. -/
def isNullWord (w : String) : Bool := ["", "~", "null", "Null", "NULL"].contains w

def boolOfWord? (w : String) : Option Bool :=
  if ["true", "True", "TRUE"].contains w then some true
  else if ["false", "False", "FALSE"].contains w then some false
  else none

/-- Digits that do not start with a superfluous zero. -/
def natOfDigits? (cs : List Char) : Option Nat :=
  if cs = [] || !cs.all Char.isDigit then none
  else if cs.head? = some '0' && 1 < cs.length then none
  else some (cs.foldl (fun n c => n * 10 + (c.toNat - '0'.toNat)) 0)

def intOfWord? (w : String) : Option Int :=
  match w.toList with
  | '-' :: cs => (natOfDigits? cs).map fun n => -(n : Int)
  | '+' :: cs => (natOfDigits? cs).map Int.ofNat
  | cs => (natOfDigits? cs).map Int.ofNat

/-! ## Single values -/

def isNull : Document → Bool
  | .null => true
  | .plain w => isNullWord w
  | _ => false

def bool? : Document → Option Bool
  | .bool b => some b
  | .plain w => boolOfWord? w
  | _ => none

def text? : Document → Option String
  | .text s => some s
  | .plain w => some w
  | _ => none

def int? : Document → Option Int
  | .int n => some n
  | .plain w => intOfWord? w
  | _ => none

/-- A natural number of at most `bits` bits. -/
def nat? (bits : Nat) (d : Document) : Option Nat :=
  d.int?.bind fun n => if 0 ≤ n && n < pow2 bits then some n.toNat else none

/-- An integer of at most `bits` bits in two's complement. -/
def signed? (bits : Nat) (d : Document) : Option Int :=
  d.int?.bind fun n => if -(pow2 (bits - 1) : Int) ≤ n && n < pow2 (bits - 1) then some n else none

/-- The decimal of an integer of 64 bits. -/
def decimalOfInt? (n : Int) : Option Decimal :=
  if -(pow2 63 : Int) ≤ n && n < pow2 64 then Decimal.ofInt? n else none

/-- The decimal of a number written with a point, which keeps none of the zeros at its end. Only
numbers of at most fifteen digits are sure to be the number that was written. -/
def decimalOfReal? (coeff : Int) (places : Nat) : Option Decimal :=
  if h : places ≤ 28 ∧ coeff.natAbs < pow10 15 then
    some (Decimal.normalize ⟨coeff, places, Nat.lt_trans h.2 (by decide), h.1⟩)
  else none

/-- The number of a word that is written with a point. -/
def decimalOfWord? (w : String) : Option Decimal :=
  match intOfWord? w with
  | some n => decimalOfInt? n
  | none =>
    if w.toList.contains '.' then
      (Decimal.ofText? w).toOption.bind fun d => decimalOfReal? d.coeff d.scale
    else (Decimal.ofText? w).toOption

/-- A decimal is written as text; numbers are read as well. -/
def decimal? : Document → Option Decimal
  | .text s => (Decimal.ofText? s).toOption
  | .int n => decimalOfInt? n
  | .real coeff places => decimalOfReal? coeff places
  | .plain w => decimalOfWord? w
  | _ => none

def ofDecimal (d : Decimal) : Document := .text d.toText

/-- A list of values. A field left blank is an empty list. -/
def list? {α : Type} (read : Document → Option α) : Document → Option (List α)
  | .list items => items.mapM read
  | .plain "" => some []
  | _ => none

/-- A text that is one of the listed names. -/
def named? {α : Type} (names : List (String × α)) (d : Document) : Option α :=
  d.text?.bind fun s => names.lookup s

def ofList {α : Type} (write : α → Document) (items : List α) : Document :=
  .list (items.map write)

/-- Absence is written as `null`. -/
def ofOption {α : Type} (write : α → Document) : Option α → Document
  | none => .null
  | some a => write a

/-! ## Fields -/

/-- The entries of an object. One left blank has none. -/
def entries? : Document → Option (List (String × Document))
  | .object es => some es
  | .plain "" => some []
  | _ => none

/-- **A record by position.** A list stands for the object that has its items under the given
names, in their order; all but the names after the first `least` must be there. -/
def record (least : Nat) (names : List String) : Document → Document
  | .list items =>
    if least ≤ items.length && items.length ≤ names.length then .object (names.zip items)
    else .null
  | d => d

/-- The value of a field, if the document is an object that has it. -/
def field? (d : Document) (name : String) : Option Document :=
  d.entries?.bind (·.lookup name)

/-- **A field that must be there.** -/
def need {α : Type} (d : Document) (name : String) (read : Document → Option α) : Option α :=
  (d.field? name).bind read

/-- **A field that may be left out or null.** -/
def maybe {α : Type} (d : Document) (name : String) (read : Document → Option α) :
    Option (Option α) :=
  d.entries?.bind fun es =>
    match es.lookup name with
    | none => some none
    | some v => if v.isNull then some none else (read v).map some

/-- **A field with a default.** It may be left out, but a null is not its default. -/
def orElse {α : Type} (d : Document) (name : String) (read : Document → Option α)
    (default : α) : Option α :=
  d.entries?.bind fun es =>
    match es.lookup name with
    | none => some default
    | some v => read v

/-- Whether a document gives each of the named fields once at most, and none by position. -/
def isNamed (names : List String) (d : Document) : Bool :=
  match d with
  | .object es => names.all fun name => (es.filter (·.1 = name)).length ≤ 1
  | .list _ => false
  | _ => true

/-- A document without one of its fields. -/
def erase (name : String) : Document → Document
  | .object es => .object (es.filter (·.1 ≠ name))
  | d => d

/-- A field changed in place, if it is there. -/
def modify (name : String) (f : Document → Document) : Document → Document
  | .object es => .object (es.map fun (k, v) => if k = name then (k, f v) else (k, v))
  | d => d

/-- A document with one more field, the last. -/
def insert (d : Document) (name : String) (value : Document) : Document :=
  match d with
  | .object es => .object (es ++ [(name, value)])
  | d => d

end Document

end WalletLedger
