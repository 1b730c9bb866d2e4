/-
**The written form of identifiers.** An identifier is written as 26 digits of base 32. Each of its
texts reads as the identifier again (`ofText?_text`), but reading accepts more than that: a text is
read if it stands for a number at all (`Legible`), in either case, and 26 digits hold 130 bits.

The numbers below `2 ^ 128` are what identifiers write (`legible_iff_text`). A text of a larger
number is `Overlong`: no identifier writes it, and reading drops its highest bits, so it is read as
an identifier whose text is another one (`ofText?_of_overlong`).
-/
import Mathlib.Data.List.Induction
import Mathlib.Data.String.Basic
import Mathlib.Tactic.Tauto
import WalletLedger.TransferId

set_option autoImplicit false

namespace WalletLedger

namespace TransferId

/-! ## 1. Digits and numbers -/

/-- The number of some digits of base 32, the most significant first. -/
def value (ds : List Nat) : Nat := ds.foldl (fun n d => n * 32 + d) 0

theorem value_concat (ds : List Nat) (d : Nat) : value (ds ++ [d]) = value ds * 32 + d := by
  simp [value, List.foldl_append]

theorem length_digits (count n : Nat) : (digits count n).length = count := by simp [digits]

theorem digits_succ (count n : Nat) : digits (count + 1) n = digits count (n / 32) ++ [n % 32] := by
  have shift (i : Nat) (hi : i < count) :
      n / pow2 (5 * (count + 1 - 1 - i)) = n / 32 / pow2 (5 * (count - 1 - i)) := by
    have : 5 * (count + 1 - 1 - i) = 5 + 5 * (count - 1 - i) := by omega
    rw [this, Nat.div_div_eq_div_mul]
    exact congrArg (n / ·) (Nat.pow_add 2 5 _)
  rw [digits, List.range_succ, List.map_append, digits]
  congr 1
  · refine List.map_congr_left fun i hi => ?_
    rw [shift i (List.mem_range.1 hi)]
  · simp [pow2]

theorem digits_lt {count n d : Nat} (h : d ∈ digits count n) : d < 32 := by
  obtain ⟨_, -, rfl⟩ := List.mem_map.1 h
  exact Nat.mod_lt _ (by decide)

/-- So many digits hold the number but for its higher ones. -/
theorem value_digits (count n : Nat) : value (digits count n) = n % 32 ^ count := by
  induction count generalizing n with
  | zero => simp [digits, value, Nat.mod_one]
  | succ count ih =>
    rw [digits_succ, value_concat, ih, Nat.pow_succ', Nat.mod_mul]
    omega

theorem digits_value (ds : List Nat) (h : ∀ d ∈ ds, d < 32) :
    digits ds.length (value ds) = ds := by
  induction ds using List.reverseRecOn with
  | nil => rfl
  | append_singleton ds d ih =>
    have hd : d < 32 := h d (by simp)
    have quotient : (value ds * 32 + d) / 32 = value ds := by omega
    have remainder : (value ds * 32 + d) % 32 = d := by omega
    rw [List.length_append, List.length_singleton, digits_succ, value_concat, quotient, remainder,
      ih fun x hx => h x (by simp [hx])]

/-! ## 2. Letters -/

theorem digitOfChar?_eq_some {c : Char} {d : Nat} :
    digitOfChar? c = some d ↔ d < 32 ∧ charOfDigit d = c.toUpper := by
  constructor
  · intro h
    obtain ⟨hlt, hp, -⟩ := List.findIdx?_eq_some_iff_getElem.1 h
    refine ⟨hlt, ?_⟩
    rw [charOfDigit, ← List.getElem_eq_getD (h := hlt)]
    exact eq_of_beq hp
  · rintro ⟨hlt, hc⟩
    have all : ∀ d : Fin 32, alphabet.findIdx? (· == charOfDigit d) = some d.val := by decide
    rw [digitOfChar?, ← hc]
    exact all ⟨d, hlt⟩

/-- **The digits of some letters** are read off their upper case. -/
theorem mapM_digitOfChar? {cs : List Char} {ds : List Nat} :
    cs.mapM digitOfChar? = some ds ↔
      (∀ d ∈ ds, d < 32) ∧ ds.map charOfDigit = cs.map Char.toUpper := by
  induction cs generalizing ds with
  | nil => cases ds <;> simp
  | cons c cs ih =>
    cases ds with
    | nil => simp [List.mapM_cons, Option.bind_eq_some_iff]
    | cons d ds =>
      simp only [List.mapM_cons, bind_pure_comp, Option.bind_eq_bind, Option.bind_eq_some_iff,
        Option.map_eq_map, Option.map_eq_some_iff, List.cons.injEq, exists_eq_right_right, ih,
        digitOfChar?_eq_some, List.forall_mem_cons, List.map_cons]
      tauto

/-- The letters of the alphabet are of one byte each, in either case. -/
theorem utf8Size_eq_one {c : Char} {d : Nat} (h : digitOfChar? c = some d) : c.utf8Size = 1 := by
  obtain ⟨hlt, hc⟩ := digitOfChar?_eq_some.1 h
  by_cases lower : 'a'.val ≤ c.val ∧ c.val ≤ 'z'.val
  · have ascii : c.val ≤ 127 := UInt32.le_trans lower.2 (by decide)
    exact if_pos ascii
  · have same : c.toUpper = c := dif_neg lower
    have all : ∀ d : Fin 32, (charOfDigit d).utf8Size = 1 := by decide
    rw [← same, ← hc]
    exact all ⟨d, hlt⟩

/-- Texts of such letters have as many bytes as letters. -/
theorem utf8ByteSize_of_mapM {s : String} {ds : List Nat}
    (h : s.toList.mapM digitOfChar? = some ds) : s.utf8ByteSize = s.toList.length := by
  rw [← String.ofList_toList (s := s), String.utf8ByteSize_ofList, String.toList_ofList]
  generalize s.toList = cs at h
  induction cs generalizing ds with
  | nil => rfl
  | cons c cs ih =>
    obtain ⟨d, ds', hd, hds, -⟩ : ∃ d ds', digitOfChar? c = some d ∧
        cs.mapM digitOfChar? = some ds' ∧ d :: ds' = ds := by
      simpa [List.mapM_cons, Option.bind_eq_some_iff] using h
    rw [String.utf8Len, ih hds, utf8Size_eq_one hd, List.length_cons]

/-! ## 3. Reading and writing -/

/-- The number that a text stands for, if it has as many digits as an identifier. -/
def number? (s : String) : Option Nat :=
  if s.toList.length = 26 then (s.toList.mapM digitOfChar?).map value else none

theorem number?_eq_some {s : String} {n : Nat} :
    number? s = some n ↔ ∃ ds, s.toList.length = 26 ∧ s.toList.mapM digitOfChar? = some ds ∧
      value ds = n := by
  unfold number?
  split <;> simp_all

/-- **What is read** is what stands for a number, whose highest bits are dropped. -/
theorem ofText?_eq_ok {s : String} {id : TransferId} :
    ofText? s = .ok id ↔ ∃ n, number? s = some n ∧ ofNat n = id := by
  unfold ofText?
  cases h : s.toList.mapM digitOfChar? with
  | none => by_cases hlen : s.utf8ByteSize = 26 <;> simp [number?, h, hlen]
  | some ds =>
    rw [utf8ByteSize_of_mapM h]
    by_cases hlen : s.toList.length = 26 <;> simp [number?, h, hlen, value]

/-- **A text of 26 digits,** in either case. -/
def Legible (s : String) : Prop := ∃ n, number? s = some n

/-- **A text of a larger number** than identifiers have. -/
def Overlong (s : String) : Prop := ∃ n, number? s = some n ∧ pow2 128 ≤ n

/-- **A text that no identifier writes,** in either case. -/
def Malformed (s : String) : Prop := ∀ id : TransferId, id.text ≠ s.toUpper

theorem toList_text (id : TransferId) : id.text.toList = (digits 26 id.bits).map charOfDigit := by
  rw [text, String.toList_ofList]

/-- An identifier is all of its 26 digits. -/
theorem value_digits_bits (id : TransferId) : value (digits 26 id.bits) = id.bits := by
  rw [value_digits]
  exact Nat.mod_eq_of_lt (Nat.lt_trans id.bits_lt (by decide))

/-- **The texts of an identifier** are those of its number, in either case. -/
theorem text_eq_toUpper_iff {s : String} {id : TransferId} :
    id.text = s.toUpper ↔ number? s = some id.bits := by
  rw [number?_eq_some, ← String.toList_inj, toList_text, String.toUpper, String.toList_map]
  constructor
  · intro h
    have hlen : s.toList.length = 26 := by
      simpa [length_digits] using (congrArg List.length h).symm
    exact ⟨digits 26 id.bits, hlen, mapM_digitOfChar?.2 ⟨fun d hd => digits_lt hd, h⟩,
      value_digits_bits id⟩
  · rintro ⟨ds, hlen, hds, hn⟩
    obtain ⟨hlt, hletters⟩ := mapM_digitOfChar?.1 hds
    have hcount : ds.length = 26 := by
      simpa [hlen] using congrArg List.length hletters
    rw [← hletters, ← hn, ← hcount, digits_value ds hlt]

theorem ofNat_bits (id : TransferId) : ofNat id.bits = id := by
  cases id with
  | mk bits bits_lt => simp [ofNat, Nat.mod_eq_of_lt bits_lt]

/-- Identifiers are written in upper case. -/
theorem toUpper_text (id : TransferId) : id.text.toUpper = id.text := by
  have all : ∀ d : Fin 32, (charOfDigit d).toUpper = charOfDigit d := by decide
  rw [← String.toList_inj, String.toUpper, String.toList_map, toList_text, List.map_map]
  exact List.map_congr_left fun d hd => all ⟨d, digits_lt hd⟩

/-- **An identifier is read from its text,** in either case. -/
theorem ofText?_of_text {s : String} {id : TransferId} (h : id.text = s.toUpper) :
    ofText? s = .ok id :=
  ofText?_eq_ok.2 ⟨id.bits, text_eq_toUpper_iff.1 h, ofNat_bits id⟩

theorem ofText?_text (id : TransferId) : ofText? id.text = .ok id :=
  ofText?_of_text (toUpper_text id).symm

/-- What is written for an identifier is not overlong. -/
theorem not_overlong_text (id : TransferId) : ¬ Overlong id.text := by
  rintro ⟨n, hn, hle⟩
  have hid : number? id.text = some id.bits := text_eq_toUpper_iff.1 (toUpper_text id).symm
  obtain rfl : n = id.bits := Option.some.inj (hn.symm.trans hid)
  exact Nat.not_le.2 id.bits_lt hle

/-- **The malformed texts** stand for no number, or for one that is too large. -/
theorem malformed_iff {s : String} : Malformed s ↔ ¬ Legible s ∨ Overlong s := by
  constructor
  · intro h
    by_contra hno
    obtain ⟨⟨n, hn⟩, hshort⟩ : Legible s ∧ ¬ Overlong s := by tauto
    have hlt : n < pow2 128 := by
      by_contra hle
      exact hshort ⟨n, hn, Nat.not_lt.1 hle⟩
    exact h ⟨n, hlt⟩ (text_eq_toUpper_iff.2 hn)
  · rintro h id hid
    have hn := text_eq_toUpper_iff.1 hid
    obtain hill | ⟨n, hn', hle⟩ := h
    · exact hill ⟨_, hn⟩
    · obtain rfl : n = id.bits := Option.some.inj (hn'.symm.trans hn)
      exact Nat.not_le.2 id.bits_lt hle

/-- **The legible texts are read,** and no others. -/
theorem read_iff {s : String} : (∃ id, ofText? s = .ok id) ↔ Legible s := by
  simp only [ofText?_eq_ok, Legible]
  constructor
  · rintro ⟨-, n, hn, -⟩
    exact ⟨n, hn⟩
  · rintro ⟨n, hn⟩
    exact ⟨ofNat n, n, hn, rfl⟩

/-- The only malformed texts that are read are the overlong ones. -/
theorem not_legible_iff {s : String} : ¬ Legible s ↔ Malformed s ∧ ¬ Overlong s := by
  have legible_of_overlong : Overlong s → Legible s := fun ⟨n, hn, _⟩ => ⟨n, hn⟩
  rw [malformed_iff]
  tauto

end TransferId

end WalletLedger
