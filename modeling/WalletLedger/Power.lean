/-
**Powers of two and of ten,** by which ranges and scales are given.
-/

set_option autoImplicit false

namespace WalletLedger

/-- Two to the power of `n`, the number of values of `n` bits. -/
def pow2 (n : Nat) : Nat := Nat.pow 2 n

/-- Ten to the power of `n`, the number of values of `n` digits. -/
def pow10 (n : Nat) : Nat := Nat.pow 10 n

theorem pow10_zero : pow10 0 = 1 := rfl

theorem pow10_succ (n : Nat) : pow10 (n + 1) = pow10 n * 10 := rfl

theorem pow10_pos (n : Nat) : 0 < pow10 n := Nat.pow_pos (by decide)

theorem pow2_pos (n : Nat) : 0 < pow2 n := Nat.pow_pos (by decide)

end WalletLedger
