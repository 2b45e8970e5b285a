import Mathlib.Data.Nat.Bitwise

/-!
# Blocks of numbers

A number `n` of `w` bits and a mask `m` determine the numbers from `first m n` to `last w m n`.  A mask of ones
followed by `k` zeros cuts the numbers into blocks of `2 ^ k`.
-/

namespace Subnets

/-- The bits of `n` under the mask. -/
def first (m n : Nat) : Nat := n &&& m

/-- The bits of `n`, and all that the mask leaves free. -/
def last (w m n : Nat) : Nat := n ||| (2 ^ w - 1 - m)

variable {w k m n u v : Nat}

/-- The bits of two numbers side by side. -/
theorem and_concat (x y : Nat) (hu : u < 2 ^ k) (hv : v < 2 ^ k) :
    (2 ^ k * x + u) &&& (2 ^ k * y + v) = 2 ^ k * (x &&& y) + (u &&& v) := by
  have huv : u &&& v < 2 ^ k := Nat.lt_of_le_of_lt Nat.and_le_left hu
  apply Nat.eq_of_testBit_eq
  intro i
  rw [Nat.testBit_and, Nat.testBit_two_pow_mul_add x hu, Nat.testBit_two_pow_mul_add y hv,
    Nat.testBit_two_pow_mul_add _ huv]
  split <;> rw [Nat.testBit_and]

theorem or_concat (x y : Nat) (hu : u < 2 ^ k) (hv : v < 2 ^ k) :
    (2 ^ k * x + u) ||| (2 ^ k * y + v) = 2 ^ k * (x ||| y) + (u ||| v) := by
  have huv : u ||| v < 2 ^ k := Nat.or_lt_two_pow hu hv
  apply Nat.eq_of_testBit_eq
  intro i
  rw [Nat.testBit_or, Nat.testBit_two_pow_mul_add x hu, Nat.testBit_two_pow_mul_add y hv,
    Nat.testBit_two_pow_mul_add _ huv]
  split <;> rw [Nat.testBit_or]

theorem first_le : first m n ≤ n := Nat.and_le_left

theorem last_lt (hn : n < 2 ^ w) : last w m n < 2 ^ w := by
  have hpos := Nat.two_pow_pos w
  exact Nat.or_lt_two_pow hn (by omega)

/-- Masks of ones followed by `k` zeros. -/
theorem first_prefix (hn : n < 2 ^ w) (hk : k ≤ w) : first (2 ^ w - 2 ^ k) n = 2 ^ k * (n / 2 ^ k) := by
  have hmask : 2 ^ w - 2 ^ k = 2 ^ k * (2 ^ (w - k) - 1) + 0 := by
    rw [Nat.add_zero, Nat.mul_sub, ← Nat.pow_add, Nat.add_sub_cancel' hk, Nat.mul_one]
  have hquot : n / 2 ^ k < 2 ^ (w - k) := by
    rw [Nat.div_lt_iff_lt_mul (Nat.two_pow_pos k), ← Nat.pow_add, Nat.sub_add_cancel hk]
    exact hn
  have hones : n / 2 ^ k &&& (2 ^ (w - k) - 1) = n / 2 ^ k := by
    rw [Nat.and_two_pow_sub_one_eq_mod, Nat.mod_eq_of_lt hquot]
  rw [first, hmask]
  conv_lhs => rw [← Nat.div_add_mod n (2 ^ k)]
  rw [and_concat _ _ (Nat.mod_lt n (Nat.two_pow_pos k)) (Nat.two_pow_pos k), hones, Nat.and_zero, Nat.add_zero]

theorem last_prefix (hk : k ≤ w) : last w (2 ^ w - 2 ^ k) n = 2 ^ k * (n / 2 ^ k) + (2 ^ k - 1) := by
  have hle := Nat.pow_le_pow_right (n := 2) (by omega) hk
  have hpos := Nat.two_pow_pos k
  have hmask : 2 ^ w - 1 - (2 ^ w - 2 ^ k) = 2 ^ k * 0 + (2 ^ k - 1) := by omega
  have hones : n % 2 ^ k ||| (2 ^ k - 1) = 2 ^ k - 1 := by
    apply Nat.eq_of_testBit_eq
    intro i
    rw [Nat.testBit_or, Nat.testBit_two_pow_sub_one, Nat.testBit_mod_two_pow]
    cases decide (i < k) <;> simp
  rw [last, hmask]
  conv_lhs => rw [← Nat.div_add_mod n (2 ^ k)]
  rw [or_concat _ _ (Nat.mod_lt n hpos) (by omega), hones, Nat.or_zero]

end Subnets
