import Mathlib.Data.Nat.Bitwise

/-! Rounding up to a power of two by spreading the highest bit of a number. -/
namespace Machine

/-- From the bit `top` downwards so many bits are set, and none above. -/
structure Spread (top width x : Nat) : Prop where
  set : ∀ i, i ≤ top → top < i + width → x.testBit i = true
  clear : ∀ i, top < i → x.testBit i = false

variable {top width x : Nat}

theorem spread_log2 (nonzero : x ≠ 0) : Spread x.log2 1 x where
  set := by
    intro i low high
    have same : i = x.log2 := by omega
    rw [same]
    exact Nat.testBit_log2 nonzero
  clear := by
    intro i above
    apply Nat.testBit_lt_two_pow
    calc x < 2 ^ (x.log2 + 1) := Nat.lt_log2_self
      _ ≤ 2 ^ i := Nat.pow_le_pow_right (by omega) above

/-- Or-ing a number with itself, shifted by as many bits as are set, doubles them. -/
theorem spread_or (spread : Spread top width x) : Spread top (width + width) (x ||| x >>> width) where
  set := by
    intro i low high
    rw [Nat.testBit_or, Nat.testBit_shiftRight, Bool.or_eq_true]
    by_cases near : top < i + width
    · exact .inl (spread.set i low near)
    · exact .inr (spread.set (width + i) (by omega) (by omega))
  clear := by
    intro i above
    rw [Nat.testBit_or, Nat.testBit_shiftRight, spread.clear i above, spread.clear (width + i) (by omega)]
    rfl

theorem spread_all (spread : Spread top width x) (whole : top < width) : x = 2 ^ (top + 1) - 1 := by
  apply Nat.eq_of_testBit_eq
  intro i
  rw [Nat.testBit_two_pow_sub_one]
  by_cases low : i ≤ top
  · rw [spread.set i low (by omega)]
    simp
    omega
  · rw [spread.clear i (by omega)]
    simp
    omega

/-- The power of two that follows the highest bit of `x - 1` is the least one that is not below `x`. -/
theorem two_pow_log2 (two : 2 ≤ x) : x ≤ 2 ^ ((x - 1).log2 + 1) ∧ 2 ^ ((x - 1).log2 + 1) < 2 * x := by
  have above : x - 1 < 2 ^ ((x - 1).log2 + 1) := Nat.lt_log2_self
  have below : 2 ^ (x - 1).log2 ≤ x - 1 := Nat.log2_self_le (by omega)
  have double : 2 ^ ((x - 1).log2 + 1) = 2 * 2 ^ (x - 1).log2 := by rw [Nat.pow_succ, Nat.mul_comm]
  omega

end Machine
