import Mathlib.Algebra.Order.Floor.Ring
import Mathlib.Data.Rat.Floor
import Mathlib.Algebra.Order.AbsoluteValue.Basic
import Mathlib.Tactic.Linarith

/-!
# Floating point with exact finite values

IEEE arithmetic in which every finite operation is exact: a value is a rational number, an infinity
or not-a-number. Quotients by zero, comparisons with `nan` and the propagation of infinities follow
IEEE 754; there is one zero. Conversions to integers truncate toward zero.
-/

namespace Stm32Board.Common

/-- Truncation toward zero. -/
def trunc (q : ℚ) : ℤ :=
  if 0 ≤ q then ⌊q⌋ else ⌈q⌉

/-- Positive numbers are rounded down. -/
theorem trunc_of_nonneg {q : ℚ} (h : 0 ≤ q) : trunc q = ⌊q⌋ := if_pos h

theorem trunc_of_neg {q : ℚ} (h : q < 0) : trunc q = ⌈q⌉ := if_neg (not_le.mpr h)

/-- Truncation moves a value by less than one. -/
theorem abs_trunc_sub_lt_one (q : ℚ) : |(trunc q : ℚ) - q| < 1 := by
  rw [abs_lt]
  rcases le_or_gt 0 q with h | h
  · rw [trunc_of_nonneg h]
    have h₁ := Int.floor_le q
    have h₂ := Int.lt_floor_add_one q
    constructor <;> linarith
  · rw [trunc_of_neg h]
    have h₁ := Int.le_ceil q
    have h₂ := Int.ceil_lt_add_one q
    constructor <;> linarith

/-- The truncated magnitude is at most `n` exactly below `n + 1`. -/
theorem abs_trunc_le_iff (q : ℚ) (n : ℕ) : |trunc q| ≤ n ↔ |q| < n + 1 := by
  rcases le_or_gt 0 q with h | h
  · rw [trunc_of_nonneg h, abs_of_nonneg (Int.floor_nonneg.mpr h), abs_of_nonneg h,
      ← Int.lt_add_one_iff, Int.floor_lt]
    push_cast
    rfl
  · have hceil : ⌈q⌉ ≤ 0 := Int.ceil_le.mpr (by simpa using h.le)
    rw [trunc_of_neg h, abs_of_nonpos hceil, abs_of_neg h, neg_le, ← Int.sub_one_lt_iff, Int.lt_ceil]
    push_cast
    rw [sub_lt_iff_lt_add, ← sub_lt_iff_lt_add', neg_sub_left]
    constructor <;> intro h' <;> linarith

/-- On nonnegative values truncation is monotone. -/
theorem trunc_le_trunc {p q : ℚ} (hp : 0 ≤ p) (h : p ≤ q) : trunc p ≤ trunc q := by
  rw [trunc_of_nonneg hp, trunc_of_nonneg (hp.trans h)]
  exact Int.floor_le_floor h

/-- Less than one away from an integer, truncation is at most one away. -/
theorem abs_trunc_sub_le_one {q : ℚ} {n : ℤ} (hq : 0 ≤ q) (h : |q - n| < 1) :
    |trunc q - n| ≤ 1 := by
  obtain ⟨h₁, h₂⟩ := abs_lt.mp h
  have hupper : ⌊q⌋ < n + 1 := Int.floor_lt.mpr (by push_cast; linarith)
  have hlower : n - 1 ≤ ⌊q⌋ := Int.le_floor.mpr (by push_cast; linarith)
  rw [trunc_of_nonneg hq, abs_le]
  omega

/-- A value of exact floating point. -/
inductive ExactFloat where
  | nan
  | inf (neg : Bool)
  | fin (q : ℚ)
deriving DecidableEq

namespace ExactFloat

/-- Conversion from an integer. -/
def ofInt (n : ℤ) : ExactFloat := fin n

/-- Quotient: `0 / 0` is `nan`, any other quotient by zero is infinite. -/
def div : ExactFloat → ExactFloat → ExactFloat
  | fin a, fin b => if b = 0 then (if a = 0 then nan else inf (a < 0)) else fin (a / b)
  | fin _, inf _ => fin 0
  | inf s, fin b => inf (s ^^ decide (b < 0))
  | _, _ => nan

/-- Product; zero times infinity is `nan`. -/
def mul : ExactFloat → ExactFloat → ExactFloat
  | fin a, fin b => fin (a * b)
  | fin a, inf s => if a = 0 then nan else inf (decide (a < 0) ^^ s)
  | inf s, fin b => if b = 0 then nan else inf (s ^^ decide (b < 0))
  | inf s, inf t => inf (s ^^ t)
  | _, _ => nan

/-- Sum; infinities of opposite sign give `nan`. -/
def add : ExactFloat → ExactFloat → ExactFloat
  | fin a, fin b => fin (a + b)
  | fin _, inf s => inf s
  | inf s, fin _ => inf s
  | inf s, inf t => if s = t then inf s else nan
  | _, _ => nan

def neg : ExactFloat → ExactFloat
  | fin a => fin (-a)
  | inf s => inf (!s)
  | nan => nan

def sub (a b : ExactFloat) : ExactFloat := a.add b.neg

/-- `a < b`; every comparison with `nan` is false. -/
def lt : ExactFloat → ExactFloat → Bool
  | fin a, fin b => decide (a < b)
  | fin _, inf s => !s
  | inf s, fin _ => s
  | inf s, inf t => s && !t
  | _, _ => false

/-- Conversion to a 32-bit integer: truncation toward zero, saturating, `nan` to zero. A conversion
out of range is undefined in C; this is what the ARM conversion routines return. -/
def toInt32 : ExactFloat → ℤ
  | fin q => max (-2147483648) (min (trunc q) 2147483647)
  | inf s => if s then -2147483648 else 2147483647
  | nan => 0

/-- Conversion to an unsigned 32-bit integer: truncation toward zero, saturating, `nan` to zero. -/
def toUInt32 : ExactFloat → ℕ
  | fin q => min (trunc q).toNat 4294967295
  | inf s => if s then 0 else 4294967295
  | nan => 0

@[simp] theorem mul_fin (a b : ℚ) : (fin a).mul (fin b) = fin (a * b) := rfl

@[simp] theorem add_fin (a b : ℚ) : (fin a).add (fin b) = fin (a + b) := rfl

@[simp] theorem sub_fin (a b : ℚ) : (fin a).sub (fin b) = fin (a - b) := by
  rw [sub, neg, add_fin, sub_eq_add_neg]

/-- The quotient of two numbers, but for a divisor of zero. -/
theorem div_fin {a b : ℚ} (h : b ≠ 0) : (fin a).div (fin b) = fin (a / b) := if_neg h

/-- A positive number over zero is infinite. -/
theorem div_zero_of_pos {a : ℚ} (h : 0 < a) : (fin a).div (fin 0) = inf false := by
  rw [div, if_pos rfl, if_neg h.ne', decide_eq_false (not_lt.mpr h.le)]

/-- Zero over zero is no number. -/
theorem zero_div_zero : (fin 0).div (fin 0) = nan := by
  rw [div, if_pos rfl, if_pos rfl]

/-- In range, the conversion is plain truncation. -/
theorem toInt32_fin {q : ℚ} (h : |q| < 2147483648) : (fin q).toInt32 = trunc q := by
  have hle := (abs_trunc_le_iff q 2147483647).mpr (by norm_num; exact h)
  rw [abs_le] at hle
  push_cast at hle
  rw [toInt32, min_eq_left hle.2, max_eq_right (by linarith [hle.1])]

/-- In range, the unsigned conversion is plain truncation. -/
theorem toUInt32_fin {q : ℚ} (h₀ : 0 ≤ q) (h : q < 4294967296) :
    ((fin q).toUInt32 : ℤ) = trunc q := by
  have hnonneg : 0 ≤ ⌊q⌋ := Int.floor_nonneg.mpr h₀
  have hlt : ⌊q⌋ < 4294967296 := Int.floor_lt.mpr (by exact_mod_cast h)
  rw [toUInt32, trunc_of_nonneg h₀]
  omega

end ExactFloat

end Stm32Board.Common
