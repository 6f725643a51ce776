import Mathlib.Control.Monad.Basic
import Mathlib.Data.Int.Notation
import Mathlib.Tactic.Common

/-!
# Unsigned arithmetic that notes what wraps

`Arith` computations work with machine words. A division by zero is undefined; an operation whose
machine result differs from the exact integer result is noted and goes on with the machine result. A
computation that is defined and in which nothing wraps satisfies `Exactly`, and has a rule for every
operation, with the range in which the operation is exact as its precondition.
-/

namespace Stm32Board.Common

/-- A computation that may be undefined. The state says whether something has wrapped. -/
abbrev Arith : Type → Type := StateT Bool Option

namespace Arith

variable {α β : Type}

def undefined : Arith α := fun _ => none

/-- The machine result `r`, of value `v`, of an operation with exact result `z`. -/
def result (r : α) (v z : ℤ) : Arith α := fun wrapped => some (r, wrapped || decide (v ≠ z))

def add32 (a b : UInt32) : Arith UInt32 := result (a + b) (a + b).toNat (a.toNat + b.toNat)

def sub32 (a b : UInt32) : Arith UInt32 := result (a - b) (a - b).toNat (a.toNat - b.toNat)

def mul32 (a b : UInt32) : Arith UInt32 := result (a * b) (a * b).toNat (a.toNat * b.toNat)

def div32 (a b : UInt32) : Arith UInt32 := if b = 0 then undefined else pure (a / b)

def sub64 (a b : UInt64) : Arith UInt64 := result (a - b) (a - b).toNat (a.toNat - b.toNat)

def mul64 (a b : UInt64) : Arith UInt64 := result (a * b) (a * b).toNat (a.toNat * b.toNat)

def div64 (a b : UInt64) : Arith UInt64 := if b = 0 then undefined else pure (a / b)

/-- Conversion to 32 bits, with a lost bit counted as a wrap. -/
def narrow32 (a : UInt64) : Arith UInt32 := result a.toUInt32 a.toUInt32.toNat a.toNat

/-! ## Computations in which nothing wraps -/

/-- `m` is defined, nothing in it wraps, and its result has `P`. -/
def Exactly (m : Arith α) (P : α → Prop) : Prop := ∃ a, m.run false = some (a, false) ∧ P a

/-- A value that is there. -/
theorem Exactly.pure {a : α} {P : α → Prop} (h : P a) : Exactly (Pure.pure a) P := ⟨a, rfl, h⟩

/-- A computation and what is done with its value. -/
theorem Exactly.bind {m : Arith α} {f : α → Arith β} {P : α → Prop} {Q : β → Prop}
    (hm : Exactly m P) (hf : ∀ a, P a → Exactly (f a) Q) : Exactly (m >>= f) Q := by
  obtain ⟨a, hrun, ha⟩ := hm
  obtain ⟨b, hrun', hb⟩ := hf a ha
  refine ⟨b, ?_, hb⟩
  rw [StateT.run_bind, hrun]
  exact hrun'

/-- What holds of the value may be weakened. -/
theorem Exactly.mono {m : Arith α} {P Q : α → Prop} (hm : Exactly m P) (h : ∀ a, P a → Q a) :
    Exactly m Q := by
  obtain ⟨a, hrun, ha⟩ := hm
  exact ⟨a, hrun, h a ha⟩

/-- A result that is the mathematical one. -/
theorem exactly_result {r : α} {v z : ℤ} (h : v = z) {P : α → Prop} (hr : P r) :
    Exactly (result r v z) P := by
  refine ⟨r, ?_, hr⟩
  show some (r, false || decide (v ≠ z)) = some (r, false)
  rw [decide_eq_false (not_not.mpr h)]
  rfl

theorem exactly_add32 {a b : UInt32} (h : a.toNat + b.toNat < 4294967296) :
    Exactly (add32 a b) fun r => r.toNat = a.toNat + b.toNat := by
  have hval : (a + b).toNat = a.toNat + b.toNat := by
    rw [UInt32.toNat_add]
    exact Nat.mod_eq_of_lt h
  exact exactly_result (by rw [hval]; push_cast; rfl) hval

/-- A difference that is not negative. -/
theorem exactly_sub32 {a b : UInt32} (h : b.toNat ≤ a.toNat) :
    Exactly (sub32 a b) fun r => r.toNat = a.toNat - b.toNat := by
  have hval : (a - b).toNat = a.toNat - b.toNat :=
    UInt32.toNat_sub_of_le _ _ (UInt32.le_iff_toNat_le.mpr h)
  exact exactly_result (by rw [hval]; omega) hval

theorem exactly_mul32 {a b : UInt32} (h : a.toNat * b.toNat < 4294967296) :
    Exactly (mul32 a b) fun r => r.toNat = a.toNat * b.toNat := by
  have hval : (a * b).toNat = a.toNat * b.toNat := by
    rw [UInt32.toNat_mul]
    exact Nat.mod_eq_of_lt h
  exact exactly_result (by rw [hval]; push_cast; rfl) hval

/-- A quotient with a divisor. -/
theorem exactly_div32 {a b : UInt32} (h : 0 < b.toNat) :
    Exactly (div32 a b) fun r => r.toNat = a.toNat / b.toNat := by
  have hb : b ≠ 0 := by
    rintro rfl
    exact absurd h (by decide)
  rw [div32, if_neg hb]
  exact .pure (UInt32.toNat_div _ _)

/-- A 64-bit difference that is not negative. -/
theorem exactly_sub64 {a b : UInt64} (h : b.toNat ≤ a.toNat) :
    Exactly (sub64 a b) fun r => r.toNat = a.toNat - b.toNat := by
  have hval : (a - b).toNat = a.toNat - b.toNat :=
    UInt64.toNat_sub_of_le _ _ (UInt64.le_iff_toNat_le.mpr h)
  exact exactly_result (by rw [hval]; omega) hval

/-- A 64-bit product that fits. -/
theorem exactly_mul64 {a b : UInt64} (h : a.toNat * b.toNat < 18446744073709551616) :
    Exactly (mul64 a b) fun r => r.toNat = a.toNat * b.toNat := by
  have hval : (a * b).toNat = a.toNat * b.toNat := by
    rw [UInt64.toNat_mul]
    exact Nat.mod_eq_of_lt h
  exact exactly_result (by rw [hval]; push_cast; rfl) hval

/-- A 64-bit quotient with a divisor. -/
theorem exactly_div64 {a b : UInt64} (h : 0 < b.toNat) :
    Exactly (div64 a b) fun r => r.toNat = a.toNat / b.toNat := by
  have hb : b ≠ 0 := by
    rintro rfl
    exact absurd h (by decide)
  rw [div64, if_neg hb]
  exact .pure (UInt64.toNat_div _ _)

/-- A 64-bit value that fits 32 bits. -/
theorem exactly_narrow32 {a : UInt64} (h : a.toNat < 4294967296) :
    Exactly (narrow32 a) fun r => r.toNat = a.toNat := by
  have hval : a.toUInt32.toNat = a.toNat := by
    rw [UInt64.toNat_toUInt32]
    exact Nat.mod_eq_of_lt h
  exact exactly_result (by rw [hval]) hval

end Arith

end Stm32Board.Common
