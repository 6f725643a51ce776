import Mathlib.Data.Nat.Digits.Defs

/-!
# Little-endian bytes

`littleEndian n v` is the `n` lowest bytes of `v`, the lowest first. Read back as digits of base 256,
they give `v` modulo `256 ^ n` (`ofLittleEndian_littleEndian`).
-/

namespace Stm32Board.Common

/-- The `n` lowest bytes of `v`, the lowest first. -/
def littleEndian (n v : ℕ) : List UInt8 := (List.range n).map fun t => UInt8.ofNat (v / 256 ^ t)

/-- The number a list of bytes stands for. -/
def ofLittleEndian (bs : List UInt8) : ℕ := Nat.ofDigits 256 (bs.map UInt8.toNat)

@[simp] theorem length_littleEndian (n v : ℕ) : (littleEndian n v).length = n := by
  rw [littleEndian, List.length_map, List.length_range]

/-- The lowest byte comes first. -/
theorem littleEndian_succ (n v : ℕ) :
    littleEndian (n + 1) v = UInt8.ofNat v :: littleEndian n (v / 256) := by
  rw [littleEndian, List.range_succ_eq_map, List.map_cons, List.map_map, Nat.pow_zero, Nat.div_one]
  refine congrArg _ (List.map_congr_left fun t _ => ?_)
  rw [Function.comp_apply, Nat.pow_succ', Nat.div_div_eq_div_mul]

theorem ofLittleEndian_cons (b : UInt8) (bs : List UInt8) :
    ofLittleEndian (b :: bs) = b.toNat + 256 * ofLittleEndian bs := by
  rw [ofLittleEndian, List.map_cons, Nat.ofDigits_cons]
  rfl

/-- The bytes of a number stand for it, up to the width. -/
theorem ofLittleEndian_littleEndian (n v : ℕ) : ofLittleEndian (littleEndian n v) = v % 256 ^ n := by
  induction n generalizing v with
  | zero => rw [Nat.pow_zero, Nat.mod_one]; rfl
  | succ n ih =>
    have hlow : (UInt8.ofNat v).toNat = v % 256 := UInt8.toNat_ofNat'
    rw [littleEndian_succ, ofLittleEndian_cons, ih, hlow, Nat.pow_succ', Nat.mod_mul]

end Stm32Board.Common
