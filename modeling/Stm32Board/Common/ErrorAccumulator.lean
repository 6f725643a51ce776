import Mathlib.Data.Int.Notation
import Mathlib.Logic.Function.Iterate
import Mathlib.Tactic.Linarith

/-!
# Error accumulators

An accumulator adds `delta` every round and, once it is above `distance`, takes `distance` away and
carries one. For `delta` up to `distance` the residue stays in `(0, distance]`, so after `k` rounds
the carries are `k * delta / distance` rounded up, less one. Two accumulators of the same `distance`
keep in proportion (`abs_deviation_lt`), which is what makes the incremental drawing of a line exact.
-/

namespace Stm32Board.Common

/-- One round on the residue and the number of carries. -/
def accumulate (distance delta : ℤ) (s : ℤ × ℤ) : ℤ × ℤ :=
  if s.1 + delta > distance then (s.1 + delta - distance, s.2 + 1) else (s.1 + delta, s.2)

/-- The residue after `k` rounds. -/
def residue (distance delta : ℤ) (k : ℕ) : ℤ := ((accumulate distance delta)^[k] (0, 0)).1

/-- The carries of the first `k` rounds. -/
def carries (distance delta : ℤ) (k : ℕ) : ℤ := ((accumulate distance delta)^[k] (0, 0)).2

section General

variable (distance delta : ℤ)

/-- Nothing has been accumulated at first. -/
theorem residue_zero : residue distance delta 0 = 0 := rfl

theorem carries_zero : carries distance delta 0 = 0 := rfl

theorem accumulate_residue_carries (k : ℕ) :
    accumulate distance delta (residue distance delta k, carries distance delta k) =
      (residue distance delta (k + 1), carries distance delta (k + 1)) := by
  rw [residue, carries, residue, carries, Function.iterate_succ_apply']

/-- A round carries or it does not. -/
theorem carries_succ (k : ℕ) :
    (carries distance delta (k + 1) = carries distance delta k ∧
      residue distance delta k + delta ≤ distance ∧
      residue distance delta (k + 1) = residue distance delta k + delta) ∨
    (carries distance delta (k + 1) = carries distance delta k + 1 ∧
      distance < residue distance delta k + delta ∧
      residue distance delta (k + 1) = residue distance delta k + delta - distance) := by
  have hround := accumulate_residue_carries distance delta k
  rw [accumulate] at hround
  split at hround
  · rename_i hcarry
    exact Or.inr ⟨(congrArg Prod.snd hround).symm, hcarry, (congrArg Prod.fst hround).symm⟩
  · rename_i hcarry
    exact Or.inl ⟨(congrArg Prod.snd hround).symm, not_lt.mp hcarry,
      (congrArg Prod.fst hround).symm⟩

/-- Nothing is lost: what was added is in the residue or was carried. -/
theorem residue_add_carries (k : ℕ) :
    residue distance delta k + distance * carries distance delta k = k * delta := by
  induction k with
  | zero =>
    rw [residue_zero, carries_zero]
    simp
  | succ k ih =>
    push_cast
    rcases carries_succ distance delta k with
      ⟨hcarries, -, hresidue⟩ | ⟨hcarries, -, hresidue⟩
    · rw [hcarries, hresidue]
      linarith
    · rw [hcarries, hresidue]
      linarith

/-- A round carries once at most. -/
theorem carries_step (k : ℕ) : carries distance delta k ≤ carries distance delta (k + 1) ∧
    carries distance delta (k + 1) ≤ carries distance delta k + 1 := by
  rcases carries_succ distance delta k with ⟨h, -⟩ | ⟨h, -⟩
  · rw [h]
    exact ⟨le_rfl, by omega⟩
  · rw [h]
    exact ⟨by omega, le_rfl⟩

end General

variable {distance delta : ℤ}

/-- The residue stays between `0` and `distance`. -/
theorem residue_bounds (hdelta : 0 ≤ delta) (hle : delta ≤ distance) (k : ℕ) :
    0 ≤ residue distance delta k ∧ residue distance delta k ≤ distance := by
  induction k with
  | zero => exact ⟨le_rfl, hdelta.trans hle⟩
  | succ k ih =>
    rcases carries_succ distance delta k with
      ⟨-, hsmall, hresidue⟩ | ⟨-, hlarge, hresidue⟩
    · rw [hresidue]
      exact ⟨by linarith [ih.1], hsmall⟩
    · rw [hresidue]
      exact ⟨by linarith, by linarith [ih.2]⟩

/-- After the first round of a positive `delta` the residue is positive. -/
theorem residue_pos (hdelta : 0 < delta) (hle : delta ≤ distance) (k : ℕ) :
    0 < residue distance delta (k + 1) := by
  have hnonneg := (residue_bounds hdelta.le hle k).1
  rcases carries_succ distance delta k with
    ⟨-, -, hresidue⟩ | ⟨-, hlarge, hresidue⟩
  · rw [hresidue]
    linarith
  · rw [hresidue]
    linarith

/-- The carries are the quotient rounded up, less one. -/
theorem carries_eq_div (hdelta : 0 < delta) (hle : delta ≤ distance) (k : ℕ) :
    carries distance delta (k + 1) = ((k + 1) * delta - 1) / distance := by
  have hsum := residue_add_carries distance delta (k + 1)
  have hpos := residue_pos hdelta hle k
  have hbound := (residue_bounds hdelta.le hle (k + 1)).2
  push_cast at hsum
  refine ((Int.ediv_eq_iff_of_pos (hdelta.trans_le hle)).mpr ⟨?_, ?_⟩).symm
  · linarith
  · linarith

/-- Without a `delta` nothing is carried. -/
theorem carries_of_zero (hle : 0 ≤ distance) (k : ℕ) : carries distance 0 k = 0 := by
  induction k with
  | zero => rfl
  | succ k ih =>
    have hsum := residue_add_carries distance 0 k
    rcases carries_succ distance 0 k with
      ⟨hcarries, -, -⟩ | ⟨-, hlarge, -⟩
    · rw [hcarries, ih]
    · rw [ih] at hsum
      exact absurd hlarge (by linarith)

/-- An accumulator that adds the whole `distance` carries in every round but the first. -/
theorem carries_self (hpos : 0 < distance) (k : ℕ) : carries distance distance (k + 1) = k := by
  rw [carries_eq_div hpos le_rfl]
  refine (Int.ediv_eq_iff_of_pos hpos).mpr ⟨?_, ?_⟩
  · linarith
  · linarith

/-- After `distance + 1` rounds the carries have made up `delta`. -/
theorem carries_last (hdelta : 0 ≤ delta) (hle : delta ≤ distance) {k : ℕ}
    (hk : (k : ℤ) = distance) : carries distance delta (k + 1) = delta := by
  rcases hdelta.eq_or_lt with rfl | hpos
  · exact carries_of_zero hle _
  · rw [carries_eq_div hpos hle, hk]
    refine (Int.ediv_eq_iff_of_pos (hpos.trans_le hle)).mpr ⟨?_, ?_⟩
    · linarith
    · linarith

/-- Later rounds have carried more. -/
theorem carries_mono {j k : ℕ} (h : j ≤ k) :
    carries distance delta j ≤ carries distance delta k := by
  induction k, h using Nat.le_induction with
  | base => exact le_rfl
  | succ k _ ih => exact ih.trans (carries_step distance delta k).1

/-- The carries of an accumulator stay less than one from those of the one that adds the whole
`distance`, in proportion. -/
theorem abs_deviation_lt (hpos : 0 < distance) (hdelta : 0 ≤ delta) (hle : delta ≤ distance)
    (k : ℕ) :
    |distance * carries distance delta k - delta * carries distance distance k| < distance := by
  cases k with
  | zero =>
    rw [carries_zero, carries_zero]
    simpa using hpos
  | succ k =>
    rcases hdelta.eq_or_lt with rfl | hdelta
    · rw [carries_of_zero hpos.le]
      simpa using hpos
    · have hsum := residue_add_carries distance delta (k + 1)
      have hresidue := residue_pos hdelta hle k
      have hbound := (residue_bounds hdelta.le hle (k + 1)).2
      push_cast at hsum
      rw [carries_self hpos, abs_lt]
      exact ⟨by linarith, by linarith⟩

end Stm32Board.Common
