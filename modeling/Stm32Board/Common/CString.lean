import Mathlib.Data.List.TakeWhile
import Mathlib.Logic.Function.Iterate

/-!
# Strings in a buffer

A pointer into a buffer is the bytes from there on; the string at it ends before the first zero byte.
A buffer of strings with their zero bytes is walked string by string (`iterate_nextCString`).
-/

namespace Stm32Board.Common

/-- The string at a pointer. -/
def cString (p : List UInt8) : List UInt8 := p.takeWhile (· ≠ 0)

/-- `p + strlen(p) + 1`. -/
def nextCString (p : List UInt8) : List UInt8 := p.drop ((cString p).length + 1)

/-- A string ends at its zero byte, whatever comes after it. -/
theorem cString_append_zero (s rest : List UInt8) : cString (s ++ 0 :: rest) = cString s := by
  induction s with
  | nil => rfl
  | cons b s ih =>
    rw [cString, cString] at ih
    rw [cString, cString, List.cons_append, List.takeWhile_cons, List.takeWhile_cons, ih]

/-- A string without a terminator is all there is. -/
theorem cString_of_notMem {s : List UInt8} (hs : 0 ∉ s) : cString s = s := by
  refine List.takeWhile_eq_self_iff.mpr fun b hb => ?_
  have hne : b ≠ 0 := fun h => hs (h ▸ hb)
  exact decide_eq_true hne

/-- The next string begins behind the terminator. -/
theorem nextCString_append_zero {s : List UInt8} (hs : 0 ∉ s) (rest : List UInt8) :
    nextCString (s ++ 0 :: rest) = rest := by
  have hlen : (s ++ [0]).length = s.length + 1 := by rw [List.length_append, List.length_singleton]
  rw [nextCString, cString_append_zero, cString_of_notMem hs, ← List.singleton_append, ← List.append_assoc]
  exact List.drop_left' hlen

/-- The walk over `k` of the strings of a buffer. -/
theorem iterate_nextCString {ss : List (List UInt8)} (hss : ∀ s ∈ ss, 0 ∉ s) (rest : List UInt8)
    (k : ℕ) (hk : k ≤ ss.length) :
    nextCString^[k] ((ss.map (· ++ [0])).flatten ++ rest) =
      ((ss.drop k).map (· ++ [0])).flatten ++ rest := by
  induction k generalizing ss with
  | zero => rfl
  | succ k ih =>
    cases ss with
    | nil => exact absurd hk (by simp)
    | cons s ss =>
      obtain ⟨hs, hrest⟩ := List.forall_mem_cons.mp hss
      rw [Function.iterate_succ_apply, List.map_cons, List.flatten_cons, List.append_assoc,
        List.append_assoc, List.singleton_append, nextCString_append_zero hs, List.drop_succ_cons]
      exact ih hrest (Nat.le_of_succ_le_succ hk)

end Stm32Board.Common
