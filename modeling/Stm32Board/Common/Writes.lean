import Mathlib.Data.List.Nodup
import Mathlib.Logic.Function.Basic

/-!
# Write logs

A memory is a function, and a program that only stores is the list of its stores. `applyWrites` runs
a log over a memory. For a log whose addresses are all different, each address ends with its own
value (`map_applyWrites`); cut short, it leaves new values up to the cut and old ones beyond
(`map_applyWrites_take`).
-/

namespace Stm32Board.Common

variable {α β : Type*} [DecidableEq α]

/-- The memory after a log of stores, in order. -/
def applyWrites (m : α → β) : List (α × β) → α → β
  | [] => m
  | w :: ws => applyWrites (Function.update m w.1 w.2) ws

/-- An address the log does not mention keeps its value. -/
theorem applyWrites_of_notMem (m : α → β) {ws : List (α × β)} {a : α} (h : a ∉ ws.map Prod.fst) :
    applyWrites m ws a = m a := by
  induction ws generalizing m with
  | nil => rfl
  | cons w ws ih =>
    rw [List.map_cons, List.mem_cons, not_or] at h
    rw [applyWrites, ih _ h.2, Function.update_of_ne h.1]

/-- Every address of a log of one value ends with that value. -/
theorem applyWrites_of_forall_eq (m : α → β) {ws : List (α × β)} {b : β}
    (hval : ∀ w ∈ ws, w.2 = b) {a : α} (ha : a ∈ ws.map Prod.fst) : applyWrites m ws a = b := by
  induction ws generalizing m with
  | nil => exact absurd ha List.not_mem_nil
  | cons w ws ih =>
    rw [applyWrites]
    have hrest : ∀ w' ∈ ws, w'.2 = b := fun w' hw' => hval w' (List.mem_cons_of_mem _ hw')
    by_cases hmem : a ∈ ws.map Prod.fst
    · exact ih _ hrest hmem
    · have heq : a = w.1 := (List.mem_cons.mp ha).resolve_right hmem
      rw [applyWrites_of_notMem _ hmem, heq, Function.update_self, hval w List.mem_cons_self]

/-- A log that always stores the same value at an address leaves that value there. -/
theorem applyWrites_of_agree (m f : α → β) {ws : List (α × β)} (hval : ∀ w ∈ ws, w.2 = f w.1)
    (a : α) : applyWrites m ws a = if a ∈ ws.map Prod.fst then f a else m a := by
  induction ws generalizing m with
  | nil => rfl
  | cons w ws ih =>
    obtain ⟨hw, hrest⟩ := List.forall_mem_cons.mp hval
    rw [applyWrites, ih _ hrest, List.map_cons]
    by_cases hmem : a ∈ ws.map Prod.fst
    · rw [if_pos hmem, if_pos (List.mem_cons_of_mem _ hmem)]
    · rw [if_neg hmem]
      by_cases heq : a = w.1
      · rw [if_pos (heq ▸ List.mem_cons_self), heq, Function.update_self, hw]
      · rw [if_neg fun h => (List.mem_cons.mp h).elim heq hmem, Function.update_of_ne heq]

/-- A log with different addresses leaves its own values behind. -/
theorem map_applyWrites (m : α → β) {ws : List (α × β)} (h : (ws.map Prod.fst).Nodup) :
    (ws.map Prod.fst).map (applyWrites m ws) = ws.map Prod.snd := by
  induction ws generalizing m with
  | nil => rfl
  | cons w ws ih =>
    rw [List.map_cons, List.nodup_cons] at h
    rw [List.map_cons, List.map_cons, List.map_cons, applyWrites, applyWrites_of_notMem _ h.1,
      Function.update_self, ih _ h.2]

/-- Cut short, such a log leaves new values up to the cut and old ones beyond it. -/
theorem map_applyWrites_take (m : α → β) {ws : List (α × β)} (h : (ws.map Prod.fst).Nodup)
    (k : ℕ) :
    (ws.map Prod.fst).map (applyWrites m (ws.take k)) =
      (ws.map Prod.snd).take k ++ ((ws.map Prod.fst).map m).drop k := by
  have hsplit : ws.map Prod.fst = (ws.take k).map Prod.fst ++ (ws.drop k).map Prod.fst := by
    rw [← List.map_append, List.take_append_drop]
  rw [hsplit] at h
  have hdisj := (List.nodup_append'.mp h).2.2
  rw [hsplit, List.map_append, map_applyWrites m (List.nodup_append'.mp h).1, List.map_take,
    ← hsplit, ← List.map_drop, ← List.map_drop]
  congr 1
  refine List.map_congr_left fun a ha => applyWrites_of_notMem m fun ha' => ?_
  exact hdisj ha' ha

end Stm32Board.Common
