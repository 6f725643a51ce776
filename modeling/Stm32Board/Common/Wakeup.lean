import Mathlib.Data.List.Nodup

/-!
# Wakeups that are not lost

Waiters in a queue are woken one at a time, and look for themselves whether there is something for them,
which somebody else may have taken in the meantime. Nobody is forgotten if, while somebody waits, there are
at least as many woken ones that have not looked yet as there are things to be had (`Covered`).
-/

namespace Stm32Board.Common

variable {α : Type*} {queue queue' : List α} {n n' : ℕ} {woken woken' : α → Prop}

/-- While somebody waits, at least `n` have been woken. -/
def Covered (queue : List α) (n : ℕ) (woken : α → Prop) : Prop :=
  queue ≠ [] → ∃ w : List α, w.Nodup ∧ (∀ a ∈ w, woken a) ∧ n ≤ w.length

namespace Covered

theorem nil (n : ℕ) (woken : α → Prop) : Covered [] n woken := fun h => absurd rfl h

/-- Nothing is to be had. -/
theorem zero (queue : List α) (woken : α → Prop) : Covered queue 0 woken := fun _ =>
  ⟨[], List.nodup_nil, fun _ ha => absurd ha List.not_mem_nil, Nat.le_refl 0⟩

/-- More may be woken and less be there. -/
theorem mono (h : Covered queue n woken) (hqueue : queue = [] → queue' = []) (hn : n' ≤ n)
    (hwoken : ∀ a, woken a → woken' a) : Covered queue' n' woken' := by
  intro hne
  obtain ⟨w, hnodup, hw, hle⟩ := h fun heq => hne (hqueue heq)
  exact ⟨w, hnodup, fun a ha => hwoken a (hw a ha), Nat.le_trans hn hle⟩

variable [DecidableEq α] {a : α}

/-- `a` looks, and takes what it finds. -/
theorem take (h : Covered queue n woken) (hqueue : queue = [] → queue' = []) (hn : n' + 1 ≤ n)
    (hwoken : ∀ b, b ≠ a → woken b → woken' b) : Covered queue' n' woken' := by
  intro hne
  obtain ⟨w, hnodup, hw, hle⟩ := h fun heq => hne (hqueue heq)
  refine ⟨w.erase a, hnodup.erase a, fun b hb => ?_, ?_⟩
  · obtain ⟨hba, hb⟩ := hnodup.mem_erase_iff.mp hb
    exact hwoken b hba (hw b hb)
  · have hlength := List.le_length_erase (a := a) (l := w)
    omega

omit [DecidableEq α] in
/-- There is one thing more, and the first one that waits is woken. -/
theorem wake (h : Covered (a :: queue) n woken) (hn : n' ≤ n + 1) (ha : ¬woken a) (ha' : woken' a)
    (hwoken : ∀ b, woken b → woken' b) : Covered queue n' woken' := by
  intro _
  obtain ⟨w, hnodup, hw, hle⟩ := h (List.cons_ne_nil a queue)
  refine ⟨a :: w, List.nodup_cons.mpr ⟨fun hmem => ha (hw a hmem), hnodup⟩, fun b hb => ?_, ?_⟩
  · rcases List.mem_cons.mp hb with rfl | hb
    · exact ha'
    · exact hwoken b (hw b hb)
  · rw [List.length_cons]
    omega

end Covered

end Stm32Board.Common
