import Mathlib.Data.List.Basic
import Mathlib.Data.List.Nodup
import Mathlib.Data.List.Sort
import Mathlib.Logic.Function.Basic

/-!
# Elements linked into at most one list

A family of lists whose elements carry their own link, so that an element is on one list at most, and
there once. Taking an element out does not need to know where it is.
-/

namespace Stm32Board.Common

variable {ι α : Type*} [DecidableEq ι] [DecidableEq α]

/-- Every element is on at most one list, and at most once. -/
structure Linked (list : ι → List α) : Prop where
  nodup : ∀ i, (list i).Nodup
  unique : ∀ a i j, a ∈ list i → a ∈ list j → i = j

namespace Linked

variable {list : ι → List α}

omit [DecidableEq ι] in
/-- An element is on a list once. -/
theorem mem_erase_iff (h : Linked list) {a b : α} {i : ι} :
    b ∈ (list i).erase a ↔ b ≠ a ∧ b ∈ list i :=
  (h.nodup i).mem_erase_iff

omit [DecidableEq ι] in
theorem erase (h : Linked list) (a : α) : Linked fun i => (list i).erase a where
  nodup i := (h.nodup i).erase a
  unique b i j hi hj := h.unique b i j (List.mem_of_mem_erase hi) (List.mem_of_mem_erase hj)

omit [DecidableEq α] in
/-- Linking one, wherever on the list. -/
theorem mem_insert {a b : α} {i : ι} {l : List α} (hl : l.Perm (a :: list i)) (j : ι) :
    b ∈ Function.update list i l j ↔ b = a ∧ j = i ∨ b ∈ list j := by
  by_cases hj : j = i
  · subst hj
    rw [Function.update_self, hl.mem_iff, List.mem_cons, and_iff_left rfl]
  · rw [Function.update_of_ne hj]
    exact ⟨.inr, fun h => h.resolve_left fun h => hj h.2⟩

omit [DecidableEq α] in
/-- An element that is on no list is put on one. -/
theorem insert (h : Linked list) {a : α} (ha : ∀ i, a ∉ list i) {i : ι} {l : List α}
    (hl : l.Perm (a :: list i)) : Linked (Function.update list i l) where
  nodup j := by
    by_cases hj : j = i
    · subst hj
      rw [Function.update_self, hl.nodup_iff]
      exact List.nodup_cons.mpr ⟨ha j, h.nodup j⟩
    · rw [Function.update_of_ne hj]
      exact h.nodup j
  unique b j j' := by
    rw [mem_insert hl, mem_insert hl]
    rintro (⟨rfl, hj⟩ | hb) (⟨hb', hj'⟩ | hb')
    · rw [hj, hj']
    · exact absurd hb' (ha j')
    · exact absurd (hb' ▸ hb) (ha j)
    · exact h.unique b j j' hb hb'

end Linked

/-! ## Queues by rank -/

omit [DecidableEq α] in
/-- Inserted before the first element that it comes before, an element keeps the queue sorted. -/
theorem pairwise_orderedInsert {before le : α → α → Prop} [DecidableRel before]
    (hbefore : ∀ a b, before a b → le a b) (hnot : ∀ a b, ¬before a b → le b a)
    (htrans : ∀ a b c, le a b → le b c → le a c) {l : List α} (h : l.Pairwise le) (a : α) :
    (l.orderedInsert before a).Pairwise le := by
  induction l with
  | nil => exact List.pairwise_singleton _ _
  | cons b l ih =>
    obtain ⟨hb, hl⟩ := List.pairwise_cons.mp h
    rw [List.orderedInsert_cons]
    split_ifs with hlt
    · refine List.pairwise_cons.mpr ⟨fun c hc => ?_, h⟩
      rcases List.mem_cons.mp hc with rfl | hc
      · exact hbefore a c hlt
      · exact htrans a b c (hbefore a b hlt) (hb c hc)
    · refine List.pairwise_cons.mpr ⟨fun c hc => ?_, ih hl⟩
      rcases List.mem_cons.mp ((List.perm_orderedInsert _ a l).mem_iff.mp hc) with rfl | hc
      · exact hnot c b hlt
      · exact hb c hc

end Stm32Board.Common
