import Mathlib.Data.List.Basic
import Mathlib.Logic.Function.Basic
import Mathlib.Order.Nat
import Mathlib.Tactic.SplitIfs

/-!
# Ring buffers that discard their oldest entry

A ring of `n` slots with a put and a get index. A push that makes the indices meet moves the get
index on, so the ring holds at most `n - 1` entries. Seen as a queue (`toList`), a pop takes the
first entry, and a push appends, after dropping the first entry of a ring with no room left.
-/

namespace Stm32Board.Common

variable {α : Type*} {n : ℕ}

/-- A ring of `n` slots; the flag of the last push that met the get index is kept until a pop. -/
structure RingBuffer (α : Type*) (n : ℕ) where
  slots : Fin n → α
  put : Fin n
  get : Fin n
  full : Bool
  two_le : 2 ≤ n
  full_ne : full = true → put ≠ get

namespace RingBuffer

/-- The next index, wrapping at the end. -/
def next (i : Fin n) : Fin n :=
  ⟨if i.val + 1 ≥ n then 0 else i.val + 1, by have := i.isLt; split_ifs <;> omega⟩

/-- The number of entries. -/
def len (r : RingBuffer α n) : ℕ :=
  if r.put ≥ r.get then r.put.val - r.get.val else n - (r.get.val - r.put.val)

/-- The slot of entry number `i`. -/
def slot (get : Fin n) (i : ℕ) : Fin n := ⟨(get.val + i) % n, Nat.mod_lt _ get.pos⟩

/-- The entries, the oldest first. -/
def toList (r : RingBuffer α n) : List α := (List.range r.len).map fun i => r.slots (slot r.get i)

/-- The next slot, as the code computes it. -/
theorem next_val (i : Fin n) : (next i).val = if i.val + 1 ≥ n then 0 else i.val + 1 := rfl

/-- In a ring of two slots or more the next one is another one. -/
theorem next_ne_self (htwo : 2 ≤ n) (i : Fin n) : next i ≠ i := by
  have hi := i.isLt
  rw [ne_eq, Fin.ext_iff, next_val]
  split_ifs <;> omega

/-- The `i`-th slot from `get` on. -/
theorem slot_val (get : Fin n) {i : ℕ} (hi : i < n) :
    (slot get i).val = if get.val + i < n then get.val + i else get.val + i - n := by
  have hget := get.isLt
  change (get.val + i) % n = _
  split_ifs with h
  · exact Nat.mod_eq_of_lt h
  · rw [Nat.mod_eq_sub_mod (by omega), Nat.mod_eq_of_lt (by omega)]

/-- Counted from the next slot on they are one less. -/
theorem slot_next (get : Fin n) (i : ℕ) (hi : i + 1 < n) : slot (next get) i = slot get (i + 1) := by
  have hget := get.isLt
  rw [Fin.ext_iff, slot_val _ (by omega), slot_val _ hi, next_val]
  split_ifs <;> omega

/-- One slot is always free. -/
theorem len_lt (r : RingBuffer α n) : r.len < n := by
  have hput := r.put.isLt
  have hget := r.get.isLt
  rw [len]
  split_ifs with h
  · omega
  · rw [ge_iff_le, Fin.le_def] at h
    omega

/-- The put index is the slot after the last entry. -/
theorem slot_len (r : RingBuffer α n) : slot r.get r.len = r.put := by
  have hput := r.put.isLt
  have hget := r.get.isLt
  rw [Fin.ext_iff, slot_val _ r.len_lt, len]
  split_ifs with h₁ h₂ h₂ <;> simp only [ge_iff_le, Fin.le_def] at h₁ <;> omega

/-- The list is as long as the ring is full. -/
theorem length_toList (r : RingBuffer α n) : r.toList.length = r.len := by
  rw [toList, List.length_map, List.length_range]

/-! ## Taking the oldest entry -/

/-- Take the oldest entry, if there is one. -/
def pop (r : RingBuffer α n) : Option (α × RingBuffer α n) :=
  if r.get = r.put ∧ r.full = false then none
  else some (r.slots r.get, { r with get := next r.get, full := false, full_ne := by simp })

/-- The ring is empty when both ends meet. -/
theorem len_eq_zero_iff (r : RingBuffer α n) : r.len = 0 ↔ r.get = r.put := by
  have hput := r.put.isLt
  have hget := r.get.isLt
  rw [len, Fin.ext_iff]
  split_ifs with h <;> simp only [ge_iff_le, Fin.le_def] at h <;> omega

/-- Nothing comes out of an empty ring. -/
theorem pop_eq_none_iff (r : RingBuffer α n) : r.pop = none ↔ r.toList = [] := by
  have hempty : r.toList = [] ↔ r.get = r.put := by
    rw [← List.length_eq_zero_iff, length_toList, len_eq_zero_iff]
  rw [hempty, pop]
  constructor
  · intro h
    split_ifs at h with hcond
    exact hcond.1
  · intro h
    refine if_pos ⟨h, ?_⟩
    by_contra hfull
    exact r.full_ne (by simpa using hfull) h.symm

/-- A pop takes the head of the queue. -/
theorem toList_of_pop {r r' : RingBuffer α n} {a : α} (h : r.pop = some (a, r')) :
    r.toList = a :: r'.toList := by
  have hne : r.get ≠ r.put := fun he => by
    rw [(pop_eq_none_iff r).mpr] at h
    · exact absurd h (by simp)
    · rw [← List.length_eq_zero_iff, length_toList, len_eq_zero_iff]
      exact he
  rw [pop, if_neg (fun hc => hne hc.1)] at h
  obtain ⟨rfl, rfl⟩ := Prod.mk.inj (Option.some.inj h)
  have hput := r.put.isLt
  have hget := r.get.isLt
  have hne' : r.get.val ≠ r.put.val := fun he => hne (Fin.ext he)
  have hlt := r.len_lt
  have hlen : r.len = (RingBuffer.len
      { r with get := next r.get, full := false, full_ne := by simp } : ℕ) + 1 := by
    simp only [len, ge_iff_le, Fin.le_def, next_val]
    split_ifs <;> omega
  have hfirst : slot r.get 0 = r.get := by
    rw [Fin.ext_iff, slot_val _ (by omega)]
    simp
  rw [toList, hlen, List.range_succ_eq_map, List.map_cons, List.map_map, hfirst, toList]
  congr 1
  refine List.map_congr_left fun i hi => ?_
  rw [List.mem_range] at hi
  rw [Function.comp_apply, ← slot_next r.get i (by omega)]

/-! ## Adding an entry -/

/-- Store an entry at the put index; if that makes the indices meet, drop the oldest entry. -/
def push (r : RingBuffer α n) (a : α) : RingBuffer α n :=
  if h : next r.put = r.get then
    { r with
      slots := Function.update r.slots r.put a
      put := next r.put
      get := next r.get
      full := true
      full_ne := fun _ => h ▸ (next_ne_self r.two_le _).symm }
  else
    { r with
      slots := Function.update r.slots r.put a
      put := next r.put
      full_ne := fun _ => h }

/-- It is full when one slot is left. -/
theorem next_put_eq_get_iff (r : RingBuffer α n) : next r.put = r.get ↔ r.len + 1 = n := by
  have hput := r.put.isLt
  have hget := r.get.isLt
  have htwo := r.two_le
  rw [len, Fin.ext_iff, next_val]
  split_ifs with h₁ h₂ h₂ <;> simp only [ge_iff_le, Fin.le_def] at h₂ <;> omega

/-- The free slot holds no element. -/
theorem slot_ne_put (r : RingBuffer α n) {i : ℕ} (hi : i < r.len) : slot r.get i ≠ r.put := by
  have hlt := r.len_lt
  have hget := r.get.isLt
  rw [← slot_len, ne_eq, Fin.ext_iff, slot_val _ (by omega), slot_val _ hlt]
  split_ifs <;> omega

/-- Storing at the put index leaves the entries as they were. -/
theorem map_update_slots (r : RingBuffer α n) (a : α) :
    ((List.range r.len).map fun i => Function.update r.slots r.put a (slot r.get i)) =
      r.toList := by
  refine List.map_congr_left fun i hi => ?_
  rw [Function.update_of_ne (r.slot_ne_put (List.mem_range.mp hi))]

/-- With room left, a push appends. -/
theorem toList_push_of_room {r : RingBuffer α n} (h : r.len + 1 < n) (a : α) :
    (r.push a).toList = r.toList ++ [a] := by
  have hne : ¬next r.put = r.get := fun he => by
    rw [next_put_eq_get_iff] at he
    omega
  have hlen : (r.push a).len = r.len + 1 := by
    have hput := r.put.isLt
    have hget := r.get.isLt
    rw [push, dif_neg hne]
    rw [len] at h
    rw [Fin.ext_iff, next_val] at hne
    simp only [len, ge_iff_le, Fin.le_def, next_val] at h hne ⊢
    split_ifs at h hne ⊢ <;> omega
  rw [toList, hlen, List.range_succ, List.map_append, List.map_singleton, push, dif_neg hne]
  change ((List.range r.len).map fun i => Function.update r.slots r.put a (slot r.get i)) ++
    [Function.update r.slots r.put a (slot r.get r.len)] = _
  rw [map_update_slots, slot_len, Function.update_self]

/-- With no room left, a push appends and drops the oldest entry. -/
theorem toList_push_overrun {r : RingBuffer α n} (h : r.len + 1 = n) (a : α) :
    (r.push a).toList = r.toList.tail ++ [a] := by
  have he : next r.put = r.get := (next_put_eq_get_iff r).mpr h
  have htwo := r.two_le
  obtain ⟨m, hm⟩ : ∃ m, r.len = m + 1 := ⟨r.len - 1, by omega⟩
  have hlen : (r.push a).len = m + 1 := by
    have hput := r.put.isLt
    have hget := r.get.isLt
    rw [← hm, push, dif_pos he]
    rw [Fin.ext_iff, next_val] at he
    simp only [len, ge_iff_le, Fin.le_def, next_val] at h he ⊢
    split_ifs at h he ⊢ <;> omega
  have hslot : ∀ i < m + 1, slot (next r.get) i = slot r.get (i + 1) :=
    fun i hi => slot_next _ _ (by omega)
  -- the get index has moved on, so each entry is found one place earlier
  rw [toList, hlen, List.range_succ, List.map_append, List.map_singleton, push, dif_pos he]
  change ((List.range m).map fun i => Function.update r.slots r.put a (slot (next r.get) i)) ++
    [Function.update r.slots r.put a (slot (next r.get) m)] = _
  rw [hslot m (by omega), ← hm, slot_len, Function.update_self, ← map_update_slots r a, hm,
    List.range_succ_eq_map, List.map_cons, List.tail_cons, List.map_map]
  congr 1
  refine List.map_congr_left fun i hi => ?_
  rw [Function.comp_apply, hslot i (by rw [List.mem_range] at hi; omega)]

/-- A push leaves an entry to take. -/
theorem len_push_pos (r : RingBuffer α n) (a : α) : 0 < (r.push a).len := by
  have hlt := r.len_lt
  rw [← length_toList]
  rcases Nat.lt_or_ge (r.len + 1) n with h | h
  · rw [toList_push_of_room h]
    simp
  · rw [toList_push_overrun (by omega)]
    simp

end RingBuffer

end Stm32Board.Common
