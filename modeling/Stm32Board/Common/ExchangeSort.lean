import Mathlib.Algebra.Order.Group.Nat
import Mathlib.Data.Finset.Card
import Mathlib.Logic.Equiv.Basic
import Mathlib.Logic.Function.Basic
import Mathlib.Order.Interval.Finset.Nat

/-!
# Exchange sort and the middle of a sample

`exchangeSort` is the sort of two nested loops that exchange `buf[i]` with each smaller element behind
it. After the pass of `i` everything up to `i` is settled (`exchangePass_settled`), so the buffer ends
sorted, with the elements it had. Of a sorted sample all but the `k` lowest and the `k` highest values
lie in any interval that holds all but `k` values of the sample, in whatever order these came
(`exchangeSort_middle`).
-/

namespace Stm32Board.Common

variable {α β : Type*} [LinearOrder β] (key : α → β)

/-- `if(buf[i]>buf[j])` the two are exchanged. -/
def exchange (i j : ℕ) (buf : ℕ → α) : ℕ → α :=
  if key (buf i) > key (buf j) then Function.update (Function.update buf i (buf j)) j (buf i)
  else buf

/-- `for(j=i+1;j<n;j++)`. -/
def exchangePass (n i : ℕ) (buf : ℕ → α) : ℕ → α :=
  (List.range' (i + 1) (n - (i + 1))).foldl (fun buf j => exchange key i j buf) buf

/-- `for(i=0;i<n-1;i++)`. -/
def exchangeSort (n : ℕ) (buf : ℕ → α) : ℕ → α :=
  (List.range (n - 1)).foldl (fun buf i => exchangePass key n i buf) buf

/-! ## Rearranging -/

/-- The first `n` elements in another order. -/
def Rearranged (n : ℕ) (buf buf' : ℕ → α) : Prop :=
  ∃ σ : Equiv.Perm ℕ, (∀ k, n ≤ k → σ k = k) ∧ buf' = buf ∘ σ

theorem Rearranged.refl (n : ℕ) (buf : ℕ → α) : Rearranged n buf buf :=
  ⟨Equiv.refl ℕ, fun _ _ => rfl, rfl⟩

/-- One order after the other. -/
theorem Rearranged.trans {n : ℕ} {buf buf' buf'' : ℕ → α} (h : Rearranged n buf buf')
    (h' : Rearranged n buf' buf'') : Rearranged n buf buf'' := by
  obtain ⟨σ, hσ, rfl⟩ := h
  obtain ⟨τ, hτ, rfl⟩ := h'
  refine ⟨τ.trans σ, fun k hk => ?_, rfl⟩
  rw [Equiv.trans_apply, hτ k hk, hσ k hk]

/-- A permutation that fixes everything from `n` on stays below `n`. -/
theorem perm_lt_iff {n : ℕ} {σ : Equiv.Perm ℕ} (hσ : ∀ k, n ≤ k → σ k = k) (k : ℕ) :
    σ k < n ↔ k < n := by
  constructor
  · intro hk
    by_contra hle
    rw [hσ k (not_lt.mp hle)] at hk
    exact hle hk
  · intro hk
    by_contra hle
    have hfix := hσ (σ k) (not_lt.mp hle)
    rw [σ.injective hfix] at hle
    exact hle hk

/-- What holds of the first `n` elements holds of them rearranged. -/
theorem Rearranged.forall_lt {n : ℕ} {buf buf' : ℕ → α} (h : Rearranged n buf buf') {P : α → Prop}
    (hall : ∀ k < n, P (buf k)) : ∀ k < n, P (buf' k) := by
  obtain ⟨σ, hσ, rfl⟩ := h
  intro k hk
  exact hall (σ k) ((perm_lt_iff hσ k).mpr hk)

/-- A rearranged buffer has as many elements of a kind among its first `n`. -/
theorem Rearranged.card_filter {n : ℕ} {buf buf' : ℕ → α} (h : Rearranged n buf buf')
    (P : α → Prop) [DecidablePred P] :
    ((Finset.range n).filter fun k => P (buf' k)).card =
      ((Finset.range n).filter fun k => P (buf k)).card := by
  obtain ⟨σ, hσ, rfl⟩ := h
  have hlt := perm_lt_iff hσ
  refine Finset.card_bij (fun k _ => σ k) (fun k hk => ?_) (fun a _ b _ hab => σ.injective hab)
    (fun k hk => ?_)
  · rw [Finset.mem_filter, Finset.mem_range] at hk ⊢
    exact ⟨(hlt k).mpr hk.1, hk.2⟩
  · rw [Finset.mem_filter, Finset.mem_range] at hk
    refine ⟨σ.symm k, ?_, σ.apply_symm_apply k⟩
    rw [Finset.mem_filter, Finset.mem_range, Function.comp_apply, σ.apply_symm_apply,
      ← hlt, σ.apply_symm_apply]
    exact hk

/-! ## One exchange -/

/-- An exchange is a swap or nothing. -/
theorem exchange_eq (i j : ℕ) (buf : ℕ → α) :
    exchange key i j buf = buf ∘ Equiv.swap i j ∨ exchange key i j buf = buf := by
  rw [exchange]
  split
  · refine Or.inl (funext fun k => ?_)
    rw [Function.comp_apply, Equiv.swap_apply_def]
    by_cases hj : k = j
    · rw [hj, Function.update_self]
      split
      · rename_i hij
        rw [hij]
      · rw [if_pos rfl]
    · rw [Function.update_of_ne hj]
      by_cases hi : k = i
      · rw [hi, Function.update_self, if_pos rfl]
      · rw [Function.update_of_ne hi, if_neg hi, if_neg hj]
  · exact Or.inr rfl

theorem exchange_rearranged {n i j : ℕ} (hi : i < n) (hj : j < n) (buf : ℕ → α) :
    Rearranged n buf (exchange key i j buf) := by
  rcases exchange_eq key i j buf with h | h
  · rw [h]
    exact ⟨Equiv.swap i j, fun k hk =>
      Equiv.swap_apply_of_ne_of_ne (by omega) (by omega), rfl⟩
  · rw [h]
    exact Rearranged.refl n buf

/-- None of the first `m` elements has a smaller one behind it. -/
def Settled (n m : ℕ) (buf : ℕ → α) : Prop :=
  ∀ i < m, ∀ k, i ≤ k → k < n → key (buf i) ≤ key (buf k)

/-- Behind what is settled, exchanges settle nothing anew and spoil nothing. -/
theorem exchange_settled {n i j : ℕ} (hij : i < j) (hj : j < n) {buf : ℕ → α}
    (h : Settled key n i buf) : Settled key n i (exchange key i j buf) := by
  rcases exchange_eq key i j buf with heq | heq
  · rw [heq]
    intro a ha k hak hk
    rw [Function.comp_apply, Function.comp_apply,
      Equiv.swap_apply_of_ne_of_ne (by omega) (by omega), Equiv.swap_apply_def]
    split
    · exact h a ha j (by omega) hj
    · split
      · exact h a ha i (by omega) (by omega)
      · exact h a ha k hak hk
  · rw [heq]
    exact h

/-- The element at `i` becomes the smaller one of the two. -/
theorem exchange_least {i j : ℕ} (hij : i < j) {buf : ℕ → α}
    (h : ∀ k, i ≤ k → k < j → key (buf i) ≤ key (buf k)) :
    ∀ k, i ≤ k → k < j + 1 → key (exchange key i j buf i) ≤ key (exchange key i j buf k) := by
  intro k hik hk
  rw [exchange]
  split
  · rename_i hgt
    rw [Function.update_of_ne hij.ne, Function.update_self]
    rcases Nat.lt_succ_iff_lt_or_eq.mp hk with hlt | rfl
    · rw [Function.update_of_ne hlt.ne]
      by_cases hki : k = i
      · rw [hki, Function.update_self]
      · rw [Function.update_of_ne hki]
        exact hgt.le.trans (h k hik hlt)
    · rw [Function.update_self]
      exact hgt.le
  · rename_i hle
    rcases Nat.lt_succ_iff_lt_or_eq.mp hk with hlt | rfl
    · exact h k hik hlt
    · exact not_lt.mp hle

/-! ## The passes -/

/-- The pass of `i` up to element `i + len`. -/
theorem foldl_exchange {n i : ℕ} (len : ℕ) (hlen : i + len < n) {buf : ℕ → α}
    (h : Settled key n i buf) :
    Rearranged n buf ((List.range' (i + 1) len).foldl (fun buf j => exchange key i j buf) buf) ∧
    Settled key n i ((List.range' (i + 1) len).foldl (fun buf j => exchange key i j buf) buf) ∧
    ∀ k, i ≤ k → k < i + 1 + len →
      key ((List.range' (i + 1) len).foldl (fun buf j => exchange key i j buf) buf i) ≤
        key ((List.range' (i + 1) len).foldl (fun buf j => exchange key i j buf) buf k) := by
  induction len with
  | zero =>
    refine ⟨Rearranged.refl n buf, h, fun k hik hk => ?_⟩
    obtain rfl : k = i := by omega
    exact le_rfl
  | succ len ih =>
    obtain ⟨hperm, hsettled, hleast⟩ := ih (by omega)
    rw [List.range'_1_concat, List.foldl_append, List.foldl_cons, List.foldl_nil]
    have hi : i < i + 1 + len := by omega
    have hj : i + 1 + len < n := by omega
    exact ⟨hperm.trans (exchange_rearranged key (hi.trans hj) hj _),
      exchange_settled key hi hj hsettled, exchange_least key hi hleast⟩

/-- A pass of the outer loop settles one more place. -/
theorem exchangePass_settled {n i : ℕ} (hi : i < n) {buf : ℕ → α} (h : Settled key n i buf) :
    Rearranged n buf (exchangePass key n i buf) ∧ Settled key n (i + 1) (exchangePass key n i buf) := by
  obtain ⟨hperm, hsettled, hleast⟩ := foldl_exchange key (n - (i + 1)) (by omega) h
  -- the pass settles the element it starts from
  refine ⟨hperm, fun a ha k hak hk => ?_⟩
  rcases Nat.lt_succ_iff_lt_or_eq.mp ha with hlt | rfl
  · exact hsettled a hlt k hak hk
  · exact hleast k hak (by omega)

/-- After `m` passes the first `m` places are settled. -/
theorem foldl_exchangePass {n : ℕ} (buf : ℕ → α) (m : ℕ) (hm : m ≤ n) :
    Rearranged n buf ((List.range m).foldl (fun buf i => exchangePass key n i buf) buf) ∧
    Settled key n m ((List.range m).foldl (fun buf i => exchangePass key n i buf) buf) := by
  induction m with
  | zero => exact ⟨Rearranged.refl n buf, fun i hi => absurd hi (Nat.not_lt_zero i)⟩
  | succ m ih =>
    obtain ⟨hperm, hsettled⟩ := ih (by omega)
    obtain ⟨hperm', hsettled'⟩ := exchangePass_settled key (by omega : m < n) hsettled
    rw [List.range_succ, List.foldl_append, List.foldl_cons, List.foldl_nil]
    exact ⟨hperm.trans hperm', hsettled'⟩

/-- The sort rearranges. -/
theorem exchangeSort_rearranged (n : ℕ) (buf : ℕ → α) :
    Rearranged n buf (exchangeSort key n buf) :=
  (foldl_exchangePass key buf (n - 1) (by omega)).1

/-- The sort sorts. -/
theorem exchangeSort_sorted (n : ℕ) (buf : ℕ → α) {i k : ℕ} (hik : i ≤ k) (hk : k < n) :
    key (exchangeSort key n buf i) ≤ key (exchangeSort key n buf k) := by
  rcases hik.lt_or_eq with hlt | rfl
  · exact (foldl_exchangePass key buf (n - 1) (by omega)).2 i (by omega) k hik hk
  · exact le_rfl

/-! ## The middle -/

/-- All but the `m` lowest and the `m` highest elements lie in an interval that all but `m` elements
of the buffer lie in. -/
theorem exchangeSort_middle {n m : ℕ} {buf : ℕ → α} {lo hi : β}
    (h : n ≤ ((Finset.range n).filter fun k => lo ≤ key (buf k) ∧ key (buf k) ≤ hi).card + m)
    {i : ℕ} (hi₁ : m ≤ i) (hi₂ : i + m < n) :
    lo ≤ key (exchangeSort key n buf i) ∧ key (exchangeSort key n buf i) ≤ hi := by
  rw [← (exchangeSort_rearranged key n buf).card_filter fun a => lo ≤ key a ∧ key a ≤ hi] at h
  constructor
  · -- below the interval, the elements up to `i` would all be outliers
    by_contra hlow
    have hsub : ((Finset.range n).filter fun k => lo ≤ key (exchangeSort key n buf k) ∧
        key (exchangeSort key n buf k) ≤ hi) ⊆ Finset.Ico (i + 1) n := by
      intro k hk
      rw [Finset.mem_filter, Finset.mem_range] at hk
      rw [Finset.mem_Ico]
      refine ⟨?_, hk.1⟩
      by_contra hle
      exact hlow (hk.2.1.trans (exchangeSort_sorted key n buf (by omega) (by omega)))
    have hcard := Finset.card_le_card hsub
    rw [Nat.card_Ico] at hcard
    omega
  · -- above it, so would those from `i` on
    by_contra hhigh
    have hsub : ((Finset.range n).filter fun k => lo ≤ key (exchangeSort key n buf k) ∧
        key (exchangeSort key n buf k) ≤ hi) ⊆ Finset.range i := by
      intro k hk
      rw [Finset.mem_filter, Finset.mem_range] at hk
      rw [Finset.mem_range]
      by_contra hle
      exact hhigh ((exchangeSort_sorted key n buf (not_lt.mp hle) hk.1).trans hk.2.2)
    have hcard := Finset.card_le_card hsub
    rw [Finset.card_range] at hcard
    omega

end Stm32Board.Common
