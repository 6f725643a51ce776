import Mathlib.Logic.Function.Iterate
import Mathlib.Data.List.Basic
import Mathlib.Order.Nat
import Mathlib.Tactic.SplitIfs

/-!
# Counted loops over fixed-width counters

`forLoop` is `for(;cond;next)body` for a body that emits a list and may be undefined. The counter
decides when the loop ends, so with more fuel than it has values the fuel runs out only when the loop
never ends (`forLoop_eq_none`); a loop that ends after `n` rounds emits the concatenation of its
rounds (`forLoop_eq_some`). `forState` is the loop of a body that works on a variable instead.
-/

namespace Stm32Board.Common

variable {ι α : Type*}

/-- `for(;cond;next)body`, with the outputs of the rounds concatenated. -/
def forLoop (next : ι → ι) (cond : ι → Bool) (body : ι → Option (List α)) :
    ℕ → ι → Option (List α)
  | 0, _ => none
  | fuel + 1, i =>
    if cond i then
      match body i with
      | none => none
      | some out => (forLoop next cond body fuel (next i)).map (out ++ ·)
    else some []

/-- A loop whose condition holds for `n` rounds and then fails emits its `n` rounds. -/
theorem forLoop_eq_some {next : ι → ι} {cond : ι → Bool} {body : ι → Option (List α)}
    {n fuel : ℕ} {i : ι} (f : ℕ → List α) (hcond : ∀ k < n, cond (next^[k] i))
    (hstop : cond (next^[n] i) = false) (hbody : ∀ k < n, body (next^[k] i) = some (f k))
    (hfuel : n < fuel) :
    forLoop next cond body fuel i = some ((List.range n).flatMap f) := by
  induction n generalizing fuel i f with
  | zero =>
    obtain ⟨fuel, rfl⟩ := Nat.exists_eq_add_of_lt hfuel
    rw [Nat.zero_add, forLoop, if_neg (by simpa using hstop)]
    rfl
  | succ n ih =>
    obtain ⟨fuel, rfl⟩ : ∃ m, fuel = m + 1 := ⟨fuel - 1, by omega⟩
    have hrest : forLoop next cond body fuel (next i) =
        some ((List.range n).flatMap fun k => f (k + 1)) :=
      ih (fun k => f (k + 1)) (fun k hk => hcond (k + 1) (by omega)) hstop
        (fun k hk => hbody (k + 1) (by omega)) (by omega)
    have hcond₀ : cond i := hcond 0 (by omega)
    have hfirst : body i = some (f 0) := hbody 0 (by omega)
    have hrange : (List.range (n + 1)).flatMap f =
        f 0 ++ (List.range n).flatMap fun k => f (k + 1) := by
      rw [List.range_succ_eq_map, List.flatMap_cons, List.flatMap_map]
    rw [forLoop, if_pos hcond₀, hfirst, hrest, hrange]
    rfl

/-- A loop that emits one element a round emits those of its `n` rounds, if they are all defined. -/
theorem forLoop_eq_some_map_iff {next : ι → ι} {cond : ι → Bool} {emit : ι → Option α} {n fuel : ℕ}
    {i : ι} (g : ℕ → α) (hcond : ∀ k < n, cond (next^[k] i))
    (hstop : cond (next^[n] i) = false) (hfuel : n < fuel) :
    forLoop next cond (fun i => (emit i).map fun a => [a]) fuel i = some ((List.range n).map g) ↔
      ∀ k < n, emit (next^[k] i) = some (g k) := by
  constructor
  · intro h
    -- the induction is on the rounds: the first one puts out the head of the list
    induction n generalizing fuel i g with
    | zero => exact fun k hk => absurd hk (Nat.not_lt_zero k)
    | succ n ih =>
      obtain ⟨fuel, rfl⟩ : ∃ m, fuel = m + 1 := ⟨fuel - 1, by omega⟩
      have hcond₀ : cond i := hcond 0 (by omega)
      rw [forLoop, if_pos hcond₀, List.range_succ_eq_map, List.map_cons, List.map_map] at h
      cases hemit : emit i with
      | none =>
        rw [hemit] at h
        exact absurd h (by simp)
      | some a =>
        rw [hemit] at h
        obtain ⟨rest, hrest, hcons⟩ := Option.map_eq_some_iff.mp h
        obtain ⟨hhead, rfl⟩ := List.cons.inj hcons
        have hlater := ih (fun k => g (k + 1)) (fun k hk => hcond (k + 1) (by omega)) hstop
          (by omega) hrest
        intro k hk
        cases k with
        | zero => exact hemit.trans (congrArg some hhead)
        | succ k => exact hlater k (by omega)
  · intro h
    rw [List.map_eq_flatMap]
    exact forLoop_eq_some _ hcond hstop
      (fun k hk => by rw [h k hk]; rfl) hfuel

/-- A loop whose condition never fails does not end. -/
theorem forLoop_eq_none {next : ι → ι} {cond : ι → Bool} {body : ι → Option (List α)} {fuel : ℕ}
    {i : ι} (hcond : ∀ k < fuel, cond (next^[k] i)) : forLoop next cond body fuel i = none := by
  induction fuel generalizing i with
  | zero => rfl
  | succ fuel ih =>
    have hcond₀ : cond i := hcond 0 (by omega)
    rw [forLoop, if_pos hcond₀, ih fun k hk => hcond (k + 1) (by omega)]
    cases body i <;> rfl

/-- A loop that comes to an undefined round is undefined. -/
theorem forLoop_eq_none_of_round {next : ι → ι} {cond : ι → Bool} {body : ι → Option (List α)}
    {n fuel : ℕ} {i : ι} (hcond : ∀ k < n, cond (next^[k] i)) (hlast : cond (next^[n] i))
    (hbody : body (next^[n] i) = none) : forLoop next cond body fuel i = none := by
  induction n generalizing fuel i with
  | zero =>
    cases fuel with
    | zero => rfl
    | succ fuel =>
      have hbody₀ : body i = none := hbody
      rw [forLoop, hbody₀]
      exact if_pos hlast
  | succ n ih =>
    cases fuel with
    | zero => rfl
    | succ fuel =>
      have hcond₀ : cond i := hcond 0 (by omega)
      rw [forLoop, if_pos hcond₀, ih (fun k hk => hcond (k + 1) (by omega)) hlast hbody]
      cases body i <;> rfl

/-- What the rounds have in common with the empty output, and is kept by concatenation, holds of the
whole loop. -/
theorem forLoop_induction {P : List α → Prop} (hnil : P [])
    (happend : ∀ out rest, P out → P rest → P (out ++ rest)) {next : ι → ι} {cond : ι → Bool}
    {body : ι → Option (List α)} (hbody : ∀ i out, body i = some out → P out) {fuel : ℕ} {i : ι}
    {out : List α} (h : forLoop next cond body fuel i = some out) : P out := by
  induction fuel generalizing i out with
  | zero => exact absurd h (by simp [forLoop])
  | succ fuel ih =>
    rw [forLoop] at h
    split at h
    · split at h
      · exact absurd h (by simp)
      · rename_i first hfirst
        obtain ⟨rest, hrest, rfl⟩ := Option.map_eq_some_iff.mp h
        exact happend first rest (hbody i first hfirst) (ih hrest)
    · obtain rfl := Option.some.inj h
      exact hnil

/-- `for(;cond;next)body` for a body that works on a variable of its own. -/
def forState {σ : Type*} (next : ι → ι) (cond : ι → Bool) (body : ι → σ → Option σ) :
    ℕ → ι → σ → Option σ
  | 0, _, _ => none
  | fuel + 1, i, s =>
    if cond i then
      match body i s with
      | none => none
      | some s' => forState next cond body fuel (next i) s'
    else some s

/-- A loop whose condition holds for `n` rounds and then fails leaves the value of its last round. -/
theorem forState_eq_some {σ : Type*} {next : ι → ι} {cond : ι → Bool} {body : ι → σ → Option σ}
    {n fuel : ℕ} {i : ι} (f : ℕ → σ) (hcond : ∀ k < n, cond (next^[k] i))
    (hstop : cond (next^[n] i) = false)
    (hbody : ∀ k < n, body (next^[k] i) (f k) = some (f (k + 1))) (hfuel : n < fuel) :
    forState next cond body fuel i (f 0) = some (f n) := by
  induction n generalizing fuel i f with
  | zero =>
    obtain ⟨fuel, rfl⟩ := Nat.exists_eq_add_of_lt hfuel
    rw [Nat.zero_add, forState, if_neg (by simpa using hstop)]
  | succ n ih =>
    obtain ⟨fuel, rfl⟩ : ∃ m, fuel = m + 1 := ⟨fuel - 1, by omega⟩
    have hcond₀ : cond i := hcond 0 (by omega)
    have hfirst : body i (f 0) = some (f 1) := hbody 0 (by omega)
    rw [forState, if_pos hcond₀, hfirst]
    exact ih (fun k => f (k + 1)) (fun k hk => hcond (k + 1) (by omega)) hstop
      (fun k hk => hbody (k + 1) (by omega)) (by omega)

/-- Counting on along a row of `w` places. -/
theorem succ_mod_div {w : ℕ} (hw : 0 < w) (k : ℕ) :
    (k + 1) % w = (if k % w + 1 = w then 0 else k % w + 1) ∧
      (k + 1) / w = if k % w + 1 = w then k / w + 1 else k / w := by
  have hlt := Nat.mod_lt k hw
  have hk := Nat.div_add_mod k w
  split_ifs with h
  · have hsucc : k + 1 = w * (k / w + 1) := by
      rw [Nat.mul_add, Nat.mul_one]
      omega
    rw [hsucc, Nat.mul_mod_right, Nat.mul_div_cancel_left _ hw]
    exact ⟨rfl, rfl⟩
  · generalize k / w = q at *
    generalize k % w = r at *
    have hsucc : k + 1 = w * q + (r + 1) := by omega
    have hr : r + 1 < w := by omega
    rw [hsucc, Nat.mul_add_mod, Nat.mul_add_div hw, Nat.mod_eq_of_lt hr, Nat.div_eq_of_lt hr]
    exact ⟨rfl, rfl⟩

/-- The fuel for a 16-bit counter: more than it has values. -/
def fuelU16 : ℕ := 65537

theorem iterate_add_one_u16 (k : ℕ) (i : UInt16) : (· + 1)^[k] i = i + UInt16.ofNat k := by
  induction k generalizing i with
  | zero => simp
  | succ k ih =>
    rw [Function.iterate_succ_apply, ih, UInt16.add_assoc, UInt16.ofNat_add,
      UInt16.add_comm 1]
    rfl

/-- The fuel for an 8-bit counter. -/
def fuelU8 : ℕ := 257

theorem toNat_iterate_add_one_u8 (k : ℕ) (i : UInt8) :
    ((· + 1)^[k] i).toNat = (i.toNat + k) % 256 := by
  induction k with
  | zero => exact (Nat.mod_eq_of_lt i.toNat_lt).symm
  | succ k ih =>
    rw [Function.iterate_succ_apply', UInt8.toNat_add, ih, UInt8.toNat_one]
    omega

/-- The fuel for a 32-bit counter. -/
def fuelU32 : ℕ := 4294967297

theorem toNat_iterate_add_one_u32 (k : ℕ) (i : UInt32) :
    ((· + 1)^[k] i).toNat = (i.toNat + k) % 4294967296 := by
  induction k with
  | zero => exact (Nat.mod_eq_of_lt i.toNat_lt).symm
  | succ k ih =>
    rw [Function.iterate_succ_apply', UInt32.toNat_add, ih, UInt32.toNat_one]
    omega

/-- `for(i=0;i<b;i++)` with a 32-bit counter the rounds do not depend on. -/
theorem forLoop_lt_u32 (out : List α) (b : UInt32) :
    forLoop (· + 1) (fun i => decide (i < b)) (fun _ => some out) fuelU32 0 =
      some ((List.range b.toNat).flatMap fun _ => out) := by
  have hb := b.toNat_lt
  have hiter : ∀ k ≤ b.toNat, ((· + 1)^[k] (0 : UInt32)).toNat = k := by
    intro k hk
    rw [toNat_iterate_add_one_u32, UInt32.toNat_zero]
    omega
  refine forLoop_eq_some _ (fun k hk => ?_) ?_ (fun k _ => rfl) (by rw [fuelU32]; omega)
  · rw [decide_eq_true_eq, UInt32.lt_iff_toNat_lt, hiter k hk.le]
    exact hk
  · rw [decide_eq_false_iff_not, UInt32.lt_iff_toNat_lt, hiter _ le_rfl]
    exact lt_irrefl _

/-- `for(i=a;i<b;i++)`, for a start not past the bound. -/
theorem forLoop_lt_u16 {body : UInt16 → Option (List α)} {b : UInt16} (f : ℕ → List α)
    (hbody : ∀ k < b.toNat, body (UInt16.ofNat k) = some (f k)) :
    forLoop (· + 1) (fun i => decide (i < b)) body fuelU16 0 =
      some ((List.range b.toNat).flatMap f) := by
  have hb := b.toNat_lt
  have hiter : ∀ k ≤ b.toNat, (· + 1)^[k] (0 : UInt16) = UInt16.ofNat k ∧
      (UInt16.ofNat k).toNat = k := by
    intro k hk
    rw [iterate_add_one_u16, UInt16.zero_add, UInt16.toNat_ofNat']
    exact ⟨rfl, Nat.mod_eq_of_lt (by omega)⟩
  refine forLoop_eq_some f (fun k hk => ?_) ?_ (fun k hk => ?_) (by rw [fuelU16]; omega)
  · obtain ⟨hval, hnat⟩ := hiter k hk.le
    rw [hval, decide_eq_true_eq, UInt16.lt_iff_toNat_lt, hnat]
    exact hk
  · obtain ⟨hval, hnat⟩ := hiter b.toNat le_rfl
    rw [hval, decide_eq_false_iff_not, UInt16.lt_iff_toNat_lt, hnat]
    exact lt_irrefl _
  · rw [(hiter k hk.le).1]
    exact hbody k hk

/-- `for(i=0;i<b;i++)` with a round below the bound that is undefined. -/
theorem forLoop_lt_u16_eq_none {body : UInt16 → Option (List α)} {b : UInt16} {n : ℕ}
    (hn : n < b.toNat) (hbody : body (UInt16.ofNat n) = none) :
    forLoop (· + 1) (fun i => decide (i < b)) body fuelU16 0 = none := by
  have hb := b.toNat_lt
  have hcond : ∀ k ≤ n, decide ((· + 1)^[k] (0 : UInt16) < b) := by
    intro k hk
    rw [iterate_add_one_u16, UInt16.zero_add, decide_eq_true_eq, UInt16.lt_iff_toNat_lt,
      UInt16.toNat_ofNat']
    omega
  refine forLoop_eq_none_of_round (fun k hk => hcond k hk.le) (hcond n le_rfl) ?_
  rwa [iterate_add_one_u16, UInt16.zero_add]

/-- `for(i=a;i<=b;i++)`, for a start not past the bound and a bound that is not the last value. -/
theorem forLoop_le_u16 {body : UInt16 → Option (List α)} {a b : UInt16} (hab : a ≤ b)
    (hb : b.toNat < 65535) (f : ℕ → List α)
    (hbody : ∀ k < b.toNat - a.toNat + 1, body (a + UInt16.ofNat k) = some (f k)) :
    forLoop (· + 1) (fun i => decide (i ≤ b)) body fuelU16 a =
      some ((List.range (b.toNat - a.toNat + 1)).flatMap f) := by
  have hab' := UInt16.le_iff_toNat_le.mp hab
  have hiter : ∀ k ≤ b.toNat - a.toNat + 1,
      (a + UInt16.ofNat k).toNat = a.toNat + k := by
    intro k hk
    rw [UInt16.toNat_add, UInt16.toNat_ofNat']
    omega
  refine forLoop_eq_some f (fun k hk => ?_) ?_ (fun k hk => ?_) (by rw [fuelU16]; omega)
  · rw [iterate_add_one_u16, decide_eq_true_eq, UInt16.le_iff_toNat_le, hiter k hk.le]
    omega
  · rw [iterate_add_one_u16, decide_eq_false_iff_not, UInt16.le_iff_toNat_le, hiter _ le_rfl]
    omega
  · rw [iterate_add_one_u16]
    exact hbody k hk

end Stm32Board.Common
