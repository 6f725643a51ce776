import Stm32Board.Lcd.Draw
import Mathlib.Algebra.Order.Ring.Abs
import Mathlib.Algebra.Order.Ring.Int
import Mathlib.Data.List.Chain
import Mathlib.Data.List.Range
import Mathlib.Tactic.IntervalCases
import Mathlib.Tactic.Linarith
import Mathlib.Tactic.Ring

/-!
# `LCD_Draw_Circle`

The loop walks the first octant, one column a round, and draws eight images of each point. Its
decision variable is meant to compare the two next candidates with the circle, as in Bresenham's
rule. But `a` has already been counted up when it enters the increments, so `di` runs ahead of the
comparison by `4 * a` (`circleState_di`), and the ordinate may go down too early. The points are the
nearest ones exactly when it never does (`circleDrawn_iff_not_early`), for radii up to 4
(`circleDrawn_iff`).
-/

namespace Stm32Board.Lcd

open Common

/-! ## What a circle is -/

/-- How far a point at the offsets `a`, `b` is from the circle of radius `r`, in squares. -/
def circleError (r : ℕ) (a b : ℤ) : ℕ := (a ^ 2 + b ^ 2 - r ^ 2).natAbs

/-- The points of the first octant the loop visits, as offsets from the centre. -/
def circleOctant (r : UInt8) : Option (List (ℤ × ℤ)) := circleLoop r fun a b => [(a, b)]

/-- The images of an offset of the first octant in the eight octants. -/
def EightFold (p o : ℤ × ℤ) : Prop :=
  (|o.1| = p.1 ∧ |o.2| = p.2) ∨ (|o.1| = p.2 ∧ |o.2| = p.1)

/-- The points of a circle, by those of its first octant. -/
structure IsCircle (x0 y0 : UInt16) (r : UInt8) (octant : List (ℤ × ℤ)) (dots : List Dot) :
    Prop where
  symmetric : ∀ dot, dot ∈ dots ↔
    ∃ p ∈ octant, ∃ o, EightFold p o ∧ dot = dotAt (x0.toNat + o.1) (y0.toNat + o.2)
  inOctant : ∀ p ∈ octant, 0 ≤ p.1 ∧ p.1 ≤ p.2
  steps : octant.IsChain fun p q => q.1 = p.1 + 1 ∧ |q.2 - p.2| ≤ 1
  nearest : ∀ p ∈ octant, ∀ c, circleError r.toNat p.1 p.2 ≤ circleError r.toNat p.1 c

/-- `LCD_Draw_Circle` ends, and draws the circle. -/
def CircleDrawn (x0 y0 : UInt16) (r : UInt8) : Prop :=
  ∃ octant dots, circleOctant r = some octant ∧ lcdDrawCircle x0 y0 r = some dots ∧
    IsCircle x0 y0 r octant dots

/-! ## The nearest ordinate -/

/-- An ordinate with no nearer neighbour has no nearer integer at all: the error falls up to the
circle and grows beyond it. -/
theorem circleError_le_of_neighbours {r : ℕ} {a b : ℤ} (hb : 0 ≤ b)
    (habove : circleError r a b ≤ circleError r a (b + 1))
    (hbelow : circleError r a b ≤ circleError r a (b - 1)) (c : ℤ) :
    circleError r a b ≤ circleError r a c := by
  rw [circleError, circleError] at habove hbelow ⊢
  -- the sign of an ordinate does not matter
  rw [← sq_abs c]
  have hc := abs_nonneg c
  generalize |c| = d at hc ⊢
  rcases lt_trichotomy d b with hlt | rfl | hlt
  · have hd : d ^ 2 ≤ (b - 1) ^ 2 := pow_le_pow_left₀ hc (by omega) 2
    have hb' : (b - 1) ^ 2 < b ^ 2 := pow_lt_pow_left₀ (by omega) (by omega) (by decide)
    omega
  · exact le_rfl
  · have hd : (b + 1) ^ 2 ≤ d ^ 2 := pow_le_pow_left₀ (by omega) (by omega) 2
    have hb' : b ^ 2 < (b + 1) ^ 2 := pow_lt_pow_left₀ (by omega) (by omega) (by decide)
    omega

/-- The errors of an ordinate and of the one below it, with their signs. -/
def twoErrors (r : ℕ) (a b : ℤ) : ℤ := (a ^ 2 + b ^ 2 - r ^ 2) + (a ^ 2 + (b - 1) ^ 2 - r ^ 2)

/-- One step to the right. -/
theorem twoErrors_right (r : ℕ) (a b : ℤ) : twoErrors r (a + 1) b = twoErrors r a b + (4 * a + 2) := by
  rw [twoErrors, twoErrors]
  ring

theorem twoErrors_down (r : ℕ) (a b : ℤ) : twoErrors r a (b - 1) = twoErrors r a b - (4 * b - 4) := by
  rw [twoErrors, twoErrors]
  ring

/-- Of two neighbours the one below is nearer when the errors are positive together. -/
theorem circleError_below_le_iff {r : ℕ} {a b : ℤ} (hb : 1 ≤ b) :
    circleError r a (b - 1) ≤ circleError r a b ↔ 0 ≤ twoErrors r a b := by
  have hlt : (b - 1) ^ 2 < b ^ 2 := pow_lt_pow_left₀ (by omega) (by omega) (by decide)
  rw [circleError, circleError, twoErrors]
  omega

/-- Whether the pixel above is further off, by the errors of both. -/
theorem circleError_le_above_iff {r : ℕ} {a b : ℤ} (hb : 0 ≤ b) :
    circleError r a b ≤ circleError r a (b + 1) ↔ 0 ≤ twoErrors r a (b + 1) := by
  have hbelow := circleError_below_le_iff (r := r) (a := a) (b := b + 1) (by omega)
  rwa [add_sub_cancel_right] at hbelow

theorem circleError_le_below_iff {r : ℕ} {a b : ℤ} (hb : 1 ≤ b) :
    circleError r a b ≤ circleError r a (b - 1) ↔ twoErrors r a b ≤ 0 := by
  have hlt : (b - 1) ^ 2 < b ^ 2 := pow_lt_pow_left₀ (by omega) (by omega) (by decide)
  rw [circleError, circleError, twoErrors]
  omega

/-! ## The rounds -/

/-- The state after `k` rounds. -/
def circleState (r : UInt8) (k : ℕ) : CircleState := circleNext^[k] (circleStart r)

/-- The decision of Bresenham's rule at `(a, b)`: the errors of the two candidates of the next
column, with their signs. It is negative when the outer one is nearer. -/
def midpointTest (r : ℕ) (a b : ℤ) : ℤ := twoErrors r (a + 1) b

section Rounds

variable (r : UInt8)

/-- The state before the first round. -/
theorem circleState_zero : circleState r 0 = circleStart r := rfl

theorem circleState_succ (k : ℕ) : circleState r (k + 1) = circleNext (circleState r k) :=
  Function.iterate_succ_apply' circleNext k (circleStart r)

/-- A round moves one column to the right and at most one row down. -/
theorem circleNext_cases (s : CircleState) :
    (s.di < 0 ∧ circleNext s = { a := s.a + 1, b := s.b, di := s.di + (4 * (s.a + 1) + 6) }) ∨
    (0 ≤ s.di ∧ circleNext s =
      { a := s.a + 1, b := s.b - 1, di := s.di + (10 + 4 * (s.a + 1 - s.b)) }) := by
  rw [circleNext]
  split
  · exact Or.inl ⟨‹_›, rfl⟩
  · exact Or.inr ⟨not_lt.mp ‹_›, rfl⟩

/-- Each round is a column. -/
theorem circleState_a (k : ℕ) : (circleState r k).a = k := by
  induction k with
  | zero => rfl
  | succ k ih =>
    rw [circleState_succ]
    rcases circleNext_cases (circleState r k) with ⟨-, hnext⟩ | ⟨-, hnext⟩
    · rw [hnext, ih]
      push_cast
      rfl
    · rw [hnext, ih]
      push_cast
      rfl

/-- In each round the row stays or goes down by one. -/
theorem circleState_b (k : ℕ) : (circleState r (k + 1)).b = (circleState r k).b ∨
    (circleState r (k + 1)).b = (circleState r k).b - 1 := by
  rw [circleState_succ]
  rcases circleNext_cases (circleState r k) with ⟨-, hnext⟩ | ⟨-, hnext⟩
  · exact Or.inl (by rw [hnext])
  · exact Or.inr (by rw [hnext])

/-- So it never comes up again. -/
theorem circleState_b_le {j k : ℕ} (h : j ≤ k) : (circleState r k).b ≤ (circleState r j).b := by
  induction k, h using Nat.le_induction with
  | base => exact le_rfl
  | succ k _ ih =>
    rcases circleState_b r k with hb | hb
    · rwa [hb]
    · rw [hb]
      omega

/-- The decision variable is the decision of Bresenham's rule, and four times the column more. -/
theorem circleState_di (k : ℕ) : (circleState r k).di =
    midpointTest r.toNat (circleState r k).a (circleState r k).b + 4 * (circleState r k).a := by
  induction k with
  | zero =>
    rw [circleState_zero, circleStart, midpointTest, twoErrors]
    ring
  | succ k ih =>
    rw [midpointTest, twoErrors] at ih ⊢
    rw [circleState_succ]
    rcases circleNext_cases (circleState r k) with ⟨-, hnext⟩ | ⟨-, hnext⟩
    · rw [hnext]
      dsimp only
      rw [ih]
      ring
    · rw [hnext]
      dsimp only
      rw [ih]
      ring

/-- The loop ends, after the same number of rounds whatever it draws. -/
theorem exists_circleRounds : ∃ n : ℕ,
    (∀ k, k < n ↔ (circleState r k).a ≤ (circleState r k).b) ∧
      ∀ (α : Type) (body : ℤ → ℤ → List α), circleLoop r body =
        some ((List.range n).flatMap fun k => body (circleState r k).a (circleState r k).b) := by
  have hr := r.toNat_lt
  have hbeyond : (circleState r (r.toNat + 1)).b < (circleState r (r.toNat + 1)).a := by
    have hb := circleState_b_le r (Nat.zero_le (r.toNat + 1))
    have hstart : (circleState r 0).b = r.toNat := rfl
    rw [circleState_a]
    omega
  -- the column has passed the radius by then, and the ordinate never rises
  have hend : ∃ k, (circleState r k).b < (circleState r k).a := ⟨r.toNat + 1, hbeyond⟩
  have hlast : Nat.find hend ≤ r.toNat + 1 := Nat.find_min' hend hbeyond
  have hinside : ∀ k, k < Nat.find hend ↔ (circleState r k).a ≤ (circleState r k).b := by
    intro k
    constructor
    · intro hk
      exact not_lt.mp (Nat.find_min hend hk)
    · -- once outside the octant, the loop stays outside
      intro hk
      by_contra hout
      have hspec := Nat.find_spec hend
      have hb := circleState_b_le r (not_lt.mp hout)
      rw [circleState_a] at hk hspec
      omega
  refine ⟨Nat.find hend, hinside, fun α body => ?_⟩
  apply forLoop_eq_some
  · intro k hk
    exact decide_eq_true ((hinside k).mp hk)
  · exact decide_eq_false (not_le.mpr (Nat.find_spec hend))
  · intro k _
    rfl
  · rw [fuelU8]
    omega

end Rounds

/-! ## The points -/

/-- The eight dots of a round are the reflections of one. -/
theorem mem_circleDots {x0 y0 : UInt16} {a b : ℤ} (ha : 0 ≤ a) (hb : 0 ≤ b) (dot : Dot) :
    dot ∈ circleDots x0 y0 a b ↔
      ∃ o, EightFold (a, b) o ∧ dot = dotAt (x0.toNat + o.1) (y0.toNat + o.2) := by
  constructor
  · intro hdot
    rw [circleDots] at hdot
    simp only [List.mem_cons, List.not_mem_nil, or_false] at hdot
    have hleft : ∀ {u v : ℤ}, |u| = a → |v| = b → EightFold (a, b) (u, v) :=
      fun hu hv => Or.inl ⟨hu, hv⟩
    have hright : ∀ {u v : ℤ}, |u| = b → |v| = a → EightFold (a, b) (u, v) :=
      fun hu hv => Or.inr ⟨hu, hv⟩
    have ha' := abs_of_nonneg ha
    have hb' := abs_of_nonneg hb
    have ha'' : |-a| = a := (abs_neg a).trans ha'
    have hb'' : |-b| = b := (abs_neg b).trans hb'
    rcases hdot with rfl | rfl | rfl | rfl | rfl | rfl | rfl | rfl
    · exact ⟨(a, -b), hleft ha' hb'', rfl⟩
    · exact ⟨(b, -a), hright hb' ha'', rfl⟩
    · exact ⟨(b, a), hright hb' ha', rfl⟩
    · exact ⟨(a, b), hleft ha' hb', rfl⟩
    · exact ⟨(-a, b), hleft ha'' hb', rfl⟩
    · exact ⟨(-b, a), hright hb'' ha', rfl⟩
    · exact ⟨(-a, -b), hleft ha'' hb'', rfl⟩
    · exact ⟨(-b, -a), hright hb'' ha'', rfl⟩
  · rintro ⟨⟨u, v⟩, ho, rfl⟩
    rcases ho with ⟨hu, hv⟩ | ⟨hu, hv⟩
    · rcases (abs_eq ha).mp hu with rfl | rfl
      all_goals
        rcases (abs_eq hb).mp hv with rfl | rfl
        all_goals simp [circleDots, ← sub_eq_add_neg]
    · rcases (abs_eq hb).mp hu with rfl | rfl
      all_goals
        rcases (abs_eq ha).mp hv with rfl | rfl
        all_goals simp [circleDots, ← sub_eq_add_neg]

/-- For every radius the loop ends, its points come in eights, and the octant has no gaps. What is
left is whether the points of the octant are the nearest ones. -/
theorem circleDrawn_iff_nearest (x0 y0 : UInt16) (r : UInt8) : CircleDrawn x0 y0 r ↔
    ∀ k, (circleState r k).a ≤ (circleState r k).b → ∀ c,
      circleError r.toNat (circleState r k).a (circleState r k).b ≤
        circleError r.toNat (circleState r k).a c := by
  obtain ⟨n, hin, hloop⟩ := exists_circleRounds r
  have hoctant : circleOctant r =
      some ((List.range n).map fun k => ((circleState r k).a, (circleState r k).b)) := by
    rw [circleOctant, hloop, List.map_eq_flatMap]
  constructor
  · rintro ⟨octant, dots, hoctant', -, hcircle⟩ k hk
    obtain rfl := Option.some.inj (hoctant'.symm.trans hoctant)
    exact hcircle.nearest _ (List.mem_map_of_mem (List.mem_range.mpr ((hin k).mpr hk)))
  · intro hnearest
    -- the dots of the octant have coordinates that are not negative
    have hpos : ∀ k < n, 0 ≤ (circleState r k).a ∧ 0 ≤ (circleState r k).b := by
      intro k hk
      have hle := (hin k).mp hk
      rw [circleState_a] at hle ⊢
      exact ⟨by omega, by omega⟩
    -- reflections, octant, steps, nearest
    refine ⟨_, _, hoctant, hloop Dot (circleDots x0 y0), ⟨?_, ?_, ?_, ?_⟩⟩
    · intro dot
      rw [List.mem_flatMap]
      constructor
      · rintro ⟨k, hk, hdot⟩
        obtain ⟨ha, hb⟩ := hpos k (List.mem_range.mp hk)
        exact ⟨_, List.mem_map_of_mem hk, (mem_circleDots ha hb dot).mp hdot⟩
      · rintro ⟨p, hp, hdot⟩
        obtain ⟨k, hk, rfl⟩ := List.mem_map.mp hp
        obtain ⟨ha, hb⟩ := hpos k (List.mem_range.mp hk)
        exact ⟨k, hk, (mem_circleDots ha hb dot).mpr hdot⟩
    · intro p hp
      obtain ⟨k, hk, rfl⟩ := List.mem_map.mp hp
      have hk' := List.mem_range.mp hk
      exact ⟨(hpos k hk').1, (hin k).mp hk'⟩
    · rw [List.isChain_map, List.isChain_range]
      intro k _
      refine ⟨?_, ?_⟩
      · rw [circleState_a, circleState_a]
        push_cast
        rfl
      · rcases circleState_b r k with hb | hb
        · rw [Nat.succ_eq_add_one, hb, sub_self]
          decide
        · rw [Nat.succ_eq_add_one, hb, abs_le]
          exact ⟨by omega, by omega⟩
    · intro p hp
      obtain ⟨k, hk, rfl⟩ := List.mem_map.mp hp
      exact hnearest k ((hin k).mp (List.mem_range.mp hk))

/-! ## Going down too early -/

/-- The ordinate goes down although the outer candidate is nearer, and the point is drawn. -/
structure Early (r : ℕ) (s : CircleState) : Prop where
  down : 0 ≤ s.di
  outer : midpointTest r s.a s.b < 0
  drawn : s.a + 1 ≤ s.b - 1

section Early

variable {r : UInt8} {k : ℕ}

/-- No ordinate next to that of the point is nearer. -/
structure Nearest (r : ℕ) (s : CircleState) : Prop where
  above : 0 ≤ twoErrors r s.a (s.b + 1)
  below : twoErrors r s.a s.b ≤ 0

/-- The loop goes down too early when the test is negative by no more than four times the column. -/
theorem early_iff : Early r.toNat (circleState r k) ↔
    -(4 * (k : ℤ)) ≤ midpointTest r.toNat k (circleState r k).b ∧
      midpointTest r.toNat k (circleState r k).b < 0 ∧ (k : ℤ) + 1 ≤ (circleState r k).b - 1 := by
  have hdi := circleState_di r k
  have ha := circleState_a r k
  rw [ha] at hdi
  constructor
  · rintro ⟨hdown, houter, hdrawn⟩
    rw [ha] at houter hdrawn
    exact ⟨by omega, houter, hdrawn⟩
  · rintro ⟨hdown, houter, hdrawn⟩
    exact ⟨by omega, ha.symm ▸ houter, ha.symm ▸ hdrawn⟩

/-- After the ordinate went down too early the one above is nearer. -/
theorem Early.nearer (h : Early r.toNat (circleState r k)) :
    (circleState r (k + 1)).a ≤ (circleState r (k + 1)).b ∧
      circleError r.toNat (circleState r (k + 1)).a ((circleState r (k + 1)).b + 1) <
        circleError r.toNat (circleState r (k + 1)).a (circleState r (k + 1)).b := by
  have ha := circleState_a r k
  have hdrawn := h.drawn
  rw [circleState_succ]
  rcases circleNext_cases (circleState r k) with ⟨hneg, -⟩ | ⟨-, hnext⟩
  · exact absurd h.down (not_le.mpr hneg)
  rw [hnext]
  dsimp only
  rw [sub_add_cancel]
  have hiff := circleError_below_le_iff (r := r.toNat) (a := (circleState r k).a + 1)
    (b := (circleState r k).b) (by omega)
  exact ⟨hdrawn, not_le.mp fun hle => absurd (hiff.mp hle) (not_le.mpr h.outer)⟩

/-- A round that does not go down too early keeps to the nearest ordinate. -/
theorem Nearest.next (h : Nearest r.toNat (circleState r k)) (hearly : ¬Early r.toNat (circleState r k))
    (hin : (circleState r (k + 1)).a ≤ (circleState r (k + 1)).b) :
    Nearest r.toNat (circleState r (k + 1)) := by
  have hdi := circleState_di r k
  have ha := circleState_a r k
  rw [midpointTest] at hdi
  rw [circleState_succ] at hin ⊢
  rcases circleNext_cases (circleState r k) with ⟨hneg, hnext⟩ | ⟨hdown, hnext⟩
  · rw [hnext] at hin ⊢
    constructor
    · dsimp only
      rw [twoErrors_right]
      have := h.above
      omega
    · dsimp only
      omega
  · rw [hnext] at hin ⊢
    dsimp only at hin
    constructor
    · dsimp only
      rw [sub_add_cancel]
      exact not_lt.mp fun houter => hearly ⟨hdown, houter, hin⟩
    · dsimp only
      rw [twoErrors_right, twoErrors_down]
      have := h.below
      omega

/-- While it never goes down too early, the loop draws the nearest points. -/
theorem nearest_of_not_early (hr : 1 ≤ r.toNat) (hearly : ∀ k, ¬Early r.toNat (circleState r k))
    (hin : (circleState r k).a ≤ (circleState r k).b) : Nearest r.toNat (circleState r k) := by
  induction k with
  | zero =>
    constructor <;> rw [circleState_zero, circleStart, twoErrors] <;> dsimp only <;> ring_nf <;> omega
  | succ k ih =>
    have hprev : (circleState r k).a ≤ (circleState r k).b := by
      have hb := circleState_b_le r (Nat.le_add_right k 1)
      have ha := circleState_a r k
      have ha' := circleState_a r (k + 1)
      omega
    exact (ih hprev).next (hearly k) hin

end Early

/-- For every radius: the circle is drawn exactly when the loop never goes down too early. -/
theorem circleDrawn_iff_not_early (x0 y0 : UInt16) (r : UInt8) :
    CircleDrawn x0 y0 r ↔ ∀ k, ¬Early r.toNat (circleState r k) := by
  rw [circleDrawn_iff_nearest]
  constructor
  · intro hnearest k hearly
    obtain ⟨hin, hlt⟩ := hearly.nearer
    exact absurd (hnearest (k + 1) hin _) (not_le.mpr hlt)
  · intro hearly k hk c
    have ha := circleState_a r k
    have hb := circleState_b_le r (Nat.zero_le k)
    have hstart : (circleState r 0).b = r.toNat := rfl
    rcases Nat.eq_zero_or_pos r.toNat with hzero | hpos
    · -- a single point
      have ha0 : (circleState r k).a = 0 := by omega
      have hb0 : (circleState r k).b = 0 := by omega
      rw [ha0, hb0, hzero]
      exact Nat.zero_le _
    · have hspec := nearest_of_not_early hpos hearly hk
      have hb1 : 1 ≤ (circleState r k).b := by
        rcases Nat.eq_zero_or_pos k with rfl | hk0 <;> omega
      have habove := (circleError_le_above_iff (r := r.toNat) (a := (circleState r k).a)
        (b := (circleState r k).b) (by omega)).mpr hspec.above
      exact circleError_le_of_neighbours (by omega) habove
        ((circleError_le_below_iff hb1).mpr hspec.below) c

/-! ## The radii -/

/-- Whether one of the next `n` rounds goes down too early. -/
def goesEarly (r : ℕ) : ℕ → CircleState → Bool
  | 0, _ => false
  | n + 1, s =>
    decide (0 ≤ s.di ∧ midpointTest r s.a s.b < 0 ∧ s.a + 1 ≤ s.b - 1) ||
      goesEarly r n (circleNext s)

/-- What the search finds is a round that goes down too early. -/
theorem exists_of_goesEarly {r n : ℕ} {s : CircleState} (h : goesEarly r n s = true) :
    ∃ k, Early r (circleNext^[k] s) := by
  induction n generalizing s with
  | zero => exact absurd h (by simp [goesEarly])
  | succ n ih =>
    rw [goesEarly, Bool.or_eq_true, decide_eq_true_eq] at h
    rcases h with ⟨hdown, houter, hdrawn⟩ | hlater
    · exact ⟨0, hdown, houter, hdrawn⟩
    · obtain ⟨k, hk⟩ := ih hlater
      exact ⟨k + 1, hk⟩

/-- From radius 5 on the loop goes down too early within 28 rounds. -/
theorem goesEarly_of_five_le :
    ∀ n : Fin 256, 5 ≤ n.val → goesEarly n 28 (circleStart (UInt8.ofNat n)) = true := by
  decide +kernel

/-- From radius 5 on every circle has a dot that is not the nearest of its column. -/
theorem not_circleDrawn_of_five_le (x0 y0 : UInt16) {r : UInt8} (h : 5 ≤ r.toNat) :
    ¬CircleDrawn x0 y0 r := by
  rw [circleDrawn_iff_not_early]
  intro hearly
  have hgoes := goesEarly_of_five_le ⟨r.toNat, r.toNat_lt⟩ h
  obtain ⟨k, hk⟩ := exists_of_goesEarly hgoes
  rw [UInt8.ofNat_toNat] at hk
  exact hearly k hk

/-- `LCD_Draw_Circle` draws the circle for the radii up to 4, and for no other. -/
theorem circleDrawn_iff (x0 y0 : UInt16) (r : UInt8) : CircleDrawn x0 y0 r ↔ r ≤ 4 := by
  have hfour : r ≤ 4 ↔ r.toNat ≤ 4 := UInt8.le_iff_toNat_le
  rw [hfour]
  constructor
  · intro hdrawn
    by_contra hlarge
    exact not_circleDrawn_of_five_le x0 y0 (by omega) hdrawn
  · intro hsmall
    rw [circleDrawn_iff_not_early]
    intro k hk
    obtain ⟨hlow, hhigh, hdrawn⟩ := early_iff.mp hk
    have hb := circleState_b_le r (Nat.zero_le k)
    have hstart : (circleState r 0).b = r.toNat := rfl
    rw [hstart] at hb
    -- so few columns and ordinates are left that the test can be evaluated
    generalize (circleState r k).b = b at hlow hhigh hdrawn hb
    generalize r.toNat = n at hsmall hlow hhigh hb
    have hk2 : k ≤ 2 := by omega
    have hb2 : 2 ≤ b := by omega
    have hb4 : b ≤ 4 := by omega
    rw [midpointTest, twoErrors] at hlow hhigh
    interval_cases n <;> interval_cases k <;> interval_cases b <;> omega

/-- Radius 5: the third column is drawn one row too low. -/
theorem not_circleDrawn_radius_five : ¬ CircleDrawn 120 160 5 :=
  not_circleDrawn_of_five_le 120 160 (by decide)

end Stm32Board.Lcd
