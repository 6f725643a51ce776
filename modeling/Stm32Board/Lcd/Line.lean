import Stm32Board.Lcd.Draw
import Stm32Board.Common.ErrorAccumulator
import Mathlib.Algebra.Order.Ring.Abs
import Mathlib.Algebra.Order.Ring.Int
import Mathlib.Algebra.Order.Field.Basic
import Mathlib.Algebra.Order.Field.Rat
import Mathlib.Data.List.Chain
import Mathlib.Data.List.Range
import Mathlib.Tactic.FieldSimp
import Mathlib.Tactic.Ring

/-!
# `LCD_DrawLine`

Each coordinate is moved by an error accumulator of its own, both of the longer distance. After `k`
rounds the point has moved by the carries of the two accumulators, so the claims about a line are
claims about carries: the first point by `carries_zero`, the last one by `carries_last`, the columns
of the longer axis by `carries_self` and the distance from the ideal line by `abs_deviation_lt`.
-/

namespace Stm32Board.Lcd

open Common

/-! ## What a line is -/

/-- A coordinate between two others, in either order. -/
def Between (a b c : UInt16) : Prop :=
  min a.toNat b.toNat ≤ c.toNat ∧ c.toNat ≤ max a.toNat b.toNat

/-- The distance of two coordinates. -/
def apart (a b : UInt16) : ℕ := max a.toNat b.toNat - min a.toNat b.toNat

/-- The ideal line from `p` to `q` at the coordinate `u` along it. A line that is a single point is
at that point. -/
def idealAt (along across : Dot → UInt16) (p q : Dot) (u : UInt16) : ℚ :=
  (across p).toNat + ((across q).toNat - (across p).toNat : ℚ) *
    (u.toNat - (along p).toNat) / ((along q).toNat - (along p).toNat)

/-- The points of a line over its longer axis: no coordinate along it is left out, and across it
every point is less than a pixel from the ideal line. -/
structure Along (along across : Dot → UInt16) (p q : Dot) (dots : List Dot) : Prop where
  visits : ∀ c, Between (along p) (along q) c → ∃ dot ∈ dots, along dot = c
  near : ∀ dot ∈ dots, |((across dot).toNat : ℚ) - idealAt along across p q (along dot)| < 1

/-- The points of a line from `p` to `q`. -/
structure IsLine (p q : Dot) (dots : List Dot) : Prop where
  first : dots.head? = some p
  last : dots.getLast? = some q
  inBox : ∀ dot ∈ dots, Between p.1 q.1 dot.1 ∧ Between p.2 q.2 dot.2
  noGaps : dots.IsChain fun dot next => apart dot.1 next.1 ≤ 1 ∧ apart dot.2 next.2 ≤ 1
  overX : apart p.2 q.2 ≤ apart p.1 q.1 → Along Prod.fst Prod.snd p q dots
  overY : apart p.1 q.1 ≤ apart p.2 q.2 → Along Prod.snd Prod.fst p q dots

/-! ## One axis -/

/-- The distance along an axis, as the code takes it. -/
theorem lineDelta_eq_abs (delta : ℤ) : lineDelta delta = |delta| := by
  rw [lineDelta]
  split
  · exact (abs_of_pos ‹_›).symm
  · split
    · rename_i hzero
      rw [hzero, abs_zero]
    · exact (abs_of_nonpos (by omega)).symm

/-- A distance and its direction. -/
theorem lineInc_mul_abs (delta : ℤ) : lineInc delta * |delta| = delta := by
  rw [lineInc]
  split
  · rw [abs_of_pos ‹_›, one_mul]
  · split
    · rename_i hzero
      rw [hzero, zero_mul]
    · rw [abs_of_nonpos (by omega)]
      omega

/-- The direction is the sign. -/
theorem lineInc_cases (delta : ℤ) :
    (lineInc delta = 1 ∧ 0 < delta) ∨ (lineInc delta = 0 ∧ delta = 0) ∨
      (lineInc delta = -1 ∧ delta < 0) := by
  rw [lineInc]
  split
  · exact Or.inl ⟨rfl, ‹_›⟩
  · split
    · exact Or.inr (Or.inl ⟨rfl, ‹_›⟩)
    · exact Or.inr (Or.inr ⟨rfl, by omega⟩)

/-- A coordinate that starts at `start` and goes to `stop`, after `k` rounds. -/
def axisAt (distance start stop : ℤ) (k : ℕ) : ℤ :=
  start + lineInc (stop - start) * carries distance |stop - start| k

/-- A round of the accumulator is a round of the loop on one axis. -/
theorem lineAxis_axisAt (distance start stop : ℤ) (k : ℕ) :
    lineAxis distance |stop - start| (lineInc (stop - start))
        (residue distance |stop - start| k) (axisAt distance start stop k) =
      (residue distance |stop - start| (k + 1), axisAt distance start stop (k + 1)) := by
  rw [lineAxis, axisAt, axisAt]
  rcases carries_succ distance |stop - start| k with
    ⟨hcarries, hsmall, hresidue⟩ | ⟨hcarries, hlarge, hresidue⟩
  · rw [if_neg (not_lt.mpr hsmall), hcarries, hresidue]
  · rw [if_pos hlarge, hcarries, hresidue, mul_add, mul_one, add_assoc]

section Axis

variable {distance start stop : ℤ}

/-- An axis starts at its start. -/
theorem axisAt_zero : axisAt distance start stop 0 = start := by
  rw [axisAt, carries_zero, mul_zero, add_zero]

/-- The last of the `distance + 2` rounds draws the end. -/
theorem axisAt_last (hle : |stop - start| ≤ distance) {k : ℕ} (hk : (k : ℤ) = distance) :
    axisAt distance start stop (k + 1) = stop := by
  rw [axisAt, carries_last (abs_nonneg _) hle hk, lineInc_mul_abs]
  omega

/-- It stays between start and stop. -/
theorem axisAt_between (hle : |stop - start| ≤ distance) {j k : ℕ} (hk : (k : ℤ) = distance)
    (hj : j ≤ k + 1) :
    min start stop ≤ axisAt distance start stop j ∧
      axisAt distance start stop j ≤ max start stop := by
  have hlow : carries distance |stop - start| 0 ≤ carries distance |stop - start| j :=
    carries_mono (Nat.zero_le j)
  have hhigh : carries distance |stop - start| j ≤ carries distance |stop - start| (k + 1) :=
    carries_mono hj
  rw [carries_zero] at hlow
  rw [carries_last (abs_nonneg _) hle hk] at hhigh
  rw [axisAt]
  rcases lineInc_cases (stop - start) with ⟨hinc, hpos⟩ | ⟨hinc, hzero⟩ | ⟨hinc, hneg⟩
  · rw [abs_of_pos hpos] at hlow hhigh ⊢
    rw [hinc]
    omega
  · rw [hinc]
    omega
  · rw [abs_of_neg hneg] at hlow hhigh ⊢
    rw [hinc]
    omega

/-- It moves by one at most. -/
theorem axisAt_step (distance start stop : ℤ) (k : ℕ) :
    |axisAt distance start stop (k + 1) - axisAt distance start stop k| ≤ 1 := by
  have hstep := carries_step distance |stop - start| k
  rw [axisAt, axisAt, abs_le]
  rcases lineInc_cases (stop - start) with ⟨hinc, -⟩ | ⟨hinc, -⟩ | ⟨hinc, -⟩
  all_goals
    rw [hinc]
    omega

/-- Along the longer axis the first two rounds draw the start, and each later one the next
coordinate. -/
theorem axisAt_longer (h : |stop - start| = distance) (hpos : 0 < distance) (k : ℕ) :
    axisAt distance start stop (k + 1) = start + lineInc (stop - start) * k := by
  rw [axisAt, h, carries_self hpos]

/-- Along the longer axis every coordinate is drawn. -/
theorem exists_axisAt_eq (h : |stop - start| = distance) {c : ℤ} (hlow : min start stop ≤ c)
    (hhigh : c ≤ max start stop) :
    ∃ k : ℕ, (k : ℤ) ≤ distance + 1 ∧ axisAt distance start stop k = c := by
  rcases lineInc_cases (stop - start) with ⟨hinc, hpos⟩ | ⟨hinc, hzero⟩ | ⟨hinc, hneg⟩
  · rw [abs_of_pos hpos] at h
    refine ⟨(c - start).toNat + 1, by omega, ?_⟩
    rw [axisAt_longer (by rw [abs_of_pos hpos, h]) (by omega), hinc]
    omega
  · refine ⟨0, by rw [hzero, abs_zero] at h; omega, ?_⟩
    rw [axisAt_zero]
    omega
  · rw [abs_of_neg hneg] at h
    refine ⟨(start - c).toNat + 1, by omega, ?_⟩
    rw [axisAt_longer (by rw [abs_of_neg hneg, h]) (by omega), hinc]
    omega

end Axis

/-- Two coordinates of one line, `u` the longer one: what `v` is off the ideal line, times the
distance. -/
theorem abs_cross_lt {distance u₁ u₂ v₁ v₂ : ℤ} (hu : |u₂ - u₁| = distance) (hpos : 0 < distance)
    (hv : |v₂ - v₁| ≤ distance) (k : ℕ) :
    |(axisAt distance v₁ v₂ k - v₁) * (u₂ - u₁) - (v₂ - v₁) * (axisAt distance u₁ u₂ k - u₁)| <
      distance := by
  have hlt := abs_deviation_lt hpos (abs_nonneg (v₂ - v₁)) hv k
  -- both products carry the signs of the two directions, and the deviation does not
  have hsigns : (axisAt distance v₁ v₂ k - v₁) * (u₂ - u₁) -
      (v₂ - v₁) * (axisAt distance u₁ u₂ k - u₁) =
      lineInc (v₂ - v₁) * lineInc (u₂ - u₁) *
        (distance * carries distance |v₂ - v₁| k -
          |v₂ - v₁| * carries distance distance k) := by
    have hu' := lineInc_mul_abs (u₂ - u₁)
    have hv' := lineInc_mul_abs (v₂ - v₁)
    rw [hu] at hu'
    rw [axisAt, axisAt, hu]
    generalize carries distance |v₂ - v₁| k = s
    generalize carries distance distance k = m
    calc (v₁ + lineInc (v₂ - v₁) * s - v₁) * (u₂ - u₁) -
          (v₂ - v₁) * (u₁ + lineInc (u₂ - u₁) * m - u₁)
        = (lineInc (v₂ - v₁) * s) * (lineInc (u₂ - u₁) * distance) -
          (lineInc (v₂ - v₁) * |v₂ - v₁|) * (lineInc (u₂ - u₁) * m) := by
          rw [hu', hv']
          ring
      _ = lineInc (v₂ - v₁) * lineInc (u₂ - u₁) * (distance * s - |v₂ - v₁| * m) := by ring
  have hone : ∀ delta, |lineInc delta| ≤ 1 := by
    intro delta
    rcases lineInc_cases delta with ⟨hinc, -⟩ | ⟨hinc, -⟩ | ⟨hinc, -⟩
    all_goals
      rw [hinc]
      decide
  rw [hsigns, abs_mul, abs_mul]
  calc |lineInc (v₂ - v₁)| * |lineInc (u₂ - u₁)| * _
      ≤ 1 * |distance * carries distance |v₂ - v₁| k - |v₂ - v₁| * carries distance distance k| :=
        mul_le_mul_of_nonneg_right
          (mul_le_one₀ (hone _) (abs_nonneg _) (hone _)) (abs_nonneg _)
    _ < distance := by rwa [one_mul]

/-! ## The loop -/

/-- The distance of two points along the longer axis. -/
def lineDistance (p q : Dot) : ℕ := max (apart p.1 q.1) (apart p.2 q.2)

/-- The point drawn in round `k`. -/
def lineDot (p q : Dot) (k : ℕ) : Dot :=
  dotAt (axisAt (lineDistance p q) p.1.toNat q.1.toNat k)
    (axisAt (lineDistance p q) p.2.toNat q.2.toNat k)

/-- The distance of two coordinates in the integers. -/
theorem natCast_apart (a b : UInt16) : (apart a b : ℤ) = |(b.toNat : ℤ) - a.toNat| := by
  rw [apart]
  rcases le_total a.toNat b.toNat with hle | hle
  · rw [abs_of_nonneg (by omega)]
    omega
  · rw [abs_of_nonpos (by omega)]
    omega

/-- The state of the loop after `k` rounds: each axis is an accumulator of its own. -/
theorem lineNext_iterate (distance x₁ x₂ y₁ y₂ : ℤ) (k : ℕ) :
    (lineNext distance |x₂ - x₁| |y₂ - y₁| (lineInc (x₂ - x₁)) (lineInc (y₂ - y₁)))^[k]
        { t := 0, xerr := 0, yerr := 0, uRow := x₁, uCol := y₁ } =
      { t := UInt16.ofNat k, xerr := residue distance |x₂ - x₁| k,
        yerr := residue distance |y₂ - y₁| k, uRow := axisAt distance x₁ x₂ k,
        uCol := axisAt distance y₁ y₂ k } := by
  induction k with
  | zero =>
    rw [axisAt_zero, axisAt_zero]
    rfl
  | succ k ih =>
    rw [Function.iterate_succ_apply', ih, lineNext]
    dsimp only
    rw [lineAxis_axisAt, lineAxis_axisAt, UInt16.ofNat_add]
    rfl

/-- The longer of the two distances, as the code picks it. -/
theorem distance_eq (p q : Dot) :
    (if |(q.1.toNat : ℤ) - p.1.toNat| > |(q.2.toNat : ℤ) - p.2.toNat| then
        |(q.1.toNat : ℤ) - p.1.toNat| else |(q.2.toNat : ℤ) - p.2.toNat|) =
      (lineDistance p q : ℤ) := by
  rw [← natCast_apart, ← natCast_apart, lineDistance]
  split
  · omega
  · omega

/-- `LCD_DrawLine` as a loop over integers. -/
theorem lcdDrawLine_eq (p q : Dot) :
    lcdDrawLine p.1 p.2 q.1 q.2 =
      forLoop (lineNext (lineDistance p q) |(q.1.toNat : ℤ) - p.1.toNat|
          |(q.2.toNat : ℤ) - p.2.toNat| (lineInc ((q.1.toNat : ℤ) - p.1.toNat))
          (lineInc ((q.2.toNat : ℤ) - p.2.toNat)))
        (fun s => decide ((s.t.toNat : ℤ) ≤ lineDistance p q + 1))
        (fun s => some [dotAt s.uRow s.uCol]) fuelU16
        { t := 0, xerr := 0, yerr := 0, uRow := p.1.toNat, uCol := p.2.toNat } := by
  rw [lcdDrawLine]
  rw [lineDelta_eq_abs, lineDelta_eq_abs, distance_eq]

/-- A counter that can pass the distance ends the loop after `distance + 2` rounds. -/
theorem lcdDrawLine_eq_some {p q : Dot} (h : lineDistance p q ≤ 65533) :
    lcdDrawLine p.1 p.2 q.1 q.2 =
      some ((List.range (lineDistance p q + 2)).map (lineDot p q)) := by
  have ht : ∀ k ≤ lineDistance p q + 2, (UInt16.ofNat k).toNat = k := by
    intro k hk
    exact UInt16.toNat_ofNat_of_lt' (show _ < 65536 by omega)
  rw [lcdDrawLine_eq, List.map_eq_flatMap]
  apply forLoop_eq_some
  · intro k hk
    rw [lineNext_iterate, decide_eq_true_eq]
    dsimp only
    rw [ht k hk.le]
    omega
  · rw [lineNext_iterate, decide_eq_false_iff_not]
    dsimp only
    rw [ht _ le_rfl]
    omega
  · intro k _
    rw [lineNext_iterate]
    rfl
  · rw [fuelU16]
    omega

/-- A distance the 16-bit counter cannot pass never ends the loop. -/
theorem lcdDrawLine_eq_none {p q : Dot} (h : 65533 < lineDistance p q) :
    lcdDrawLine p.1 p.2 q.1 q.2 = none := by
  rw [lcdDrawLine_eq]
  refine forLoop_eq_none fun k _ => ?_
  rw [decide_eq_true_eq, lineNext_iterate]
  dsimp only
  have ht := (UInt16.ofNat k).toNat_lt
  omega

/-! ## The points -/

/-- A value in the range of a coordinate is stored as it is. -/
theorem toNat_ofInt_u16 {z : ℤ} (hnonneg : 0 ≤ z) (hlt : z < 65536) :
    ((UInt16.ofInt z).toNat : ℤ) = z := by
  rw [UInt16.ofInt, UInt16.toNat_ofNat']
  omega

section Points

variable {p q : Dot} {k : ℕ}

/-- The longer axis is as long as the columns. -/
theorem abs_sub_le_lineDistance_fst (p q : Dot) :
    |(q.1.toNat : ℤ) - p.1.toNat| ≤ lineDistance p q := by
  rw [← natCast_apart, lineDistance]
  omega

/-- And as long as the rows. -/
theorem abs_sub_le_lineDistance_snd (p q : Dot) :
    |(q.2.toNat : ℤ) - p.2.toNat| ≤ lineDistance p q := by
  rw [← natCast_apart, lineDistance]
  omega

/-- The coordinates of a point of the line fit in 16 bits. -/
theorem lineDot_coords (hk : k < lineDistance p q + 2) :
    ((lineDot p q k).1.toNat : ℤ) = axisAt (lineDistance p q) p.1.toNat q.1.toNat k ∧
      ((lineDot p q k).2.toNat : ℤ) = axisAt (lineDistance p q) p.2.toNat q.2.toNat k := by
  have hx := axisAt_between (abs_sub_le_lineDistance_fst p q) rfl (Nat.le_of_lt_succ hk)
  have hy := axisAt_between (abs_sub_le_lineDistance_snd p q) rfl (Nat.le_of_lt_succ hk)
  have := p.1.toNat_lt
  have := p.2.toNat_lt
  have := q.1.toNat_lt
  have := q.2.toNat_lt
  exact ⟨toNat_ofInt_u16 (by omega) (by omega), toNat_ofInt_u16 (by omega) (by omega)⟩

/-- The first dot is the first end. -/
theorem lineDot_zero : lineDot p q 0 = p := by
  have h := lineDot_coords (p := p) (q := q) (k := 0) (by omega)
  rw [axisAt_zero, axisAt_zero] at h
  exact Prod.ext (UInt16.toNat_inj.mp (by exact_mod_cast h.1))
    (UInt16.toNat_inj.mp (by exact_mod_cast h.2))

/-- The last dot is the other end. -/
theorem lineDot_last : lineDot p q (lineDistance p q + 1) = q := by
  have h := lineDot_coords (p := p) (q := q) (k := lineDistance p q + 1) (by omega)
  rw [axisAt_last (abs_sub_le_lineDistance_fst p q) rfl,
    axisAt_last (abs_sub_le_lineDistance_snd p q) rfl] at h
  exact Prod.ext (UInt16.toNat_inj.mp (by exact_mod_cast h.1))
    (UInt16.toNat_inj.mp (by exact_mod_cast h.2))

/-- Every dot is in the box of the ends. -/
theorem lineDot_between (hk : k < lineDistance p q + 2) :
    Between p.1 q.1 (lineDot p q k).1 ∧ Between p.2 q.2 (lineDot p q k).2 := by
  have hx := axisAt_between (abs_sub_le_lineDistance_fst p q) rfl (Nat.le_of_lt_succ hk)
  have hy := axisAt_between (abs_sub_le_lineDistance_snd p q) rfl (Nat.le_of_lt_succ hk)
  rw [← (lineDot_coords hk).1] at hx
  rw [← (lineDot_coords hk).2] at hy
  exact ⟨by rw [Between]; omega, by rw [Between]; omega⟩

theorem lineDot_step (hk : k + 1 < lineDistance p q + 2) :
    apart (lineDot p q k).1 (lineDot p q (k + 1)).1 ≤ 1 ∧
      apart (lineDot p q k).2 (lineDot p q (k + 1)).2 ≤ 1 := by
  have hcur := lineDot_coords (Nat.lt_of_succ_lt hk)
  have hnext := lineDot_coords hk
  have hx := axisAt_step (lineDistance p q) p.1.toNat q.1.toNat k
  have hy := axisAt_step (lineDistance p q) p.2.toNat q.2.toNat k
  rw [← hcur.1, ← hnext.1, ← natCast_apart] at hx
  rw [← hcur.2, ← hnext.2, ← natCast_apart] at hy
  exact ⟨by exact_mod_cast hx, by exact_mod_cast hy⟩

end Points

/-- Off the ideal line by less than a pixel, from the integer form of it. -/
theorem abs_sub_ideal_lt {u u₁ u₂ v v₁ v₂ : ℤ} (hpos : 0 < |u₂ - u₁|)
    (hcross : |(v - v₁) * (u₂ - u₁) - (v₂ - v₁) * (u - u₁)| < |u₂ - u₁|) :
    |(v : ℚ) - (v₁ + (v₂ - v₁) * (u - u₁) / (u₂ - u₁))| < 1 := by
  have hne : (u₂ : ℚ) - u₁ ≠ 0 := by
    intro hzero
    have : u₂ - u₁ = 0 := by exact_mod_cast hzero
    rw [this, abs_zero] at hpos
    exact lt_irrefl _ hpos
  have hquot : (v : ℚ) - (v₁ + (v₂ - v₁) * (u - u₁) / (u₂ - u₁)) =
      ((v - v₁) * (u₂ - u₁) - (v₂ - v₁) * (u - u₁)) / (u₂ - u₁) := by
    field_simp
    ring
  rw [hquot, abs_div, div_lt_one (abs_pos.mpr hne)]
  exact_mod_cast hcross

/-- A line over an axis on which its ends are farthest apart. -/
theorem along_lineDot {p q : Dot} {along across : Dot → UInt16}
    (halong : ∀ k < lineDistance p q + 2, ((along (lineDot p q k)).toNat : ℤ) =
      axisAt (lineDistance p q) (along p).toNat (along q).toNat k)
    (hacross : ∀ k < lineDistance p q + 2, ((across (lineDot p q k)).toNat : ℤ) =
      axisAt (lineDistance p q) (across p).toNat (across q).toNat k)
    (hlonger : apart (along p) (along q) = lineDistance p q)
    (hshorter : apart (across p) (across q) ≤ lineDistance p q) :
    Along along across p q ((List.range (lineDistance p q + 2)).map (lineDot p q)) where
  visits := by
    intro c hc
    have hdist : |((along q).toNat : ℤ) - (along p).toNat| = lineDistance p q := by
      rw [← natCast_apart, hlonger]
    rw [Between] at hc
    obtain ⟨k, hk, hat⟩ := exists_axisAt_eq hdist (c := c.toNat) (by omega) (by omega)
    have hk' : k < lineDistance p q + 2 := by omega
    rw [← halong k hk'] at hat
    exact ⟨lineDot p q k, List.mem_map_of_mem (List.mem_range.mpr hk'),
      UInt16.toNat_inj.mp (by exact_mod_cast hat)⟩
  near := by
    intro dot hdot
    obtain ⟨k, hk, rfl⟩ := List.mem_map.mp hdot
    have hk' := List.mem_range.mp hk
    have hdist : |((along q).toNat : ℤ) - (along p).toNat| = lineDistance p q := by
      rw [← natCast_apart, hlonger]
    have hle : |((across q).toNat : ℤ) - (across p).toNat| ≤ lineDistance p q := by
      rw [← natCast_apart]
      exact_mod_cast hshorter
    rw [idealAt]
    -- the ideal line of a single point has no slope, so that case is apart
    rcases Nat.eq_zero_or_pos (lineDistance p q) with hzero | hpos
    · -- a single point: neither coordinate moves
      rw [hzero] at hdist hle
      have hsame := abs_nonpos_iff.mp hle
      have hat := hacross k hk'
      rw [axisAt, hsame, lineInc, if_neg (lt_irrefl _), if_pos rfl, zero_mul, add_zero] at hat
      have hstart : (across (lineDot p q k)).toNat = (across p).toNat := by exact_mod_cast hat
      have hend : (across q).toNat = (across p).toNat := by omega
      rw [hstart, hend]
      simp
    · have hlt := abs_cross_lt hdist (by exact_mod_cast hpos) hle k
      rw [← halong k hk', ← hacross k hk', ← hdist] at hlt
      have hgoal := abs_sub_ideal_lt (by rw [hdist]; exact_mod_cast hpos) hlt
      exact_mod_cast hgoal

/-- Lines of up to 65533 pixels: the loop ends, and its points are a line from the one end to the
other. -/
theorem lcdDrawLine_isLine (x1 y1 x2 y2 : UInt16)
    (h : max (apart x1 x2) (apart y1 y2) ≤ 65533) :
    ∃ dots, lcdDrawLine x1 y1 x2 y2 = some dots ∧ IsLine (x1, y1) (x2, y2) dots := by
  have hrun := lcdDrawLine_eq_some (p := (x1, y1)) (q := (x2, y2)) h
  refine ⟨_, hrun, ?_⟩
  generalize hp : ((x1, y1) : Dot) = p
  generalize hq : ((x2, y2) : Dot) = q
  constructor
  · rw [List.head?_map, List.head?_range, if_neg (by omega), Option.map_some, lineDot_zero]
  · rw [List.getLast?_map, List.getLast?_range, if_neg (by omega), Option.map_some]
    exact congrArg some lineDot_last
  · intro dot hdot
    obtain ⟨k, hk, rfl⟩ := List.mem_map.mp hdot
    exact lineDot_between (List.mem_range.mp hk)
  · rw [List.isChain_map, List.isChain_range_succ]
    intro k hk
    exact lineDot_step (by omega)
  · intro hle
    apply along_lineDot (fun k hk => (lineDot_coords hk).1) (fun k hk => (lineDot_coords hk).2)
    · rw [lineDistance, max_eq_left hle]
    · exact le_max_right _ _
  · intro hle
    apply along_lineDot (fun k hk => (lineDot_coords hk).2) (fun k hk => (lineDot_coords hk).1)
    · rw [lineDistance, max_eq_right hle]
    · exact le_max_left _ _

/-- The longest line the panels take: corner to corner of 480 by 800 pixels. -/
theorem lcdDrawLine_isLine_diagonal :
    max (apart 0 479) (apart 799 0) ≤ 65533 ∧
      ∃ dots, lcdDrawLine 0 799 479 0 = some dots ∧ IsLine (0, 799) (479, 0) dots :=
  ⟨by decide, lcdDrawLine_isLine 0 799 479 0 (by decide)⟩

end Stm32Board.Lcd
