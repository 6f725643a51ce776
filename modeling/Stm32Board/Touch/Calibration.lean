import Stm32Board.Touch.Adjust
import Mathlib.Data.Fin.VecNotation
import Mathlib.Data.Nat.Sqrt
import Mathlib.Tactic.FieldSimp
import Mathlib.Tactic.Push

/-!
# What an accepted calibration guarantees

The comparisons of `TP_Adjust` over the integers: a pair of distances passes when the ratio is in
`[0.95, 1.05]`, and, where a zero is not checked for, also when both are zero. The factors pass when
their truncated magnitudes are at most two. `calibrationSound_iff` says for which points and which
screen this is what the calibration is supposed to check.
-/

namespace Stm32Board.Touch

open Common Lcd

/-! ## Distances -/

/-- A point of the 12-bit converter. -/
def AdcRange (p : Point) : Prop := p.1.toNat ≤ 4095 ∧ p.2.toNat ≤ 4095

/-- The mathematical distance, rounded down. -/
def pointDist (p q : Point) : ℕ :=
  Nat.sqrt (((p.1.toNat : ℤ) - q.1.toNat).natAbs ^ 2 + ((p.2.toNat : ℤ) - q.2.toNat).natAbs ^ 2)

/-- The difference fits 32 bits. -/
theorem absDiff_toNat (a b : UInt16) : (absDiff a b).toNat = ((a.toNat : ℤ) - b.toNat).natAbs := by
  have ha := a.toNat_lt
  have hb := b.toNat_lt
  rw [absDiff, UInt32.toNat_ofNat']
  exact Nat.mod_eq_of_lt (by omega)

/-- Inside the range of the converter nothing overflows. -/
theorem tpDistance_toNat {p q : Point} (hp : AdcRange p) (hq : AdcRange q) :
    (tpDistance p q).toNat = pointDist p q := by
  obtain ⟨hpx, hpy⟩ := hp
  obtain ⟨hqx, hqy⟩ := hq
  have hx : ((p.1.toNat : ℤ) - q.1.toNat).natAbs ≤ 4095 := by omega
  have hy : ((p.2.toNat : ℤ) - q.2.toNat).natAbs ≤ 4095 := by omega
  have hx2 := Nat.pow_le_pow_left hx 2
  have hy2 := Nat.pow_le_pow_left hy 2
  have hsum : (absDiff p.1 q.1 * absDiff p.1 q.1 + absDiff p.2 q.2 * absDiff p.2 q.2).toNat =
      ((p.1.toNat : ℤ) - q.1.toNat).natAbs ^ 2 + ((p.2.toNat : ℤ) - q.2.toNat).natAbs ^ 2 := by
    rw [UInt32.toNat_add, UInt32.toNat_mul, UInt32.toNat_mul, absDiff_toNat, absDiff_toNat,
      ← Nat.pow_two, ← Nat.pow_two]
    omega
  have hroot : Nat.sqrt (((p.1.toNat : ℤ) - q.1.toNat).natAbs ^ 2 +
      ((p.2.toNat : ℤ) - q.2.toNat).natAbs ^ 2) < 2 ^ 16 := by
    rw [Nat.sqrt_lt']
    omega
  rw [tpDistance, UInt16.toNat_ofNat', hsum, Nat.mod_eq_of_lt hroot, pointDist]

/-- Only equal points have no distance. -/
theorem pointDist_eq_zero {p q : Point} : pointDist p q = 0 ↔ p = q := by
  rw [pointDist, Nat.sqrt_eq_zero, Prod.ext_iff, ← UInt16.toNat_inj, ← UInt16.toNat_inj,
    Nat.add_eq_zero_iff, pow_eq_zero_iff two_ne_zero, pow_eq_zero_iff two_ne_zero]
  omega

theorem pointDist_pos_iff {p q : Point} : 0 < pointDist p q ↔ p ≠ q := by
  rw [Nat.pos_iff_ne_zero, ne_eq, pointDist_eq_zero]

/-- It is the same both ways. -/
theorem pointDist_comm (p q : Point) : pointDist p q = pointDist q p := by
  rw [pointDist, pointDist, ← Int.natAbs_neg, neg_sub, ← Int.natAbs_neg ((p.2.toNat : ℤ) - _),
    neg_sub]

/-! ## Ratios -/

/-- Two distances are non-zero and their ratio is in `[0.95, 1.05]`. -/
structure RatioFits (a b : ℕ) : Prop where
  left_pos : 0 < a
  right_pos : 0 < b
  lower : 95 * b ≤ 100 * a
  upper : 100 * a ≤ 105 * b

theorem RatioFits.self {a : ℕ} (h : 0 < a) : RatioFits a a := ⟨h, h, by omega, by omega⟩

/-- The comparison of the ratio, with the division. -/
theorem ratioFits_iff_div {a b : ℕ} (hb : 0 < b) (ha : 0 < a) :
    RatioFits a b ↔ (95 / 100 : ℚ) ≤ a / b ∧ (a / b : ℚ) ≤ 105 / 100 := by
  have hb' : (0 : ℚ) < b := by exact_mod_cast hb
  rw [le_div_iff₀ hb', div_le_iff₀ hb']
  constructor
  · rintro ⟨-, -, hlo, hhi⟩
    have hlo' : (95 * b : ℚ) ≤ 100 * a := by exact_mod_cast hlo
    have hhi' : (100 * a : ℚ) ≤ 105 * b := by exact_mod_cast hhi
    constructor <;> linarith
  · rintro ⟨hlo, hhi⟩
    have hlo' : (95 * b : ℚ) ≤ 100 * a := by linarith
    have hhi' : (100 * a : ℚ) ≤ 105 * b := by linarith
    exact ⟨ha, hb, by exact_mod_cast hlo', by exact_mod_cast hhi'⟩

/-- The comparison passes for fitting distances, and for two zeros. -/
theorem not_unfitRatio_iff (d1 d2 : UInt16) :
    ¬UnfitRatio (distanceRatio d1 d2) ↔
      (d1.toNat = 0 ∧ d2.toNat = 0) ∨ RatioFits d1.toNat d2.toNat := by
  rw [UnfitRatio, distanceRatio, ExactFloat.ofInt, ExactFloat.ofInt]
  push_cast
  rcases Nat.eq_zero_or_pos d2.toNat with h2 | h2
  · rcases Nat.eq_zero_or_pos d1.toNat with h1 | h1
    · rw [h1, h2, Nat.cast_zero, ExactFloat.zero_div_zero]
      simp [ExactFloat.lt]
    · have h1' : (0 : ℚ) < d1.toNat := by exact_mod_cast h1
      rw [h2, Nat.cast_zero, ExactFloat.div_zero_of_pos h1']
      refine iff_of_false (by simp [ExactFloat.lt]) ?_
      rintro (⟨h, -⟩ | h)
      · omega
      · exact absurd h.right_pos (lt_irrefl 0)
  · have h2' : (0 : ℚ) < d2.toNat := by exact_mod_cast h2
    rw [ExactFloat.div_fin h2'.ne']
    simp only [ExactFloat.lt, decide_eq_true_eq, not_or, not_lt]
    rcases Nat.eq_zero_or_pos d1.toNat with h1 | h1
    · rw [h1, Nat.cast_zero, zero_div]
      refine iff_of_false (by norm_num) ?_
      rintro (⟨-, h⟩ | h)
      · omega
      · exact absurd h.left_pos (lt_irrefl 0)
    · rw [ratioFits_iff_div h2 h1]
      exact (or_iff_right fun h => by omega).symm

/-! ## The three comparisons -/

/-- Every compared pair of distances fits: sides 1-2 and 3-4, sides 1-3 and 2-4, the diagonals. -/
structure RegularPoints (pos : Fin 4 → Point) : Prop where
  rows : RatioFits (pointDist (pos 0) (pos 1)) (pointDist (pos 2) (pos 3))
  columns : RatioFits (pointDist (pos 0) (pos 2)) (pointDist (pos 1) (pos 3))
  diagonals : RatioFits (pointDist (pos 1) (pos 2)) (pointDist (pos 0) (pos 3))

/-- Two different points touched twice each, so that a pair that is not checked for zeros
collapses. -/
def DegeneratePoints (pos : Fin 4 → Point) : Prop :=
  pos 0 ≠ pos 1 ∧ ((pos 0 = pos 2 ∧ pos 1 = pos 3) ∨ (pos 1 = pos 2 ∧ pos 0 = pos 3))

/-- The comparisons, of which only the first rejects two zero distances. -/
private theorem tpAdjustVerdict_ne_unfit_iff_ratios (scr : Screen) {pos : Fin 4 → Point}
    (hpos : ∀ i, AdcRange (pos i)) (touchtype : UInt8) :
    tpAdjustVerdict scr pos touchtype ≠ .unfit ↔
      RatioFits (pointDist (pos 0) (pos 1)) (pointDist (pos 2) (pos 3)) ∧
      ((pos 0 = pos 2 ∧ pos 1 = pos 3) ∨
        RatioFits (pointDist (pos 0) (pos 2)) (pointDist (pos 1) (pos 3))) ∧
      ((pos 1 = pos 2 ∧ pos 0 = pos 3) ∨
        RatioFits (pointDist (pos 1) (pos 2)) (pointDist (pos 0) (pos 3))) := by
  have hdist : ∀ i j, (tpDistance (pos i) (pos j)).toNat = pointDist (pos i) (pos j) :=
    fun i j => tpDistance_toNat (hpos i) (hpos j)
  have hpass : ∀ i j k l,
      ¬UnfitRatio (distanceRatio (tpDistance (pos i) (pos j)) (tpDistance (pos k) (pos l))) ↔
        (pos i = pos j ∧ pos k = pos l) ∨
          RatioFits (pointDist (pos i) (pos j)) (pointDist (pos k) (pos l)) := by
    intro i j k l
    rw [not_unfitRatio_iff, hdist, hdist, pointDist_eq_zero, pointDist_eq_zero]
  -- only the first comparison also looks for zeros
  have hfirst : ¬(UnfitRatio (distanceRatio (tpDistance (pos 0) (pos 1))
      (tpDistance (pos 2) (pos 3))) ∨ tpDistance (pos 0) (pos 1) = 0 ∨
        tpDistance (pos 2) (pos 3) = 0) ↔
      RatioFits (pointDist (pos 0) (pos 1)) (pointDist (pos 2) (pos 3)) := by
    rw [not_or, not_or, hpass, ← UInt16.toNat_inj, ← UInt16.toNat_inj, hdist, hdist]
    constructor
    · rintro ⟨⟨h, -⟩ | h, hne, -⟩
      · exact absurd (pointDist_eq_zero.mpr h) hne
      · exact h
    · intro h
      exact ⟨.inr h, h.left_pos.ne', h.right_pos.ne'⟩
  rw [← hfirst, ← hpass, ← hpass, tpAdjustVerdict]
  dsimp only
  split_ifs <;> simp [*]

/-- Four corners of a rectangle, in the order they are asked for, are regular. -/
theorem regularPoints_rectangle {x₀ x₁ y₀ y₁ : UInt16} (hx : x₀ ≠ x₁) (hy : y₀ ≠ y₁) :
    RegularPoints ![(x₀, y₀), (x₁, y₀), (x₀, y₁), (x₁, y₁)] := by
  have hxy : (x₁, y₀) ≠ (x₀, y₁) := fun h => hy (Prod.mk.inj h).2
  have hdiag : pointDist (x₀, y₀) (x₁, y₁) = pointDist (x₁, y₀) (x₀, y₁) := by
    rw [pointDist, pointDist, ← Int.natAbs_neg, neg_sub]
  have hrow : pointDist (x₀, y₁) (x₁, y₁) = pointDist (x₀, y₀) (x₁, y₀) := by
    simp [pointDist]
  have hcolumn : pointDist (x₁, y₀) (x₁, y₁) = pointDist (x₀, y₀) (x₀, y₁) := by
    simp [pointDist]
  refine ⟨?_, ?_, ?_⟩
  · show RatioFits (pointDist (x₀, y₀) (x₁, y₀)) (pointDist (x₀, y₁) (x₁, y₁))
    rw [hrow]
    exact RatioFits.self (pointDist_pos_iff.mpr fun h => hx (Prod.mk.inj h).1)
  · show RatioFits (pointDist (x₀, y₀) (x₀, y₁)) (pointDist (x₁, y₀) (x₁, y₁))
    rw [hcolumn]
    exact RatioFits.self (pointDist_pos_iff.mpr fun h => hy (Prod.mk.inj h).2)
  · show RatioFits (pointDist (x₁, y₀) (x₀, y₁)) (pointDist (x₀, y₀) (x₁, y₁))
    rw [hdiag]
    exact RatioFits.self (pointDist_pos_iff.mpr hxy)

/-- The computation of the factors is reached from regular points and from degenerate ones. -/
theorem tpAdjustVerdict_ne_unfit_iff (scr : Screen) {pos : Fin 4 → Point}
    (hpos : ∀ i, AdcRange (pos i)) (touchtype : UInt8) :
    tpAdjustVerdict scr pos touchtype ≠ .unfit ↔ RegularPoints pos ∨ DegeneratePoints pos := by
  rw [tpAdjustVerdict_ne_unfit_iff_ratios scr hpos]
  constructor
  · rintro ⟨hrows, hcols | hcols, hdiag | hdiag⟩
    · exact absurd (hcols.1.trans hdiag.1.symm) (pointDist_pos_iff.mp hrows.left_pos)
    · exact .inr ⟨pointDist_pos_iff.mp hrows.left_pos, .inl hcols⟩
    · exact .inr ⟨pointDist_pos_iff.mp hrows.left_pos, .inr hdiag⟩
    · exact .inl ⟨hrows, hcols, hdiag⟩
  · rintro (h | ⟨hne, ⟨h02, h13⟩ | ⟨h12, h03⟩⟩)
    · exact ⟨h.rows, .inr h.columns, .inr h.diagonals⟩
    · have hpos' := pointDist_pos_iff.mpr hne
      refine ⟨?_, .inl ⟨h02, h13⟩, .inr ?_⟩
      · rw [← h02, ← h13]
        exact RatioFits.self hpos'
      · rw [← h02, ← h13, pointDist_comm]
        exact RatioFits.self hpos'
    · have hpos' := pointDist_pos_iff.mpr hne
      refine ⟨?_, .inr ?_, .inl ⟨h12, h03⟩⟩
      · rw [← h12, ← h03, pointDist_comm (pos 1)]
        exact RatioFits.self hpos'
      · rw [← h12, ← h03, pointDist_comm (pos 1)]
        exact RatioFits.self hpos'

/-! ## The factors -/

/-- `fac` of an axis as a rational number. -/
def axisFac (size lo hi : UInt16) : ℚ := ((size.toNat : ℚ) - 40) / ((hi.toNat : ℚ) - lo.toNat)

/-- Over different readings the factor is a number. -/
theorem tpFac_of_ne (size : UInt16) {lo hi : UInt16} (h : hi ≠ lo) :
    tpFac size lo hi = .fin (axisFac size lo hi) := by
  have hne : ((hi.toNat : ℤ) - lo.toNat : ℚ) ≠ 0 := by
    rw [sub_ne_zero]
    exact_mod_cast fun he => h (UInt16.toNat_inj.mp he)
  rw [tpFac, ExactFloat.ofInt, ExactFloat.ofInt]
  push_cast at hne ⊢
  rw [ExactFloat.div_fin hne, axisFac]

/-- Equal readings make the factor infinite. -/
theorem tpFac_self {size : UInt16} (hsize : 40 < size.toNat) (lo : UInt16) :
    tpFac size lo lo = .inf false := by
  have hpos : (0 : ℚ) < (size.toNat : ℚ) - 40 := by
    have : (40 : ℚ) < size.toNat := by exact_mod_cast hsize
    linarith
  rw [tpFac, ExactFloat.ofInt, ExactFloat.ofInt, sub_self]
  push_cast
  exact ExactFloat.div_zero_of_pos hpos

/-- The span of the readings of an axis. -/
def readingSpan (lo hi : UInt16) : ℕ := ((hi.toNat : ℤ) - lo.toNat).natAbs

theorem readingSpan_pos_iff {lo hi : UInt16} : 0 < readingSpan lo hi ↔ hi ≠ lo := by
  rw [readingSpan, Int.natAbs_pos, sub_ne_zero, ne_eq, ne_eq, Nat.cast_inj, UInt16.toNat_inj]

/-- The size of a factor: the span of the targets over that of the readings. -/
theorem abs_axisFac {size : UInt16} (hsize : 40 < size.toNat) (lo hi : UInt16) :
    |axisFac size lo hi| = ((size.toNat - 40 : ℕ) : ℚ) / readingSpan lo hi := by
  have hspan : |(hi.toNat : ℚ) - lo.toNat| = readingSpan lo hi := by
    rw [readingSpan, Nat.cast_natAbs]
    push_cast
    rfl
  have hnum : |(size.toNat : ℚ) - 40| = ((size.toNat - 40 : ℕ) : ℚ) := by
    rw [Nat.cast_sub hsize.le]
    push_cast
    refine abs_of_pos ?_
    have : (40 : ℚ) < size.toNat := by exact_mod_cast hsize
    linarith
  rw [axisFac, abs_div, hspan, hnum]

/-- A factor below a bound, without the division. -/
theorem abs_axisFac_lt_iff {size lo hi : UInt16} (hsize : 40 < size.toNat) (h : hi ≠ lo) (n : ℕ) :
    |axisFac size lo hi| < n ↔ size.toNat - 40 < n * readingSpan lo hi := by
  have hspan : (0 : ℚ) < readingSpan lo hi := by exact_mod_cast readingSpan_pos_iff.mpr h
  rw [abs_axisFac hsize, div_lt_iff₀ hspan]
  exact_mod_cast Iff.rfl

/-- A factor up to a bound, without the division. -/
theorem abs_axisFac_le_iff {size lo hi : UInt16} (hsize : 40 < size.toNat) (h : hi ≠ lo) (n : ℕ) :
    |axisFac size lo hi| ≤ n ↔ size.toNat - 40 ≤ n * readingSpan lo hi := by
  have hspan : (0 : ℚ) < readingSpan lo hi := by exact_mod_cast readingSpan_pos_iff.mpr h
  rw [abs_axisFac hsize, div_le_iff₀ hspan]
  exact_mod_cast Iff.rfl

/-- A factor passes when the readings differ and its magnitude is below three, not two. -/
theorem not_intAbs_tpFac_gt_iff {size : UInt16} (hsize : 40 < size.toNat) (hsize' : size.toNat ≤ 800)
    (lo hi : UInt16) :
    ¬intAbs (tpFac size lo hi).toInt32 > 2 ↔ size.toNat - 40 < 3 * readingSpan lo hi := by
  -- the conversion truncates, so every magnitude below three passes as two
  rcases eq_or_ne hi lo with rfl | hne
  · rw [tpFac_self hsize]
    refine iff_of_false (by decide) ?_
    have hspan : readingSpan hi hi = 0 := by simp [readingSpan]
    omega
  · have hbound : |axisFac size lo hi| < 2147483648 := by
      have hspan := readingSpan_pos_iff.mpr hne
      exact_mod_cast (abs_axisFac_lt_iff hsize hne 2147483648).mpr (by omega)
    have hsmall := (abs_axisFac_lt_iff hsize hne 3).symm
    have hint := abs_trunc_le_iff (axisFac size lo hi) 2
    have hmin : trunc (axisFac size lo hi) ≠ -2147483648 := by
      have hle := (abs_trunc_le_iff (axisFac size lo hi) 2147483647).mpr
        (by norm_num; exact hbound)
      rw [abs_le] at hle
      omega
    rw [tpFac_of_ne size hne, ExactFloat.toInt32_fin hbound, intAbs, if_neg hmin, gt_iff_lt, not_lt,
      hsmall]
    rw [show (2 : ℤ) = ((2 : ℕ) : ℤ) from rfl, hint]
    norm_num

/-! ## The guarantee -/

/-- A factor is finite and of magnitude at most two. -/
def AtMostTwo (fac : ExactFloat) : Prop := ∃ q, fac = .fin q ∧ |q| ≤ 2

/-- What the calibration is to guarantee of four points: it computes factors only from regular
points, and saves only what has non-zero divisors and factors of at most two. -/
structure CalibrationSound (scr : Screen) (pos : Fin 4 → Point) (touchtype : UInt8) : Prop where
  regular : tpAdjustVerdict scr pos touchtype ≠ .unfit → RegularPoints pos
  divisors : ∀ adj, tpAdjustVerdict scr pos touchtype = .accepted adj →
    (pos 1).1 ≠ (pos 0).1 ∧ (pos 2).2 ≠ (pos 0).2
  factors : ∀ adj, tpAdjustVerdict scr pos touchtype = .accepted adj →
    AtMostTwo adj.xfac ∧ AtMostTwo adj.yfac

/-- The readings span so little of both axes that a factor is between two and three, and not so
little that one is three or more. -/
def LooseFactors (scr : Screen) (pos : Fin 4 → Point) : Prop :=
  scr.width.toNat - 40 < 3 * readingSpan (pos 0).1 (pos 1).1 ∧
  scr.height.toNat - 40 < 3 * readingSpan (pos 0).2 (pos 2).2 ∧
  (2 * readingSpan (pos 0).1 (pos 1).1 < scr.width.toNat - 40 ∨
    2 * readingSpan (pos 0).2 (pos 2).2 < scr.height.toNat - 40)

/-- The check truncates the factors, so it lets all of them pass that are below three. -/
theorem not_factorsTooLarge_iff (scr : Screen) (pos : Fin 4 → Point) (touchtype : UInt8) :
    ¬FactorsTooLarge (tpAdjustParams scr pos touchtype) ↔
      scr.width.toNat - 40 < 3 * readingSpan (pos 0).1 (pos 1).1 ∧
      scr.height.toNat - 40 < 3 * readingSpan (pos 0).2 (pos 2).2 := by
  rw [FactorsTooLarge, not_or]
  exact and_congr (not_intAbs_tpFac_gt_iff scr.width_gt scr.width_le _ _)
    (not_intAbs_tpFac_gt_iff scr.height_gt scr.height_le _ _)

/-- What the check is for: factors of two at most. -/
theorem atMostTwo_tpFac_iff {size lo hi : UInt16} (hsize : 40 < size.toNat) (h : hi ≠ lo) :
    AtMostTwo (tpFac size lo hi) ↔ size.toNat - 40 ≤ 2 * readingSpan lo hi := by
  rw [AtMostTwo, tpFac_of_ne size h, ← abs_axisFac_le_iff hsize h 2]
  constructor
  · rintro ⟨q, hq, hle⟩
    obtain rfl := ExactFloat.fin.inj hq
    exact_mod_cast hle
  · intro hle
    exact ⟨_, rfl, by exact_mod_cast hle⟩

/-- What is accepted has two different readings on both axes. -/
theorem accepted_divisors {scr : Screen} {pos : Fin 4 → Point} {touchtype : UInt8} {adj : AdjData}
    (h : tpAdjustVerdict scr pos touchtype = .accepted adj) :
    (pos 1).1 ≠ (pos 0).1 ∧ (pos 2).2 ≠ (pos 0).2 := by
  obtain ⟨-, hfac, -⟩ := (tpAdjustVerdict_eq_accepted_iff scr pos touchtype adj).mp h
  obtain ⟨hx, hy⟩ := (not_factorsTooLarge_iff scr pos touchtype).mp hfac
  exact ⟨readingSpan_pos_iff.mp (by omega), readingSpan_pos_iff.mp (by omega)⟩

/-- The calibration guarantees this of four points exactly when they are not two points touched
twice each, and are not regular points whose larger factor is between two and three. -/
theorem calibrationSound_iff (scr : Screen) {pos : Fin 4 → Point} (hpos : ∀ i, AdcRange (pos i))
    (touchtype : UInt8) :
    CalibrationSound scr pos touchtype ↔
      ¬DegeneratePoints pos ∧ ¬(RegularPoints pos ∧ LooseFactors scr pos) := by
  have hreach := tpAdjustVerdict_ne_unfit_iff scr hpos touchtype
  have hacc := tpAdjustVerdict_eq_accepted_iff scr pos touchtype
  -- degenerate points are accepted without a check, loose factors with one that truncates
  constructor
  · intro h
    refine ⟨fun hdeg => ?_, fun ⟨hreg, hx, hy, hloose⟩ => ?_⟩
    · have hreg := h.regular (hreach.mpr (.inr hdeg))
      obtain ⟨-, ⟨h02, -⟩ | ⟨h12, -⟩⟩ := hdeg
      · exact pointDist_pos_iff.mp hreg.columns.left_pos h02
      · exact pointDist_pos_iff.mp hreg.diagonals.left_pos h12
    · have hsaved := (hacc _).mpr ⟨hreach.mpr (.inl hreg),
        (not_factorsTooLarge_iff scr pos touchtype).mpr ⟨hx, hy⟩, rfl⟩
      obtain ⟨hnex, hney⟩ := h.divisors _ hsaved
      obtain ⟨hfx, hfy⟩ := h.factors _ hsaved
      have hx2 := (atMostTwo_tpFac_iff scr.width_gt hnex).mp hfx
      have hy2 := (atMostTwo_tpFac_iff scr.height_gt hney).mp hfy
      omega
  · rintro ⟨hdeg, hloose⟩
    have hreg : tpAdjustVerdict scr pos touchtype ≠ .unfit → RegularPoints pos :=
      fun h => (hreach.mp h).resolve_right hdeg
    refine ⟨hreg, fun adj h => accepted_divisors h, fun adj h => ?_⟩
    obtain ⟨hnex, hney⟩ := accepted_divisors h
    obtain ⟨hr, hfac, rfl⟩ := (hacc adj).mp h
    obtain ⟨hx, hy⟩ := (not_factorsTooLarge_iff scr pos touchtype).mp hfac
    have htwo : ¬(2 * readingSpan (pos 0).1 (pos 1).1 < scr.width.toNat - 40 ∨
        2 * readingSpan (pos 0).2 (pos 2).2 < scr.height.toNat - 40) :=
      fun h => hloose ⟨hreg hr, hx, hy, h⟩
    exact ⟨(atMostTwo_tpFac_iff scr.width_gt hnex).mpr (by omega),
      (atMostTwo_tpFac_iff scr.height_gt hney).mpr (by omega)⟩

/-- Four points near the corners of the panel. -/
def cornerPoints : Fin 4 → Point := ![(300, 300), (3800, 300), (300, 3800), (3800, 3800)]

/-- The corners of the panel, read without error. -/
theorem calibrationSound_cornerPoints : CalibrationSound portraitScreen cornerPoints 0 := by
  have hadc : ∀ i, AdcRange (cornerPoints i) := by
    unfold AdcRange
    decide
  exact (calibrationSound_iff portraitScreen hadc 0).mpr
    ⟨by unfold DegeneratePoints; decide, fun h => absurd h.2 (by unfold LooseFactors; decide)⟩

/-- Two points touched twice each. -/
def collapsedPoints : Fin 4 → Point := ![(1000, 1000), (1100, 1100), (1100, 1100), (1000, 1000)]

/-- A small square. -/
def smallSquare : Fin 4 → Point := ![(1000, 1000), (1100, 1000), (1000, 1100), (1100, 1100)]

/-- Both are saved: the first with two diagonals of length zero, the second with a factor of
`2.8`. -/
theorem not_calibrationSound :
    (tpAdjustVerdict portraitScreen collapsedPoints 0 =
        .accepted (tpAdjustParams portraitScreen collapsedPoints 0) ∧
      ¬CalibrationSound portraitScreen collapsedPoints 0) ∧
    tpAdjustVerdict portraitScreen smallSquare 0 =
        .accepted (tpAdjustParams portraitScreen smallSquare 0) ∧
      ¬CalibrationSound portraitScreen smallSquare 0 := by
  have hcollapsed : tpAdjustVerdict portraitScreen collapsedPoints 0 ≠ .unfit :=
    (tpAdjustVerdict_ne_unfit_iff portraitScreen (by unfold AdcRange; decide) 0).mpr
      (.inr (by unfold DegeneratePoints; decide))
  have hsquare : tpAdjustVerdict portraitScreen smallSquare 0 ≠ .unfit :=
    (tpAdjustVerdict_ne_unfit_iff portraitScreen (by unfold AdcRange; decide) 0).mpr
      (.inl (regularPoints_rectangle (by decide) (by decide)))
  have hsaved : tpAdjustVerdict portraitScreen smallSquare 0 =
      .accepted (tpAdjustParams portraitScreen smallSquare 0) :=
    (tpAdjustVerdict_eq_accepted_iff _ _ _ _).mpr
      ⟨hsquare, (not_factorsTooLarge_iff _ _ _).mpr (by decide), rfl⟩
  refine ⟨⟨(tpAdjustVerdict_eq_accepted_iff _ _ _ _).mpr
    ⟨hcollapsed, (not_factorsTooLarge_iff _ _ _).mpr (by decide), rfl⟩, fun h => ?_⟩,
    hsaved, fun h => ?_⟩
  · exact pointDist_pos_iff.mp (h.regular hcollapsed).diagonals.left_pos rfl
  · have hfac := (h.factors _ hsaved).2
    rw [tpAdjustParams, atMostTwo_tpFac_iff portraitScreen.height_gt (by decide)] at hfac
    exact absurd hfac (by decide)

end Stm32Board.Touch
