import Stm32Board.Touch.Calibration

/-!
# From the calibration to the scan

The factor and offset of one axis are computed by `TP_Adjust` with one truncation, and used by
`TP_Scan` with another. Without them, a reading `t` goes to `20 + (size - 40) * (t - lo) / (hi - lo)`;
each truncation moves it by less than one pixel.
-/

namespace Stm32Board.Touch

open Common Lcd

/-- `t` lies between the two calibrated readings, in either order. -/
def Between (lo hi t : UInt16) : Prop := (lo ≤ t ∧ t ≤ hi) ∨ (hi ≤ t ∧ t ≤ lo)

/-- An end is between the ends. -/
theorem between_left (lo hi : UInt16) : Between lo hi lo := by
  rcases UInt16.le_total lo hi with h | h
  · exact .inl ⟨UInt16.le_refl _, h⟩
  · exact .inr ⟨h, UInt16.le_refl _⟩

/-- So is the other one. -/
theorem between_right (lo hi : UInt16) : Between lo hi hi := by
  rcases UInt16.le_total lo hi with h | h
  · exact .inl ⟨h, UInt16.le_refl _⟩
  · exact .inr ⟨UInt16.le_refl _, h⟩

/-- `off` of an axis before truncation. -/
def axisOff (size lo hi : UInt16) : ℚ :=
  ((size.toNat : ℚ) - axisFac size lo hi * ((hi.toNat : ℚ) + lo.toNat)) / 2

/-- One axis of a calibration: the parameters, the conversion they give, and no overflow on the way
of 16-bit results. -/
structure AxisCalibrated (size lo hi : UInt16) (fac : ExactFloat) (off : Int16)
    (conv : UInt16 → UInt16) : Prop where
  fac_eq : fac = .fin (axisFac size lo hi)
  off_eq : off.toInt = trunc (axisOff size lo hi)
  conv_eq : ∀ t, Between lo hi t →
    ((conv t).toNat : ℤ) = trunc (axisFac size lo hi * t.toNat + off.toInt)
  conv_lo : |((conv lo).toNat : ℤ) - 20| ≤ 1
  conv_hi : |((conv hi).toNat : ℤ) - (size.toNat - 20)| ≤ 1
  inside : ∀ t, Between lo hi t → (conv t).toNat < size.toNat
  increasing : (ExactFloat.fin 0).lt fac → ∀ t t', Between lo hi t → Between lo hi t' →
    t ≤ t' → conv t ≤ conv t'
  decreasing : fac.lt (.fin 0) → ∀ t t', Between lo hi t → Between lo hi t' →
    t ≤ t' → conv t' ≤ conv t
  fac_sign : (ExactFloat.fin 0).lt fac ∨ fac.lt (.fin 0)

section Axis

variable {size lo hi : UInt16}

/-- Different readings differ as numbers. -/
theorem axis_sub_ne_zero (h : hi ≠ lo) : (hi.toNat : ℚ) - lo.toNat ≠ 0 := by
  rw [sub_ne_zero]
  exact_mod_cast fun he => h (UInt16.toNat_inj.mp he)

/-- The conversion with the exact offset maps the readings linearly onto the targets. -/
theorem axis_exact (h : hi ≠ lo) (t : ℚ) :
    axisFac size lo hi * t + axisOff size lo hi =
      20 + ((size.toNat : ℚ) - 40) * ((t - lo.toNat) / ((hi.toNat : ℚ) - lo.toNat)) := by
  have hne := axis_sub_ne_zero h
  rw [axisOff, axisFac]
  field_simp
  ring

/-- The relative position of a reading between the calibrated ones. -/
theorem between_ratio (h : hi ≠ lo) {t : UInt16} (ht : Between lo hi t) :
    0 ≤ ((t.toNat : ℚ) - lo.toNat) / ((hi.toNat : ℚ) - lo.toNat) ∧
      ((t.toNat : ℚ) - lo.toNat) / ((hi.toNat : ℚ) - lo.toNat) ≤ 1 := by
  have hne := axis_sub_ne_zero h
  rcases ht with ⟨h₁, h₂⟩ | ⟨h₁, h₂⟩
  · have h₁' : (lo.toNat : ℚ) ≤ t.toNat := by exact_mod_cast UInt16.le_iff_toNat_le.mp h₁
    have h₂' : (t.toNat : ℚ) ≤ hi.toNat := by exact_mod_cast UInt16.le_iff_toNat_le.mp h₂
    have hpos : (0 : ℚ) < (hi.toNat : ℚ) - lo.toNat := lt_of_le_of_ne (by linarith) hne.symm
    exact ⟨div_nonneg (by linarith) hpos.le, (div_le_one hpos).mpr (by linarith)⟩
  · have h₁' : (hi.toNat : ℚ) ≤ t.toNat := by exact_mod_cast UInt16.le_iff_toNat_le.mp h₁
    have h₂' : (t.toNat : ℚ) ≤ lo.toNat := by exact_mod_cast UInt16.le_iff_toNat_le.mp h₂
    have hneg : (hi.toNat : ℚ) - lo.toNat < 0 := lt_of_le_of_ne (by linarith) hne
    exact ⟨div_nonneg_of_nonpos (by linarith) hneg.le, (div_le_one_of_neg hneg).mpr (by linarith)⟩

/-- With the exact offset a reading between the calibrated ones lands between the targets. -/
theorem axis_exact_bounds (hsize : 40 < size.toNat) (h : hi ≠ lo) {t : UInt16}
    (ht : Between lo hi t) :
    20 ≤ axisFac size lo hi * t.toNat + axisOff size lo hi ∧
      axisFac size lo hi * t.toNat + axisOff size lo hi ≤ (size.toNat : ℚ) - 20 := by
  obtain ⟨h₀, h₁⟩ := between_ratio h ht
  have hspan : (0 : ℚ) ≤ (size.toNat : ℚ) - 40 := by
    have : (40 : ℚ) < size.toNat := by exact_mod_cast hsize
    linarith
  rw [axis_exact h]
  constructor
  · linarith [mul_nonneg hspan h₀]
  · linarith [mul_le_mul_of_nonneg_left h₁ hspan]

/-- The offset fits 16 bits when the factor is below three. -/
theorem abs_axisOff_lt (hsize' : size.toNat ≤ 800) (hlo : lo.toNat ≤ 4095) (hhi : hi.toNat ≤ 4095)
    (hfac : |axisFac size lo hi| < 3) : |axisOff size lo hi| < 12686 := by
  have hs : (size.toNat : ℚ) ≤ 800 := by exact_mod_cast hsize'
  have hs₀ : (0 : ℚ) ≤ size.toNat := Nat.cast_nonneg _
  have hsum : (hi.toNat : ℚ) + lo.toNat ≤ 8190 := by exact_mod_cast (by omega : _ ≤ 8190)
  have hsum₀ : (0 : ℚ) ≤ (hi.toNat : ℚ) + lo.toNat := by positivity
  obtain ⟨hlow, hhigh⟩ := abs_lt.mp hfac
  have h₁ := mul_le_mul_of_nonneg_right hlow.le hsum₀
  have h₂ := mul_le_mul_of_nonneg_right hhigh.le hsum₀
  rw [axisOff, abs_lt]
  constructor <;> linarith

/-- The stored offset is the truncation of the exact one. -/
theorem tpOff_toInt (h : hi ≠ lo) (hoff : |axisOff size lo hi| < 12686) :
    (tpOff size (tpFac size lo hi) lo hi).toInt = trunc (axisOff size lo hi) := by
  have hval : ((ExactFloat.ofInt size.toNat).sub ((ExactFloat.fin (axisFac size lo hi)).mul
      (ExactFloat.ofInt (hi.toNat + lo.toNat)))).div (ExactFloat.ofInt 2) =
      .fin (axisOff size lo hi) := by
    rw [ExactFloat.ofInt, ExactFloat.ofInt, ExactFloat.ofInt, ExactFloat.mul_fin,
      ExactFloat.sub_fin, ExactFloat.div_fin (by norm_num), axisOff]
    push_cast
    rfl
  have htrunc := (abs_trunc_le_iff (axisOff size lo hi) 12685).mpr (by norm_num; exact hoff)
  rw [abs_le] at htrunc
  rw [tpFac_of_ne size h, tpOff, hval, toShort, ExactFloat.toInt32_fin (by linarith),
    Int16.toInt_ofInt_of_le (by omega) (by omega)]

/-- What `TP_Scan` truncates: the exact value, less than one pixel off. -/
theorem axis_stored_bounds (hsize : 40 < size.toNat) (h : hi ≠ lo) {off : Int16}
    (hoff : off.toInt = trunc (axisOff size lo hi)) {t : UInt16} (ht : Between lo hi t) :
    19 < axisFac size lo hi * t.toNat + off.toInt ∧
      axisFac size lo hi * t.toNat + off.toInt < (size.toNat : ℚ) - 19 := by
  obtain ⟨hlow, hhigh⟩ := axis_exact_bounds hsize h ht
  obtain ⟨h₁, h₂⟩ := abs_lt.mp (abs_trunc_sub_lt_one (axisOff size lo hi))
  rw [hoff]
  constructor <;> linarith

/-- The converted reading is the truncated value, without overflow. -/
theorem tpConvert_toNat {off : Int16} {t : UInt16}
    (h₀ : 0 ≤ axisFac size lo hi * t.toNat + off.toInt)
    (h₁ : axisFac size lo hi * t.toNat + off.toInt < 65536) :
    ((tpConvert (.fin (axisFac size lo hi)) off t).toNat : ℤ) =
      trunc (axisFac size lo hi * t.toNat + off.toInt) := by
  have hlt : ⌊axisFac size lo hi * t.toNat + off.toInt⌋ < 65536 :=
    Int.floor_lt.mpr (by exact_mod_cast h₁)
  have hconv := ExactFloat.toUInt32_fin h₀ (by linarith)
  rw [trunc_of_nonneg h₀] at hconv ⊢
  rw [tpConvert, ExactFloat.ofInt, ExactFloat.ofInt, ExactFloat.mul_fin, ExactFloat.add_fin,
    UInt16.toNat_ofNat', ← hconv]
  push_cast
  omega

section Stored

variable (hsize : 40 < size.toNat) (hsize' : size.toNat ≤ 800) (h : hi ≠ lo) {off : Int16}
  (hoff : off.toInt = trunc (axisOff size lo hi))

include hsize hsize' h hoff

/-- Between the calibrated readings, the conversion does not overflow. -/
theorem tpConvert_between {t : UInt16} (ht : Between lo hi t) :
    ((tpConvert (.fin (axisFac size lo hi)) off t).toNat : ℤ) =
      trunc (axisFac size lo hi * t.toNat + off.toInt) := by
  have hs : (size.toNat : ℚ) ≤ 800 := by exact_mod_cast hsize'
  obtain ⟨h₀, h₁⟩ := axis_stored_bounds hsize h hoff ht
  exact tpConvert_toNat (by linarith) (by linarith)

/-- It stays inside the screen. -/
theorem tpConvert_inside {t : UInt16} (ht : Between lo hi t) :
    (tpConvert (.fin (axisFac size lo hi)) off t).toNat < size.toNat := by
  obtain ⟨h₀, h₁⟩ := axis_stored_bounds hsize h hoff ht
  have hlt : ⌊axisFac size lo hi * t.toNat + off.toInt⌋ < size.toNat :=
    Int.floor_lt.mpr (by push_cast; linarith)
  have heq := tpConvert_between hsize hsize' h hoff ht
  rw [trunc_of_nonneg (by linarith)] at heq
  exact_mod_cast heq ▸ hlt

/-- A reading that the exact offset maps to `n` is converted to within one of `n`: the stored offset
brings it less than one away, and truncation from there gets no further than one. -/
theorem tpConvert_target {t : UInt16} (ht : Between lo hi t) {n : ℤ}
    (hexact : axisFac size lo hi * t.toNat + axisOff size lo hi = n) :
    |((tpConvert (.fin (axisFac size lo hi)) off t).toNat : ℤ) - n| ≤ 1 := by
  have hnear := abs_lt.mp (abs_trunc_sub_lt_one (axisOff size lo hi))
  rw [← hoff] at hnear
  rw [tpConvert_between hsize hsize' h hoff ht]
  refine abs_trunc_sub_le_one (by linarith [(axis_stored_bounds hsize h hoff ht).1]) ?_
  rw [abs_lt]
  constructor <;> linarith

/-- The conversion follows the order of the products with the factor. -/
theorem tpConvert_mono {t t' : UInt16} (ht : Between lo hi t) (ht' : Between lo hi t')
    (hle : axisFac size lo hi * t.toNat ≤ axisFac size lo hi * t'.toNat) :
    tpConvert (.fin (axisFac size lo hi)) off t ≤ tpConvert (.fin (axisFac size lo hi)) off t' := by
  have h₀ := (axis_stored_bounds hsize h hoff ht).1
  have htrunc := trunc_le_trunc (by linarith) (add_le_add_left hle off.toInt)
  rw [← tpConvert_between hsize hsize' h hoff ht,
    ← tpConvert_between hsize hsize' h hoff ht'] at htrunc
  exact UInt16.le_iff_toNat_le.mpr (by exact_mod_cast htrunc)

end Stored

/-- The exact conversion of the first reading. -/
theorem axis_exact_lo (h : hi ≠ lo) :
    axisFac size lo hi * lo.toNat + axisOff size lo hi = (20 : ℤ) := by
  rw [axis_exact h, sub_self, zero_div, mul_zero, add_zero]
  rfl

/-- The exact conversion of the second. -/
theorem axis_exact_hi (h : hi ≠ lo) :
    axisFac size lo hi * hi.toNat + axisOff size lo hi = ((size.toNat - 20 : ℤ) : ℚ) := by
  rw [axis_exact h, div_self (axis_sub_ne_zero h), mul_one]
  push_cast
  ring

/-- So no factor is zero. -/
theorem axisFac_ne_zero (hsize : 40 < size.toNat) (h : hi ≠ lo) : axisFac size lo hi ≠ 0 := by
  have hspan : (40 : ℚ) < size.toNat := by exact_mod_cast hsize
  exact div_ne_zero (by linarith) (axis_sub_ne_zero h)

/-- The parameters computed for an axis with a factor below three calibrate it. -/
theorem axisCalibrated (hsize : 40 < size.toNat) (hsize' : size.toNat ≤ 800)
    (hlo : lo.toNat ≤ 4095) (hhi : hi.toNat ≤ 4095)
    (hspan : size.toNat - 40 < 3 * readingSpan lo hi) :
    AxisCalibrated size lo hi (tpFac size lo hi) (tpOff size (tpFac size lo hi) lo hi)
      (tpConvert (tpFac size lo hi) (tpOff size (tpFac size lo hi) lo hi)) := by
  have h : hi ≠ lo := readingSpan_pos_iff.mp (by omega)
  -- the factor passes the test of the code, and that keeps the offset inside 16 bits
  have hfac : |axisFac size lo hi| < 3 := (abs_axisFac_lt_iff hsize h 3).mpr hspan
  have hoff := tpOff_toInt h (abs_axisOff_lt hsize' hlo hhi hfac)
  set off := tpOff size (tpFac size lo hi) lo hi
  rw [tpFac_of_ne size h]
  refine
    { fac_eq := rfl
      off_eq := hoff
      conv_eq := fun t ht => tpConvert_between hsize hsize' h hoff ht
      conv_lo := tpConvert_target hsize hsize' h hoff (between_left lo hi) (axis_exact_lo h)
      conv_hi := tpConvert_target hsize hsize' h hoff (between_right lo hi) (axis_exact_hi h)
      inside := fun t ht => tpConvert_inside hsize hsize' h hoff ht
      increasing := fun hpos t t' ht ht' hle => ?_
      decreasing := fun hneg t t' ht ht' hle => ?_
      fac_sign := ?_ }
  · have hpos' : (0 : ℚ) < axisFac size lo hi := by simpa [ExactFloat.lt] using hpos
    exact tpConvert_mono hsize hsize' h hoff ht ht' (mul_le_mul_of_nonneg_left
      (by exact_mod_cast UInt16.le_iff_toNat_le.mp hle) hpos'.le)
  · have hneg' : axisFac size lo hi < 0 := by simpa [ExactFloat.lt] using hneg
    exact tpConvert_mono hsize hsize' h hoff ht' ht (mul_le_mul_of_nonpos_left
      (by exact_mod_cast UInt16.le_iff_toNat_le.mp hle) hneg'.le)
  · rcases lt_or_gt_of_ne (axisFac_ne_zero hsize h) with hlt | hgt
    · exact .inr (decide_eq_true hlt)
    · exact .inl (decide_eq_true hgt)

end Axis

/-! ## Both axes -/

/-- One scan of the application with an accepted reading. -/
theorem tpScan_accepted (d : TpDev) (raw : Point) :
    (tpScan tpConvert 0 { pen := false, reading := some raw } d).1.point =
      (tpConvert d.xfac d.xoff raw.1, tpConvert d.yfac d.yoff raw.2) := by
  rw [tpScan_point_down tpConvert 0 rfl]
  rfl

/-- A device that holds an accepted calibration scans both axes to their targets. -/
theorem accepted_axisCalibrated (scr : Screen) {pos : Fin 4 → Point} (hpos : ∀ i, AdcRange (pos i))
    {touchtype : UInt8} {d : TpDev}
    (h : tpAdjustVerdict scr pos touchtype = .accepted d.toAdjData) :
    (∀ y, AxisCalibrated scr.width (pos 0).1 (pos 1).1 d.xfac d.xoff fun x =>
      (tpScan tpConvert 0 { pen := false, reading := some (x, y) } d).1.point.1) ∧
    ∀ x, AxisCalibrated scr.height (pos 0).2 (pos 2).2 d.yfac d.yoff fun y =>
      (tpScan tpConvert 0 { pen := false, reading := some (x, y) } d).1.point.2 := by
  obtain ⟨-, hfac, hadj⟩ := (tpAdjustVerdict_eq_accepted_iff scr pos touchtype _).mp h
  obtain ⟨hx, hy⟩ := (not_factorsTooLarge_iff scr pos touchtype).mp hfac
  simp only [tpScan_accepted, hadj, tpAdjustParams]
  exact ⟨fun _ => axisCalibrated scr.width_gt scr.width_le (hpos 0).1 (hpos 1).1 hx,
    fun _ => axisCalibrated scr.height_gt scr.height_le (hpos 0).2 (hpos 2).2 hy⟩

/-- The corner points of the portrait screen, by a reading of the bottom right corner. -/
theorem accepted_axisCalibrated_cornerPoints :
    ∃ d : TpDev, tpAdjustVerdict portraitScreen cornerPoints 0 = .accepted d.toAdjData ∧
      AxisCalibrated 240 300 3800 d.xfac d.xoff fun x =>
        (tpScan tpConvert 0 { pen := false, reading := some (x, 3800) } d).1.point.1 := by
  have h : tpAdjustVerdict portraitScreen cornerPoints 0 =
      .accepted (tpAdjustParams portraitScreen cornerPoints 0) :=
    (tpAdjustVerdict_eq_accepted_iff _ _ _ _).mpr
      ⟨(tpAdjustVerdict_ne_unfit_iff portraitScreen (by unfold AdcRange; decide) 0).mpr
        (.inl (regularPoints_rectangle (by decide) (by decide))),
        (not_factorsTooLarge_iff _ _ _).mpr (by decide), rfl⟩
  let d : TpDev :=
    { tpAdjustParams portraitScreen cornerPoints 0 with x := fun _ => 0, y := fun _ => 0, sta := 0 }
  have hadc : ∀ i, AdcRange (cornerPoints i) := by
    unfold AdcRange
    decide
  exact ⟨d, h, (accepted_axisCalibrated portraitScreen hadc (d := d) h).1 3800⟩

end Stm32Board.Touch
