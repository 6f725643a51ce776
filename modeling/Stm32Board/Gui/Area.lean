import Stm32Board.Gui.Defs

/-!
# Areas and their parts

The area functions in terms of the pixels an area contains, and the bands `lv_refr_area` cuts an area
into: one below the other, each as wide as the area and no larger than the buffer
(`lvRefrAreaParts_tile`).
-/

namespace Stm32Board.Gui

open Common Lcd

/-! ## Intersecting and joining -/

@[simp] theorem toInt_lvMathMax (a b : Int16) :
    (lvMathMax a b).toInt = max a.toInt b.toInt := by
  unfold lvMathMax
  split
  · next h => exact (Int.max_eq_left (Int.le_of_lt (Int16.lt_iff_toInt_lt.mp h))).symm
  · next h => exact (Int.max_eq_right (Int16.le_iff_toInt_le.mp (Int16.not_lt.mp h))).symm

@[simp] theorem toInt_lvMathMin (a b : Int16) :
    (lvMathMin a b).toInt = min a.toInt b.toInt := by
  unfold lvMathMin
  split
  · next h => exact (Int.min_eq_left (Int.le_of_lt (Int16.lt_iff_toInt_lt.mp h))).symm
  · next h => exact (Int.min_eq_right (Int16.le_iff_toInt_le.mp (Int16.not_lt.mp h))).symm

instance (a : LvArea) (p : Pixel) : Decidable (a.Contains p) := by
  unfold LvArea.Contains
  infer_instance

/-- The pixels of an area. -/
def pixels (a : LvArea) : Set Pixel := {p | a.Contains p}

/-- The pixels of an area are the ones it contains. -/
@[simp] theorem mem_pixels {a : LvArea} {p : Pixel} : p ∈ pixels a ↔ a.Contains p := Iff.rfl

/-- The corners are in order: the area is not empty. -/
structure Proper (a : LvArea) : Prop where
  x_le : a.x1.toInt ≤ a.x2.toInt
  y_le : a.y1.toInt ≤ a.y2.toInt

/-- The common part of two areas contains what both contain. -/
theorem contains_lvAreaIntersect {a b : LvArea} {p : Pixel} :
    (lvAreaIntersect a b).1.Contains p ↔ a.Contains p ∧ b.Contains p := by
  simp only [lvAreaIntersect, LvArea.Contains, toInt_lvMathMax, toInt_lvMathMin]
  omega

/-- `union_ok` says that the common part is not empty. -/
theorem lvAreaIntersect_ok {a b : LvArea} :
    (lvAreaIntersect a b).2 = true ↔ Proper (lvAreaIntersect a b).1 := by
  simp only [lvAreaIntersect, Bool.not_eq_true', Bool.or_eq_false_iff, decide_eq_false_iff_not,
    Int16.not_lt, Int16.le_iff_toInt_le]
  exact ⟨fun h => ⟨h.1, h.2⟩, fun h => ⟨h.x_le, h.y_le⟩⟩

/-- An area that contains a pixel has one. -/
theorem Contains.proper {a : LvArea} {p : Pixel} (h : a.Contains p) : Proper a :=
  ⟨by unfold LvArea.Contains at h; omega, by unfold LvArea.Contains at h; omega⟩

/-- Areas with a pixel in common have a common part. -/
theorem lvAreaIntersect_ok_of_contains {a b : LvArea} {p : Pixel} (ha : a.Contains p)
    (hb : b.Contains p) : (lvAreaIntersect a b).2 = true :=
  lvAreaIntersect_ok.mpr (Contains.proper (contains_lvAreaIntersect.mpr ⟨ha, hb⟩))

/-- `lv_area_is_in` compares the four edges. -/
theorem lvAreaIsIn_iff {a b : LvArea} :
    lvAreaIsIn a b = true ↔ b.x1.toInt ≤ a.x1.toInt ∧ b.y1.toInt ≤ a.y1.toInt ∧
      a.x2.toInt ≤ b.x2.toInt ∧ a.y2.toInt ≤ b.y2.toInt := by
  simp only [lvAreaIsIn, Bool.and_eq_true, decide_eq_true_eq, Int16.le_iff_toInt_le, and_assoc]

/-- Whatever is in the inner area is in the outer one. -/
theorem contains_of_lvAreaIsIn {a b : LvArea} {p : Pixel} (h : lvAreaIsIn a b = true)
    (hp : a.Contains p) : b.Contains p := by
  obtain ⟨hx1, hy1, hx2, hy2⟩ := lvAreaIsIn_iff.mp h
  unfold LvArea.Contains at hp ⊢
  omega

/-- Areas with a common pixel are on each other. -/
theorem lvAreaIsOn_of_contains {a b : LvArea} {p : Pixel} (ha : a.Contains p)
    (hb : b.Contains p) : lvAreaIsOn a b = true := by
  simp only [lvAreaIsOn, Bool.and_eq_true, decide_eq_true_eq, Int16.le_iff_toInt_le]
  unfold LvArea.Contains at ha hb
  omega

/-- The joined area holds both. -/
theorem contains_lvAreaJoin {a b : LvArea} {p : Pixel} (h : a.Contains p ∨ b.Contains p) :
    (lvAreaJoin a b).Contains p := by
  simp only [lvAreaJoin, LvArea.Contains, toInt_lvMathMax, toInt_lvMathMin] at h ⊢
  omega

variable {lcddev : LcdDev}

/-- Areas of the screen are joined inside the screen. -/
theorem inside_lvAreaJoin {a b : LvArea} (ha : a.Inside lcddev) (hb : b.Inside lcddev) :
    (lvAreaJoin a b).Inside lcddev := by
  obtain ⟨hx1, hx, hxw, hy1, hy, hyh⟩ := ha
  obtain ⟨hx1', hx', hxw', hy1', hy', hyh'⟩ := hb
  constructor <;> simp only [lvAreaJoin, toInt_lvMathMax, toInt_lvMathMin] <;> omega

/-- A number in range is stored as it is. -/
theorem toNat_ofInt_u32 {v : ℤ} (h : 0 ≤ v) (hlt : v < 4294967296) :
    (UInt32.ofInt v).toNat = v.toNat := by
  unfold UInt32.ofInt
  rw [UInt32.toNat_ofNat']
  omega

/-- On the screen the 32-bit size is the number of pixels. -/
theorem lvAreaGetSize_eq {a : LvArea} (h : a.Inside lcddev) :
    (lvAreaGetSize a).toNat = a.width * a.height := by
  obtain ⟨hx1, hx, hxw, hy1, hy, hyh⟩ := h
  have hx2 := a.x2.toInt_lt
  have hy2 := a.y2.toInt_lt
  have hw : a.width ≤ 32768 := by unfold LvArea.width; omega
  have hh : a.height ≤ 32768 := by unfold LvArea.height; omega
  have hprod : a.width * a.height ≤ 32768 * 32768 := Nat.mul_le_mul hw hh
  have hwidth : (UInt32.ofInt (a.x2.toInt - a.x1.toInt + 1)).toNat = a.width := by
    rw [toNat_ofInt_u32 (by omega) (by omega), LvArea.width]
  have hheight : (UInt32.ofInt (a.y2.toInt - a.y1.toInt + 1)).toNat = a.height := by
    rw [toNat_ofInt_u32 (by omega) (by omega), LvArea.height]
  rw [lvAreaGetSize, UInt32.toNat_mul, hwidth, hheight]
  exact Nat.mod_eq_of_lt (by omega)

/-! ## Bands -/

/-- The areas cover the rows from `y` to `y2`, one below the other, at most `maxRow` rows each. -/
def Bands (a : LvArea) (maxRow y2 : ℤ) : ℤ → List LvArea → Prop
  | y, [] => y = y2 + 1
  | y, b :: bs =>
    b.x1 = a.x1 ∧ b.x2 = a.x2 ∧ b.y1.toInt = y ∧ y ≤ b.y2.toInt ∧ b.y2.toInt ≤ y2 ∧
      b.y2.toInt < y + maxRow ∧ Bands a maxRow y2 (b.y2.toInt + 1) bs

/-- The loop over the rows ends and leaves bands: `rowLast` is the row above the next one. -/
theorem refrRows_bands (a : LvArea) {y2 : Int16} {maxRow : ℤ} (hmax : 1 ≤ maxRow)
    (hy2 : y2.toInt < 32767) {fuel : ℕ} {row rowLast : Int16} (hrow : row.toInt ≤ y2.toInt + 1)
    (hlast : rowLast.toInt = row.toInt - 1 ∨ row.toInt + maxRow - 1 ≤ y2.toInt)
    (hfuel : y2.toInt + 1 - row.toInt < fuel) :
    ∃ parts, refrRows a y2 maxRow fuel row rowLast = some parts ∧
      Bands a maxRow y2.toInt row.toInt parts := by
  -- the fuel is the number of rows left; `rowLast` is the row above the next band
  induction fuel generalizing row rowLast with
  | zero => omega
  | succ fuel ih =>
    have hlow := row.le_toInt
    unfold refrRows
    -- one more full band, or what is left below the last one
    by_cases hcond : row.toInt + maxRow - 1 ≤ y2.toInt
    · have hbottom : (Int16.ofInt (row.toInt + maxRow - 1)).toInt = row.toInt + maxRow - 1 :=
        Int16.toInt_ofInt_of_le (by omega) (by omega)
      have hnext : (Int16.ofInt (row.toInt + maxRow)).toInt = row.toInt + maxRow :=
        Int16.toInt_ofInt_of_le (by omega) (by omega)
      have hle : ¬y2 < Int16.ofInt (row.toInt + maxRow - 1) := by
        rw [Int16.lt_iff_toInt_lt, hbottom]
        omega
      rw [if_pos hcond]
      dsimp only
      rw [if_neg hle]
      obtain ⟨parts, hparts, hbands⟩ := @ih (Int16.ofInt (row.toInt + maxRow))
        (Int16.ofInt (row.toInt + maxRow - 1)) (by omega) (.inl (by omega)) (by omega)
      refine ⟨_, congrArg (Option.map _) hparts, ?_⟩
      refine ⟨rfl, rfl, rfl, ?_, ?_, ?_, ?_⟩
      · rw [hbottom]; omega
      · rw [hbottom]; omega
      · rw [hbottom]; omega
      · rw [hbottom, show row.toInt + maxRow - 1 + 1 = row.toInt + maxRow by omega, ← hnext]
        exact hbands
    · rw [if_neg hcond]
      have hlast' := hlast.resolve_right hcond
      by_cases heq : y2 = rowLast
      · rw [if_neg (not_not.mpr heq)]
        refine ⟨[], rfl, ?_⟩
        rw [Bands, heq]
        omega
      · rw [if_pos heq]
        have hne : y2.toInt ≠ rowLast.toInt := fun h => heq (Int16.toInt_inj.mp h)
        exact ⟨_, rfl, rfl, rfl, rfl, by dsimp only; omega, Int.le_refl _,
          by dsimp only; omega, rfl⟩

namespace Bands

variable {a : LvArea} {maxRow y2 : ℤ}

/-- What holds of each band. -/
theorem mem {y : ℤ} {parts : List LvArea} (h : Bands a maxRow y2 y parts) {b : LvArea}
    (hb : b ∈ parts) :
    b.x1 = a.x1 ∧ b.x2 = a.x2 ∧ y ≤ b.y1.toInt ∧ b.y1.toInt ≤ b.y2.toInt ∧ b.y2.toInt ≤ y2 ∧
      b.y2.toInt < b.y1.toInt + maxRow := by
  induction parts generalizing y with
  | nil => exact absurd hb List.not_mem_nil
  | cons c cs ih =>
    obtain ⟨hx1, hx2, hy1, hle, hy2, hrows, hrest⟩ := h
    rcases List.mem_cons.mp hb with rfl | hmem
    · exact ⟨hx1, hx2, by omega, by omega, hy2, by omega⟩
    · obtain ⟨hx1', hx2', hlow, hbounds⟩ := ih hrest hmem
      exact ⟨hx1', hx2', by omega, hbounds⟩

/-- No row is in two bands, and they come from top to bottom. -/
theorem pairwise {y : ℤ} {parts : List LvArea} (h : Bands a maxRow y2 y parts) :
    parts.Pairwise fun b c => b.y2.toInt < c.y1.toInt := by
  induction parts generalizing y with
  | nil => exact List.Pairwise.nil
  | cons b bs ih =>
    obtain ⟨-, -, -, -, -, -, hrest⟩ := h
    refine List.Pairwise.cons (fun c hc => ?_) (ih hrest)
    have hlow := (hrest.mem hc).2.2.1
    omega

/-- Every row is in a band. -/
theorem contains_iff {y : ℤ} {parts : List LvArea} (h : Bands a maxRow y2 y parts) {p : Pixel} :
    (∃ b ∈ parts, b.Contains p) ↔
      a.x1.toInt ≤ p.1 ∧ p.1 ≤ a.x2.toInt ∧ y ≤ p.2 ∧ p.2 ≤ y2 := by
  induction parts generalizing y with
  | nil =>
    have hy : y = y2 + 1 := h
    simp only [List.not_mem_nil, false_and, exists_false, false_iff]
    omega
  | cons b bs ih =>
    obtain ⟨hx1, hx2, hy1, hle, hy2, -, hrest⟩ := h
    rw [List.exists_mem_cons_iff, ih hrest, LvArea.Contains, hx1, hx2]
    omega

end Bands

/-- The display is the panel, and its buffer holds a row of it. -/
structure Attached (lcddev : LcdDev) (disp : LvDisp) : Prop where
  horRes_eq : disp.horRes.toInt = lcddev.width.toNat
  verRes_eq : disp.verRes.toInt = lcddev.height.toNat
  horRes_pos : 0 < lcddev.width.toNat
  verRes_pos : 0 < lcddev.height.toNat
  row_le : lcddev.width.toNat ≤ disp.bufSize.toNat
  bufSize_lt : disp.bufSize.toNat < 2147483648

/-- A sum in range does not wrap around. -/
theorem toInt_add_of_le {u v : Int16} (hlo : -32768 ≤ u.toInt + v.toInt)
    (hhi : u.toInt + v.toInt ≤ 32767) : (u + v).toInt = u.toInt + v.toInt := by
  rw [Int16.toInt_add]
  exact Int.bmod_eq_of_le (by omega) (by omega)

/-- A difference in range does not either. -/
theorem toInt_sub_of_le {u v : Int16} (hlo : -32768 ≤ u.toInt - v.toInt)
    (hhi : u.toInt - v.toInt ≤ 32767) : (u - v).toInt = u.toInt - v.toInt := by
  rw [Int16.toInt_sub]
  exact Int.bmod_eq_of_le (by omega) (by omega)

/-- A difference of coordinates, plus one, that is in range. -/
theorem toInt_span {u v : Int16} (hlo : -32768 ≤ v.toInt - u.toInt)
    (hhi : v.toInt - u.toInt < 32767) : (v - u + 1).toInt = v.toInt - u.toInt + 1 := by
  have hsub : (v - u).toInt = v.toInt - u.toInt := toInt_sub_of_le hlo (Int.le_of_lt hhi)
  have hone : (1 : Int16).toInt = 1 := Int16.toInt_one
  rw [toInt_add_of_le, hsub, hone] <;> omega

/-- The edges of an area of an attached display, as the coordinate type has them. -/
theorem toInt_edges {disp : LvDisp} (hd : Attached lcddev disp) {a : LvArea}
    (h : a.Inside lcddev) :
    (lvAreaGetWidth a).toInt = a.width ∧ (lvAreaGetHeight a).toInt = a.height ∧
      a.x2.toInt < 32767 ∧ a.y2.toInt < 32767 := by
  obtain ⟨hx1, hx, hxw, hy1, hy, hyh⟩ := h
  have hhor := disp.horRes.toInt_lt
  have hver := disp.verRes.toInt_lt
  rw [hd.horRes_eq] at hhor
  rw [hd.verRes_eq] at hver
  rw [lvAreaGetWidth, lvAreaGetHeight, toInt_span (by omega) (by omega),
    toInt_span (by omega) (by omega), LvArea.width, LvArea.height]
  omega

/-- At least one row at a time, and no more words than the buffer has. -/
theorem lvRefrMaxRow_bounds {disp : LvDisp} (hd : Attached lcddev disp) {a : LvArea}
    (h : a.Inside lcddev) :
    1 ≤ lvRefrMaxRow disp a ∧ lvRefrMaxRow disp a ≤ a.height ∧
      a.width * lvRefrMaxRow disp a ≤ disp.bufSize.toNat := by
  obtain ⟨hw, hh, hx2, hy2⟩ := toInt_edges hd h
  obtain ⟨hx1, hx, hxw, hy1, hy, hyh⟩ := h
  have hwidth : a.width ≤ lcddev.width.toNat ∧ 0 < a.width := by
    unfold LvArea.width
    omega
  have hheight : 0 < a.height := by
    unfold LvArea.height
    omega
  have hrow := hd.row_le
  have hsize := hd.bufSize_lt
  have hdiv : (disp.bufSize / UInt32.ofInt (lvAreaGetWidth a).toInt).toNat =
      disp.bufSize.toNat / a.width := by
    rw [UInt32.toNat_div, hw, toNat_ofInt_u32 (by omega) (by omega), Int.toNat_natCast]
  -- the buffer holds at least one row of the screen
  have hquot : 1 ≤ disp.bufSize.toNat / a.width :=
    (Nat.one_le_div_iff hwidth.2).mpr (by omega)
  have hle : disp.bufSize.toNat / a.width ≤ disp.bufSize.toNat := Nat.div_le_self _ _
  have hmul : a.width * (disp.bufSize.toNat / a.width) ≤ disp.bufSize.toNat :=
    Nat.mul_div_le _ _
  unfold lvRefrMaxRow
  dsimp only
  rw [hdiv, Int32.toInt_ofInt_of_le (by omega) (by omega), hh]
  split
  · next hlt =>
    have hless : a.width * a.height ≤ a.width * (disp.bufSize.toNat / a.width) :=
      Nat.mul_le_mul_left _ (by omega)
    refine ⟨by omega, Int.le_refl _, ?_⟩
    exact_mod_cast hless.trans hmul
  · exact ⟨by omega, by omega, by exact_mod_cast hmul⟩

/-- `lv_refr_area` cuts an area of the screen into bands from top to bottom: together they are the
area, no row is in two of them, and each is as wide as the area and fits the buffer. -/
theorem lvRefrAreaParts_tile {disp : LvDisp} (hd : Attached lcddev disp) {a : LvArea}
    (h : a.Inside lcddev) :
    ∃ parts, lvRefrAreaParts disp a = some parts ∧
      (∀ p, a.Contains p ↔ ∃ b ∈ parts, b.Contains p) ∧
      (parts.Pairwise fun b c => b.y2.toInt < c.y1.toInt) ∧
      ∀ b ∈ parts, b.Inside lcddev ∧ b.x1 = a.x1 ∧ b.x2 = a.x2 ∧
        b.width * b.height ≤ disp.bufSize.toNat := by
  obtain ⟨hw, -, -, hy2⟩ := toInt_edges hd h
  obtain ⟨hone, hheight, hfits⟩ := lvRefrMaxRow_bounds hd h
  obtain ⟨hx1, hx, hxw, hy1, hy, hyh⟩ := h
  have hne : lvAreaGetWidth a ≠ 0 := by
    intro hzero
    rw [hzero, Int16.toInt_zero, LvArea.width] at hw
    omega
  have hbelow : ¬disp.verRes ≤ a.y2 := by
    rw [Int16.le_iff_toInt_le, hd.verRes_eq]
    omega
  have hrows : a.y1.toInt + lvRefrMaxRow disp a - 1 ≤ a.y2.toInt := by
    unfold LvArea.height at hheight
    omega
  -- the fuel is more than the screen has rows
  obtain ⟨parts, hparts, hbands⟩ := @refrRows_bands a _ _ hone hy2 fuelU16
    a.y1 0 (by omega) (.inr hrows) (by rw [fuelU16]; omega)
  unfold lvRefrAreaParts
  dsimp only
  rw [if_neg hne, if_neg hbelow]
  refine ⟨parts, hparts, fun p => hbands.contains_iff.symm, hbands.pairwise, fun b hb => ?_⟩
  obtain ⟨hbx1, hbx2, hby1, hble, hby2, hbrows⟩ := hbands.mem hb
  -- a band has no more rows than fit the buffer
  have hband : (b.height : ℤ) ≤ lvRefrMaxRow disp a := by
    unfold LvArea.height
    omega
  have hbw : b.width = a.width := by
    unfold LvArea.width
    rw [hbx1, hbx2]
  refine ⟨⟨hbx1 ▸ hx1, hbx1 ▸ hbx2 ▸ hx, hbx2 ▸ hxw, by omega, hble, by omega⟩, hbx1, hbx2, ?_⟩
  have hless : (a.width * b.height : ℤ) ≤ a.width * lvRefrMaxRow disp a :=
    Int.mul_le_mul_of_nonneg_left hband (by omega)
  have hfits' : (a.width * b.height : ℤ) ≤ disp.bufSize.toNat := Int.le_trans hless hfits
  rw [hbw]
  exact_mod_cast hfits'

/-- A landscape panel of 320 columns, refreshed from a buffer of 4800 words, fifteen rows at a time. -/
theorem lvRefrAreaParts_tile_landscape :
    ∃ parts, lvRefrAreaParts ⟨320, 240, 4800, []⟩ ⟨0, 0, 319, 239⟩ = some parts ∧
      ∀ p, LvArea.Contains ⟨0, 0, 319, 239⟩ p ↔ ∃ b ∈ parts, b.Contains p := by
  have hd : Attached (lcdDisplayDirParams ⟨0, 0, 0x9341, 0, 0, 0, 0⟩ 1) ⟨320, 240, 4800, []⟩ := by
    constructor <;> decide
  have hin : LvArea.Inside (lcdDisplayDirParams ⟨0, 0, 0x9341, 0, 0, 0, 0⟩ 1) ⟨0, 0, 319, 239⟩ := by
    constructor <;> decide
  obtain ⟨parts, hparts, htile, -⟩ := lvRefrAreaParts_tile hd hin
  exact ⟨parts, hparts, htile⟩

end Stm32Board.Gui
