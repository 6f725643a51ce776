import Stm32Board.Gui.Area
import Stm32Board.Common.Canvas

/-!
# Basic objects

Reference: `GUI_Vgl/lvgl/src/lv_draw/lv_draw_rect.c`, `GUI_Vgl/lvgl/src/lv_draw/lv_draw_basic.c` and
`lv_obj_design` of `GUI_Vgl/lvgl/src/lv_core/lv_obj.c`.

A basic object is a rectangle: a background, plain or with a gradient, and a border. With square corners
and without a shadow, as in the styles `lv_style_scr`, `lv_style_plain` and `lv_style_plain_color`, its
design callback paints a figure (`lvDrawRect_figure`) that hides what is below it when it is opaque
(`rectInk_covers`).
-/

namespace Stm32Board.Gui

open Common Lcd

/-! ## Colours -/

/-- Part of a channel of `c1` over the rest of one of `c2`. -/
def mixChannel (c1 c2 : ℕ) (mix : UInt8) : ℕ := (c1 * mix.toNat + c2 * (255 - mix.toNat)) / 256

/-- `lv_color_mix`, of colours with 5, 6 and 5 bits. -/
def lvColorMix (c1 c2 : UInt16) (mix : UInt8) : UInt16 :=
  let red := mixChannel (c1.toNat / 2048) (c2.toNat / 2048) mix
  let green := mixChannel (c1.toNat / 32 % 64) (c2.toNat / 32 % 64) mix
  let blue := mixChannel (c1.toNat % 32) (c2.toNat % 32) mix
  UInt16.ofNat (red * 2048 + green * 32 + blue)

/-- `LV_OPA_MIN`: what is below is transparent. -/
def lvOpaMin : UInt8 := 16

/-- `LV_OPA_MAX`: what is above covers fully. -/
def lvOpaMax : UInt8 := 251

/-- An opacity under the opacity scale of an object. -/
def scaleOpa (opa opaScale : UInt8) : UInt8 :=
  if opaScale = lvOpaCover then opa else UInt8.ofNat (opa.toNat * opaScale.toNat / 256)

/-- `sw_color_fill`; that it keeps the last mix makes no difference. -/
def swColorFill (fillArea : LvArea) (color : UInt16) (opa : UInt8) (canvas : Canvas) : Canvas :=
  fun p =>
    if fillArea.Contains p then
      if opa = lvOpaCover then color else lvColorMix color (canvas p) opa
    else canvas p

def lvDrawFill (cords mask : LvArea) (color : UInt16) (opa : UInt8) (canvas : Canvas) : Canvas :=
  if opa < lvOpaMin then canvas
  else
    let opa := if lvOpaMax < opa then lvOpaCover else opa
    let resA := lvAreaIntersect cords mask
    if resA.2 then swColorFill resA.1 color opa canvas else canvas

/-! ## Rectangles -/

/-- What `lv_draw_rect` reads of the `body` of a style, but its `opa`. -/
structure BodyStyle where
  mainColor : UInt16
  gradColor : UInt16
  radius : Int16
  borderColor : UInt16
  borderWidth : Int16
  borderPart : UInt8
  borderOpa : UInt8
  shadowWidth : Int16

/-- `LV_RADIUS_CIRCLE`. -/
def lvRadiusCircle : Int16 := 31768

/-- `lv_draw_shadow` and what `lv_draw_rect` does for rounded corners: `lv_draw_rect_main_corner`,
`lv_draw_rect_border_straight` but for its case of square ones, and `lv_draw_rect_border_corner`. -/
structure RoundedParts where
  shadow : LvArea → LvArea → BodyStyle → UInt8 → Canvas → Canvas
  mainCorner : LvArea → LvArea → UInt8 → BodyStyle → UInt8 → Canvas → Canvas
  borderStraight : LvArea → LvArea → BodyStyle → UInt8 → Canvas → Canvas
  borderCorner : LvArea → LvArea → BodyStyle → UInt8 → Canvas → Canvas

/-- A radius is less than half a side. -/
def radiusBelowHalf (r : UInt16) (side : Int16) : UInt16 :=
  if side.toInt / 2 ≤ r.toNat then
    let r := UInt16.ofInt (side.toInt / 2)
    if r ≠ 0 then r - 1 else r
  else r

/-- The display is anti-aliased, as `lv_disp_drv_init` has it. -/
def lvDrawContRadiusCorr (r : UInt16) (w h : Int16) : UInt16 :=
  let r := radiusBelowHalf (radiusBelowHalf r w) h
  if 0 < r then r - 1 else r

/-- The colour of a row of a gradient. -/
def gradientColor (coords : LvArea) (style : BodyStyle) (row : Int16) : UInt16 :=
  let height := UInt32.ofInt (lvAreaGetHeight coords).toInt
  let mix := UInt32.ofInt (coords.y2.toInt - row.toInt) * 255 / height
  lvColorMix style.mainColor style.gradColor mix.toUInt8

def lvDrawRectMainMid (coords mask : LvArea) (bodyOpa : UInt8) (style : BodyStyle)
    (opaScale : UInt8) (canvas : Canvas) : Canvas :=
  let height := lvAreaGetHeight coords
  let opa := scaleOpa bodyOpa opaScale
  let radius := lvDrawContRadiusCorr style.radius.toUInt16 (lvAreaGetWidth coords) height
  -- if the radius is too big there is no body
  if height.toInt.tdiv 2 < radius.toNat then canvas
  else
    let aaRows : ℤ := if style.radius ≠ 0 then 2 else 0
    let y1 := Int16.ofInt (coords.y1.toInt + radius.toNat + aaRows)
    let y2 := Int16.ofInt (coords.y2.toInt - radius.toNat - aaRows)
    if style.mainColor = style.gradColor then
      lvDrawFill ⟨coords.x1, y1, coords.x2, y2⟩ mask style.mainColor opa canvas
    else
      -- the rows from the first one on the display to `y2`, which is below `INT16_MAX`
      let rowStart := if y1 < 0 then 0 else y1
      (List.range (y2.toInt + 1 - rowStart.toInt).toNat).foldl (fun canvas (k : ℕ) =>
        let row := Int16.ofInt (rowStart.toInt + k)
        lvDrawFill ⟨coords.x1, row, coords.x2, row⟩ mask (gradientColor coords style row) opa canvas)
        canvas

/-- The sides of a border, with their bits in `lv_border_part_t`. -/
def lvBorderBottom : UInt8 := 1
def lvBorderTop : UInt8 := 2
def lvBorderLeft : UInt8 := 4
def lvBorderRight : UInt8 := 8

/-- One side of a border, if the style has it. -/
def drawBorderSide (mask : LvArea) (style : BodyStyle) (opa side : UInt8) (workArea : LvArea)
    (canvas : Canvas) : Canvas :=
  if style.borderPart &&& side ≠ 0 then lvDrawFill workArea mask style.borderColor opa canvas
  else canvas

def lvDrawRectBorderStraight (parts : RoundedParts) (coords mask : LvArea) (style : BodyStyle)
    (opaScale : UInt8) (canvas : Canvas) : Canvas :=
  if style.radius = 0 then
    -- a border is one pixel wider than `bwidth`
    let bwidth := style.borderWidth - 1
    let opa := scaleOpa style.borderOpa opaScale
    let y1 := coords.y1 + (if style.borderPart &&& lvBorderTop ≠ 0 then bwidth + 1 else 0)
    let y2 := coords.y2 - (if style.borderPart &&& lvBorderBottom ≠ 0 then bwidth + 1 else 0)
    let canvas := drawBorderSide mask style opa lvBorderTop
      ⟨coords.x1, coords.y1, coords.x2, coords.y1 + bwidth⟩ canvas
    let canvas := drawBorderSide mask style opa lvBorderRight
      ⟨coords.x2 - bwidth, y1, coords.x2, y2⟩ canvas
    let canvas := drawBorderSide mask style opa lvBorderLeft
      ⟨coords.x1, y1, coords.x1 + bwidth, y2⟩ canvas
    drawBorderSide mask style opa lvBorderBottom
      ⟨coords.x1, coords.y2 - bwidth, coords.x2, coords.y2⟩ canvas
  else parts.borderStraight coords mask style opaScale canvas

def lvDrawRect (parts : RoundedParts) (coords mask : LvArea) (bodyOpa : UInt8) (style : BodyStyle)
    (opaScale : UInt8) (canvas : Canvas) : Canvas :=
  if lvAreaGetHeight coords < 1 ∨ lvAreaGetWidth coords < 1 then canvas
  else
    let canvas :=
      if style.shadowWidth ≠ 0 then parts.shadow coords mask style opaScale canvas else canvas
    if lvAreaIsOn coords mask then
      let canvas :=
        if lvOpaMin < bodyOpa then
          let canvas := lvDrawRectMainMid coords mask bodyOpa style opaScale canvas
          if style.radius ≠ 0 then parts.mainCorner coords mask bodyOpa style opaScale canvas
          else canvas
        else canvas
      if style.borderWidth ≠ 0 ∧ style.borderPart ≠ 0 ∧ lvOpaMin ≤ style.borderOpa then
        let canvas := lvDrawRectBorderStraight parts coords mask style opaScale canvas
        if style.radius ≠ 0 then parts.borderCorner coords mask style opaScale canvas else canvas
      else canvas
    else canvas

/-- `lv_obj_design`: the callback of basic objects. -/
def lvObjDesign (parts : RoundedParts) : Design BodyStyle where
  draw h opaScale mask mode canvas :=
    match mode with
    | .drawMain => lvDrawRect parts h.coords mask h.bodyOpa h.data opaScale canvas
    | .drawPost => canvas
  coverChk h _ mask :=
    let r := h.data.radius
    lvAreaIsIn mask h.coords && !decide (h.bodyOpa < lvOpaMax) && !decide (r = lvRadiusCircle) &&
      -- the areas where there is no radius
      lvAreaIsIn mask { h.coords with x1 := h.coords.x1 + r, x2 := h.coords.x2 - r } &&
      lvAreaIsIn mask { h.coords with y1 := h.coords.y1 + r, y2 := h.coords.y2 - r }

/-! ## What they look like -/

/-- The coordinates and the sizes of an object are in range, its corners are square, it has no shadow, and
a border that fits it. -/
structure PlainRect (h : ObjHead BodyStyle) : Prop where
  radius_eq : h.data.radius = 0
  shadowWidth_eq : h.data.shadowWidth = 0
  x1_ge : -31768 ≤ h.coords.x1.toInt
  y1_ge : -31768 ≤ h.coords.y1.toInt
  x2_le : h.coords.x2.toInt ≤ 31768
  y2_le : h.coords.y2.toInt ≤ 31768
  width_lt : h.coords.x2.toInt - h.coords.x1.toInt < 32767
  height_lt : h.coords.y2.toInt - h.coords.y1.toInt < 32767
  border_nonneg : 0 ≤ h.data.borderWidth.toInt
  border_le_width : h.data.borderWidth.toInt ≤ h.coords.x2.toInt - h.coords.x1.toInt + 1
  border_le_height : h.data.borderWidth.toInt ≤ h.coords.y2.toInt - h.coords.y1.toInt + 1

/-- What `lv_draw_fill` leaves at a pixel. -/
def fillInk (cords : LvArea) (color : UInt16) (opa : UInt8) (p : Pixel) (b : UInt16) : UInt16 :=
  if ¬opa < lvOpaMin ∧ cords.Contains p then
    if lvOpaMax < opa then color else lvColorMix color b opa
  else b

/-- A fill, pixel by pixel. -/
theorem lvDrawFill_apply (cords mask : LvArea) (color : UInt16) (opa : UInt8) (canvas : Canvas)
    (p : Pixel) : lvDrawFill cords mask color opa canvas p =
      if mask.Contains p then fillInk cords color opa p (canvas p) else canvas p := by
  unfold lvDrawFill fillInk
  by_cases hopa : opa < lvOpaMin
  · simp only [hopa, if_true, not_true, false_and, if_false, ite_self]
  by_cases hcommon : cords.Contains p ∧ mask.Contains p
  · have hok := lvAreaIntersect_ok_of_contains hcommon.1 hcommon.2
    simp only [hopa, if_false, hok, if_true, swColorFill, contains_lvAreaIntersect, hcommon.1,
      hcommon.2, not_false_iff, and_self]
    by_cases hmax : lvOpaMax < opa
    · simp only [hmax, if_true]
    · have hne : opa ≠ lvOpaCover := by
        rintro rfl
        exact hmax (by decide)
      simp only [hmax, if_false, hne]
  · -- nothing is filled at this pixel
    have hleft : (if (lvAreaIntersect cords mask).2 = true then
        swColorFill (lvAreaIntersect cords mask).1 color (if lvOpaMax < opa then lvOpaCover else opa)
          canvas else canvas) p = canvas p := by
      split
      · exact if_neg fun h => hcommon (contains_lvAreaIntersect.mp h)
      · rfl
    rw [if_neg hopa]
    refine hleft.trans ?_
    by_cases hmask : mask.Contains p
    · rw [if_pos hmask, if_neg fun h => hcommon ⟨h.2, hmask⟩]
    · rw [if_neg hmask]

/-- A fill is a figure: clipped by a mask it draws its part inside it. -/
theorem lvDrawFill_figure {cords frame : LvArea} (hsub : pixels cords ⊆ pixels frame)
    (color : UInt16) (opa : UInt8) :
    Figure pixels (pixels frame) (fillInk cords color opa)
      fun mask => lvDrawFill cords mask color opa where
  paints _ := ⟨fun _ _ hp => (lvDrawFill_apply ..).trans (if_pos hp),
    fun _ _ hp => (lvDrawFill_apply ..).trans (if_neg hp)⟩
  outside _ hp _ := if_neg fun h => hp (hsub h.2)

/-- What is filled fully hides what was there. -/
theorem fillInk_cover {cords : LvArea} {p : Pixel} (hp : cords.Contains p) (color b b' : UInt16) :
    fillInk cords color lvOpaCover p b = fillInk cords color lvOpaCover p b' := by
  have hmin : ¬lvOpaCover < lvOpaMin := by decide
  have hmax : lvOpaMax < lvOpaCover := by decide
  simp only [fillInk, hmin, hp, hmax, not_false_iff, and_self, if_true]

theorem radiusBelowHalf_zero {side : Int16} (hside : 0 ≤ side.toInt) :
    radiusBelowHalf 0 side = 0 := by
  have hzero : (0 : UInt16).toNat = 0 := rfl
  unfold radiusBelowHalf
  split_ifs with hle
  · have hhalf : side.toInt / 2 = 0 := by omega
    rw [hhalf]
    rfl
  · rfl

/-- Square corners stay square. -/
theorem lvDrawContRadiusCorr_zero {w h : Int16} (hw : 0 ≤ w.toInt) (hh : 0 ≤ h.toInt) :
    lvDrawContRadiusCorr 0 w h = 0 := by
  rw [lvDrawContRadiusCorr, radiusBelowHalf_zero hw, radiusBelowHalf_zero hh]
  rfl

section Rect

variable {h : ObjHead BodyStyle} (hrect : PlainRect h)
include hrect

/-- The width does not wrap around. -/
theorem PlainRect.width_eq :
    (lvAreaGetWidth h.coords).toInt = h.coords.x2.toInt - h.coords.x1.toInt + 1 := by
  have := hrect.border_nonneg
  have := hrect.border_le_width
  exact toInt_span (by omega) hrect.width_lt

theorem PlainRect.height_eq :
    (lvAreaGetHeight h.coords).toInt = h.coords.y2.toInt - h.coords.y1.toInt + 1 := by
  have := hrect.border_nonneg
  have := hrect.border_le_height
  exact toInt_span (by omega) hrect.height_lt

/-- The first row of the object on the display. -/
def firstRow (coords : LvArea) : Int16 := if coords.y1 < 0 then 0 else coords.y1

omit hrect in
/-- The gradient begins at the top of the display where the object is cut off. -/
theorem toInt_firstRow (coords : LvArea) : (firstRow coords).toInt = max 0 coords.y1.toInt := by
  unfold firstRow
  split
  · next hneg =>
    rw [Int16.lt_iff_toInt_lt, Int16.toInt_zero] at hneg
    rw [Int16.toInt_zero]
    omega
  · next hneg =>
    rw [Int16.lt_iff_toInt_lt, Int16.toInt_zero] at hneg
    omega

/-- The background of an object with square corners. -/
theorem PlainRect.mainMid_eq (hproper : Proper h.coords) (mask : LvArea) (opaScale : UInt8) :
    lvDrawRectMainMid h.coords mask h.bodyOpa h.data opaScale = fun canvas =>
      if h.data.mainColor = h.data.gradColor then
        lvDrawFill h.coords mask h.data.mainColor (scaleOpa h.bodyOpa opaScale) canvas
      else
        (List.range (h.coords.y2.toInt + 1 - (firstRow h.coords).toInt).toNat).foldl
          (fun canvas (k : ℕ) =>
            lvDrawFill ⟨h.coords.x1, Int16.ofInt ((firstRow h.coords).toInt + k), h.coords.x2,
                Int16.ofInt ((firstRow h.coords).toInt + k)⟩ mask
              (gradientColor h.coords h.data (Int16.ofInt ((firstRow h.coords).toInt + k)))
              (scaleOpa h.bodyOpa opaScale) canvas) canvas := by
  have hwidth := hrect.width_eq
  have hheight := hrect.height_eq
  have hx := hproper.x_le
  have hy := hproper.y_le
  funext canvas
  have hradius : lvDrawContRadiusCorr (0 : Int16).toUInt16 (lvAreaGetWidth h.coords)
      (lvAreaGetHeight h.coords) = 0 := lvDrawContRadiusCorr_zero (by omega) (by omega)
  have hbody : ¬(lvAreaGetHeight h.coords).toInt.tdiv 2 < ((0 : UInt16).toNat : ℤ) := by
    rw [hheight]
    have := Int.tdiv_nonneg (a := h.coords.y2.toInt - h.coords.y1.toInt + 1) (b := 2) (by omega)
      (by omega)
    have hzero : ((0 : UInt16).toNat : ℤ) = 0 := rfl
    omega
  unfold lvDrawRectMainMid
  dsimp only
  rw [hrect.radius_eq, hradius, if_neg hbody, if_neg (not_not.mpr rfl), firstRow]
  have hzero : ((0 : UInt16).toNat : ℤ) = 0 := rfl
  rw [hzero]
  simp only [Int.add_zero, Int.sub_zero, Int16.ofInt_toInt]

/-- The background of an object with square corners is a figure, and hides what is below it if it is
opaque. -/
theorem PlainRect.mainMid_figure (hproper : Proper h.coords) (opaScale : UInt8) :
    ∃ ink, Figure pixels (pixels h.coords) ink
        (fun mask => lvDrawRectMainMid h.coords mask h.bodyOpa h.data opaScale) ∧
      (h.bodyOpa = lvOpaCover → opaScale = lvOpaCover → ∀ p, h.coords.Contains p → ∀ b b',
        ink p b = ink p b') := by
  have hfirst := toInt_firstRow h.coords
  have hy1 := hrect.y1_ge
  have hy2 := hrect.y2_le
  -- the rows of the gradient are on the display, so their numbers do not wrap
  have hrow : ∀ k ∈ List.range (h.coords.y2.toInt + 1 - (firstRow h.coords).toInt).toNat,
      (Int16.ofInt ((firstRow h.coords).toInt + k)).toInt = (firstRow h.coords).toInt + k := by
    intro k hk
    have := List.mem_range.mp hk
    exact Int16.toInt_ofInt_of_le (by omega) (by omega)
  simp only [hrect.mainMid_eq hproper]
  refine ⟨_, Figure.ite (fun _ => lvDrawFill_figure subset_rfl _ _) fun _ =>
    Figure.foldl fun k hk => lvDrawFill_figure (fun p hp => ?_) _ _, fun hopa hscale p hp b b' => ?_⟩
  · -- a row of the gradient
    have hk' := List.mem_range.mp hk
    have hp' : LvArea.Contains _ p := hp
    show h.coords.Contains p
    unfold LvArea.Contains at hp' ⊢
    dsimp only at hp'
    rw [hrow k hk] at hp'
    omega
  · have hcover : scaleOpa h.bodyOpa opaScale = lvOpaCover := by
      rw [hopa, hscale]
      rfl
    rw [hcover]
    split
    · exact fillInk_cover hp _ b b'
    · -- the row of the pixel
      unfold LvArea.Contains at hp
      have hk : (p.2 - (firstRow h.coords).toInt).toNat ∈
          List.range (h.coords.y2.toInt + 1 - (firstRow h.coords).toInt).toNat :=
        List.mem_range.mpr (by omega)
      refine foldl_eq_of_mem hk (fun b b' => fillInk_cover ?_ _ b b') b b'
      unfold LvArea.Contains
      dsimp only
      rw [hrow _ hk]
      omega

omit hrect in
/-- A side of the border. -/
theorem drawBorderSide_figure {frame workArea : LvArea} {style : BodyStyle} {opa side : UInt8}
    (hsub : pixels workArea ⊆ pixels frame) :
    ∃ ink, Figure pixels (pixels frame) ink
      fun mask => drawBorderSide mask style opa side workArea :=
  ⟨_, Figure.ite (fun _ => lvDrawFill_figure hsub _ _) fun _ => Figure.id _ _⟩

omit hrect in
/-- An area between the edges of another one. -/
theorem pixels_subset_of_toInt {a frame : LvArea} (hx1 : frame.x1.toInt ≤ a.x1.toInt)
    (hy1 : frame.y1.toInt ≤ a.y1.toInt) (hx2 : a.x2.toInt ≤ frame.x2.toInt)
    (hy2 : a.y2.toInt ≤ frame.y2.toInt) : pixels a ⊆ pixels frame := fun _ hp =>
  contains_of_lvAreaIsIn (lvAreaIsIn_iff.mpr ⟨hx1, hy1, hx2, hy2⟩) hp

/-- The border of an object with square corners stays inside it. -/
theorem PlainRect.border_figure (parts : RoundedParts) (hwidth : h.data.borderWidth ≠ 0)
    (opaScale : UInt8) : ∃ ink, Figure pixels (pixels h.coords) ink
      fun mask => lvDrawRectBorderStraight parts h.coords mask h.data opaScale := by
  obtain ⟨hradius, -, hx1, hy1, hx2, hy2, hxlt, hylt, hnonneg, hfitsX, hfitsY⟩ := hrect
  -- nothing wraps around: the border fits the object and the object the range of coordinates
  have hpos : 0 < h.data.borderWidth.toInt := by
    refine lt_of_le_of_ne hnonneg fun hzero => hwidth ?_
    rw [← Int16.toInt_inj, ← hzero, Int16.toInt_zero]
  have hone : (1 : Int16).toInt = 1 := Int16.toInt_one
  have hb : (h.data.borderWidth - 1).toInt = h.data.borderWidth.toInt - 1 := by
    rw [toInt_sub_of_le, hone] <;> omega
  have hb1 : (h.data.borderWidth - 1 + 1).toInt = h.data.borderWidth.toInt := by
    rw [toInt_add_of_le, hb, hone] <;> omega
  have hinner : ∀ c : Prop, ∀ [Decidable c],
      0 ≤ (if c then h.data.borderWidth - 1 + 1 else 0).toInt ∧
        (if c then h.data.borderWidth - 1 + 1 else 0).toInt ≤ h.data.borderWidth.toInt := by
    intro c _
    split
    · omega
    · rw [Int16.toInt_zero]
      omega
  have htop := hinner (h.data.borderPart &&& lvBorderTop ≠ 0)
  have hbottom := hinner (h.data.borderPart &&& lvBorderBottom ≠ 0)
  -- the two side lines begin below the top line and end above the bottom line, where there is one
  generalize hdrawn : (fun mask => lvDrawRectBorderStraight parts h.coords mask h.data opaScale) = draw
  unfold lvDrawRectBorderStraight at hdrawn
  simp only [if_pos hradius] at hdrawn
  subst hdrawn
  generalize (if h.data.borderPart &&& lvBorderTop ≠ 0 then h.data.borderWidth - 1 + 1 else 0) = top
    at htop ⊢
  generalize (if h.data.borderPart &&& lvBorderBottom ≠ 0 then h.data.borderWidth - 1 + 1 else 0) =
    bottom at hbottom ⊢
  have hy1' : (h.coords.y1 + top).toInt = h.coords.y1.toInt + top.toInt :=
    toInt_add_of_le (by omega) (by omega)
  have hy2' : (h.coords.y2 - bottom).toInt = h.coords.y2.toInt - bottom.toInt :=
    toInt_sub_of_le (by omega) (by omega)
  have hx1b : (h.coords.x1 + (h.data.borderWidth - 1)).toInt =
      h.coords.x1.toInt + (h.data.borderWidth.toInt - 1) := by
    rw [toInt_add_of_le, hb] <;> omega
  have hy1b : (h.coords.y1 + (h.data.borderWidth - 1)).toInt =
      h.coords.y1.toInt + (h.data.borderWidth.toInt - 1) := by
    rw [toInt_add_of_le, hb] <;> omega
  have hx2b : (h.coords.x2 - (h.data.borderWidth - 1)).toInt =
      h.coords.x2.toInt - (h.data.borderWidth.toInt - 1) := by
    rw [toInt_sub_of_le, hb] <;> omega
  have hy2b : (h.coords.y2 - (h.data.borderWidth - 1)).toInt =
      h.coords.y2.toInt - (h.data.borderWidth.toInt - 1) := by
    rw [toInt_sub_of_le, hb] <;> omega
  -- each of the four lines is a figure inside the object
  have hside : ∀ workArea side, pixels workArea ⊆ pixels h.coords →
      ∃ ink, Figure pixels (pixels h.coords) ink fun mask =>
        drawBorderSide mask h.data (scaleOpa h.data.borderOpa opaScale) side workArea :=
    fun _ _ => drawBorderSide_figure
  obtain ⟨_, htopSide⟩ := hside ⟨h.coords.x1, h.coords.y1, h.coords.x2,
      h.coords.y1 + (h.data.borderWidth - 1)⟩ lvBorderTop
    (pixels_subset_of_toInt le_rfl le_rfl le_rfl (by dsimp only; omega))
  obtain ⟨_, hrightSide⟩ := hside ⟨h.coords.x2 - (h.data.borderWidth - 1), h.coords.y1 + top,
      h.coords.x2, h.coords.y2 - bottom⟩ lvBorderRight
    (pixels_subset_of_toInt (by dsimp only; omega) (by dsimp only; omega) le_rfl
      (by dsimp only; omega))
  obtain ⟨_, hleftSide⟩ := hside ⟨h.coords.x1, h.coords.y1 + top,
      h.coords.x1 + (h.data.borderWidth - 1), h.coords.y2 - bottom⟩ lvBorderLeft
    (pixels_subset_of_toInt le_rfl (by dsimp only; omega) (by dsimp only; omega)
      (by dsimp only; omega))
  obtain ⟨_, hbottomSide⟩ := hside ⟨h.coords.x1, h.coords.y2 - (h.data.borderWidth - 1),
      h.coords.x2, h.coords.y2⟩ lvBorderBottom
    (pixels_subset_of_toInt le_rfl (by dsimp only; omega) le_rfl le_rfl)
  exact ⟨_, ((htopSide.comp hrightSide).comp hleftSide).comp hbottomSide⟩

/-- An object that is drawn has a pixel. -/
theorem PlainRect.proper (hsize : ¬(lvAreaGetHeight h.coords < 1 ∨ lvAreaGetWidth h.coords < 1)) :
    Proper h.coords := by
  obtain ⟨hheight, hwidth⟩ := not_or.mp hsize
  rw [Int16.lt_iff_toInt_lt, Int16.toInt_one, hrect.height_eq] at hheight
  rw [Int16.lt_iff_toInt_lt, Int16.toInt_one, hrect.width_eq] at hwidth
  exact ⟨by omega, by omega⟩

/-- An object with square corners is a figure, and hides what is below it if it is opaque. -/
theorem lvDrawRect_figure (parts : RoundedParts) (opaScale : UInt8) :
    ∃ ink, Figure pixels (pixels h.coords) ink
        (fun mask => lvDrawRect parts h.coords mask h.bodyOpa h.data opaScale) ∧
      (h.bodyOpa = lvOpaCover → opaScale = lvOpaCover → ∀ p, h.coords.Contains p → ∀ b b',
        ink p b = ink p b') := by
  by_cases hsize : lvAreaGetHeight h.coords < 1 ∨ lvAreaGetWidth h.coords < 1
  · -- an object without pixels
    have hdraw : (fun mask => lvDrawRect parts h.coords mask h.bodyOpa h.data opaScale) =
        fun _ canvas => canvas := funext fun mask => funext fun canvas => if_pos hsize
    rw [hdraw]
    refine ⟨_, Figure.id _ _, fun _ _ p hp => ?_⟩
    have hproper := Contains.proper hp
    rw [Int16.lt_iff_toInt_lt, Int16.lt_iff_toInt_lt, Int16.toInt_one, hrect.height_eq,
      hrect.width_eq] at hsize
    have hx := hproper.x_le
    have hy := hproper.y_le
    omega
  -- without shadow and rounded corners there is a background and a border over it
  have hradius : ¬h.data.radius ≠ 0 := not_not.mpr hrect.radius_eq
  have hshadow : ¬h.data.shadowWidth ≠ 0 := not_not.mpr hrect.shadowWidth_eq
  have hdraw : (fun mask => lvDrawRect parts h.coords mask h.bodyOpa h.data opaScale) =
      fun mask canvas => if lvAreaIsOn h.coords mask = true then
        (fun canvas => if h.data.borderWidth ≠ 0 ∧ h.data.borderPart ≠ 0 ∧ lvOpaMin ≤ h.data.borderOpa
          then lvDrawRectBorderStraight parts h.coords mask h.data opaScale canvas else canvas)
        (if lvOpaMin < h.bodyOpa then
          lvDrawRectMainMid h.coords mask h.bodyOpa h.data opaScale canvas else canvas)
      else canvas := by
    funext mask canvas
    unfold lvDrawRect
    simp only [hsize, hradius, hshadow, if_false]
  obtain ⟨mainInk, hmain, hcovers⟩ := hrect.mainMid_figure (hrect.proper hsize) opaScale
  have hborder : ∃ ink, Figure pixels (pixels h.coords) ink fun mask canvas =>
      if h.data.borderWidth ≠ 0 ∧ h.data.borderPart ≠ 0 ∧ lvOpaMin ≤ h.data.borderOpa then
        lvDrawRectBorderStraight parts h.coords mask h.data opaScale canvas else canvas := by
    by_cases hpart : h.data.borderWidth ≠ 0 ∧ h.data.borderPart ≠ 0 ∧ lvOpaMin ≤ h.data.borderOpa
    · obtain ⟨ink, hink⟩ := hrect.border_figure parts hpart.1 opaScale
      exact ⟨_, Figure.ite (fun _ => hink) fun _ => Figure.id _ _⟩
    · simp only [hpart, if_false]
      exact ⟨_, Figure.id _ _⟩
  obtain ⟨borderInk, hborder⟩ := hborder
  rw [hdraw]
  refine ⟨_, Figure.skip ((Figure.ite (fun _ => hmain) fun _ => Figure.id _ _).comp hborder)
    (fun mask p hmask hp => ?_), fun hopa hscale p hp b b' => ?_⟩
  · exact lvAreaIsOn_of_contains hp hmask
  · -- the border is drawn over a background that hides what was there
    have hmin : lvOpaMin < h.bodyOpa := by
      rw [hopa]
      decide
    rw [if_pos hmin, if_pos hmin, hcovers hopa hscale p hp b b']

end Rect

end Stm32Board.Gui
