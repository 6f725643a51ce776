import Stm32Board.Common.Writes
import Stm32Board.Lcd.Ili9341

/-!
# Filling a rectangle

`LCD_Fill` counts rows from `sy` to `ey`, `LCD_Color_Fill` counts offsets and indexes a buffer. Both
end up as the same bus writes, row by row (`lcdFill_eq`, `lcdColorFill_eq`), which a controller turns
into the stores of the rectangle.
-/

namespace Stm32Board.Lcd

open Common

/-! ## The loops -/

/-- A row whose colours are all there. -/
theorem lcdRamRow_eq {n : UInt16} {data : UInt16 → Option UInt16} (f : ℕ → UInt16)
    (hdata : ∀ j < n.toNat, data (UInt16.ofNat j) = some (f j)) :
    lcdRamRow n data = some ((List.range n.toNat).flatMap fun j => lcdWrData (f j)) :=
  forLoop_lt_u16 _ fun j hj => by rw [hdata j hj]; rfl

/-- The number of columns, or rows, from `a` to `b`. -/
theorem toNat_span {a b : UInt16} (hab : a ≤ b) (hspan : b.toNat - a.toNat < 65535) :
    (b - a + 1).toNat = b.toNat - a.toNat + 1 := by
  rw [UInt16.toNat_add, UInt16.toNat_sub_of_le _ _ hab, UInt16.toNat_one]
  omega

variable (lcddev : LcdDev) {sx sy ex ey : UInt16}

/-- `LCD_Fill` writes the same row over and over, of the length the 16-bit `xlen` has. -/
theorem lcdFill_rows (hy : sy ≤ ey) (hey : ey.toNat < 65535) (color : UInt32) :
    lcdFill lcddev sx sy ex ey color =
      some ((List.range (ey.toNat - sy.toNat + 1)).flatMap fun i =>
        rowOps lcddev sx (sy + UInt16.ofNat i) (ex - sx + 1).toNat fun _ => color.toUInt16) := by
  rw [lcdFill]
  refine forLoop_le_u16 hy hey _ fun i _ => ?_
  rw [lcdRamRow_eq (fun _ => color.toUInt16) fun _ _ => rfl]
  rfl

theorem lcdFill_eq (hx : sx ≤ ex) (hw : ex.toNat - sx.toNat < 65535) (hy : sy ≤ ey)
    (hey : ey.toNat < 65535) (color : UInt32) :
    lcdFill lcddev sx sy ex ey color =
      some ((List.range (ey.toNat - sy.toNat + 1)).flatMap fun i =>
        rowOps lcddev sx (sy + UInt16.ofNat i) (ex.toNat - sx.toNat + 1)
          fun _ => color.toUInt16) := by
  rw [lcdFill_rows lcddev hy hey, toNat_span hx hw]

/-- A counter below a 16-bit bound. -/
theorem toNat_ofNat_lt {n : UInt16} {k : ℕ} (hk : k < n.toNat) : (UInt16.ofNat k).toNat = k :=
  UInt16.toNat_ofNat_of_lt' (hk.trans n.toNat_lt)

/-- `LCD_Color_Fill` writes the words found at `i*width+j`, as many as the 16-bit `height` and
`width` say. -/
theorem lcdColorFill_rows (color : List UInt16) (f : ℕ → ℕ → UInt16)
    (hcolor : ∀ i < (ey - sy + 1).toNat, ∀ j < (ex - sx + 1).toNat,
      colorAt color (i * (ex - sx + 1).toNat + j) = some (f i j)) :
    lcdColorFill lcddev sx sy ex ey color =
      some ((List.range (ey - sy + 1).toNat).flatMap fun i =>
        rowOps lcddev sx (sy + UInt16.ofNat i) (ex - sx + 1).toNat (f i)) := by
  rw [lcdColorFill]
  refine forLoop_lt_u16 _ fun i hi => ?_
  rw [lcdRamRow_eq (f i)]
  · rfl
  · intro j hj
    rw [toNat_ofNat_lt hi, toNat_ofNat_lt hj]
    exact hcolor i hi j hj

theorem lcdColorFill_eq (hx : sx ≤ ex) (hw : ex.toNat - sx.toNat < 65535) (hy : sy ≤ ey)
    (hh : ey.toNat - sy.toNat < 65535) (color : List UInt16) (f : ℕ → ℕ → UInt16)
    (hcolor : ∀ i < ey.toNat - sy.toNat + 1, ∀ j < ex.toNat - sx.toNat + 1,
      colorAt color (i * (ex.toNat - sx.toNat + 1) + j) = some (f i j)) :
    lcdColorFill lcddev sx sy ex ey color =
      some ((List.range (ey.toNat - sy.toNat + 1)).flatMap fun i =>
        rowOps lcddev sx (sy + UInt16.ofNat i) (ex.toNat - sx.toNat + 1) (f i)) := by
  rw [← toNat_span hx hw, ← toNat_span hy hh] at hcolor ⊢
  exact lcdColorFill_rows lcddev color f hcolor

/-! ## Areas of the graphics library -/

/-- The area lies on the screen. -/
structure LvArea.Inside (a : LvArea) : Prop where
  x1_nonneg : 0 ≤ a.x1.toInt
  x1_le : a.x1.toInt ≤ a.x2.toInt
  x2_lt : a.x2.toInt < lcddev.width.toNat
  y1_nonneg : 0 ≤ a.y1.toInt
  y1_le : a.y1.toInt ≤ a.y2.toInt
  y2_lt : a.y2.toInt < lcddev.height.toNat

/-- The pixels of an area. -/
def LvArea.Contains (a : LvArea) (p : Pixel) : Prop :=
  a.x1.toInt ≤ p.1 ∧ p.1 ≤ a.x2.toInt ∧ a.y1.toInt ≤ p.2 ∧ p.2 ≤ a.y2.toInt

def LvArea.width (a : LvArea) : ℕ := (a.x2.toInt - a.x1.toInt + 1).toNat

def LvArea.height (a : LvArea) : ℕ := (a.y2.toInt - a.y1.toInt + 1).toNat

/-- The place of a pixel in the buffer of its area. -/
def LvArea.index (a : LvArea) (p : Pixel) : ℕ :=
  (p.2 - a.y1.toInt.toNat) * a.width + (p.1 - a.x1.toInt.toNat)

/-- A coordinate of the screen is the same unsigned. -/
theorem toNat_toUInt16 {v : Int16} (h : 0 ≤ v.toInt) : v.toUInt16.toNat = v.toInt.toNat :=
  Int16.toNat_toUInt16_of_le (Int16.le_iff_toInt_le.mpr h)

variable {lcddev}

/-- An area on the screen in the coordinates of the driver. -/
structure AreaEdges (lcddev : LcdDev) (a : LvArea) : Prop where
  left_eq : a.x1.toUInt16.toNat = a.x1.toInt.toNat
  top_eq : a.y1.toUInt16.toNat = a.y1.toInt.toNat
  x_le : a.x1.toUInt16 ≤ a.x2.toUInt16
  x2_lt : a.x2.toUInt16.toNat < 32768
  y_le : a.y1.toUInt16 ≤ a.y2.toUInt16
  y2_lt : a.y2.toUInt16.toNat < 32768
  width_eq : a.x2.toUInt16.toNat - a.x1.toUInt16.toNat + 1 = a.width
  height_eq : a.y2.toUInt16.toNat - a.y1.toUInt16.toNat + 1 = a.height
  left_lt : a.x1.toUInt16 < lcddev.width
  width_fits : a.x1.toUInt16.toNat + a.width ≤ lcddev.width.toNat
  height_fits : a.y1.toUInt16.toNat + a.height ≤ lcddev.height.toNat

/-- The edges of an area of the screen. -/
theorem LvArea.Inside.edges {a : LvArea} (h : a.Inside lcddev) : AreaEdges lcddev a := by
  obtain ⟨hx1, hx, hxw, hy1, hy, hyh⟩ := h
  have hx2 := a.x2.toInt_lt
  have hy2 := a.y2.toInt_lt
  have hx1' := toNat_toUInt16 hx1
  have hx2' := toNat_toUInt16 (v := a.x2) (by omega)
  have hy1' := toNat_toUInt16 hy1
  have hy2' := toNat_toUInt16 (v := a.y2) (by omega)
  constructor <;>
    simp only [UInt16.le_iff_toNat_le, UInt16.lt_iff_toNat_lt, hx1', hx2', hy1', hy2',
      LvArea.width, LvArea.height] <;> omega

/-- The place of a pixel of the area is inside the buffer. -/
theorem index_lt {a : LvArea} {i j : ℕ} (hi : i < a.height) (hj : j < a.width) :
    i * a.width + j < a.width * a.height := by
  have hrow : i * a.width + j < (i + 1) * a.width := by
    rw [Nat.succ_mul]
    omega
  rw [Nat.mul_comm a.width]
  exact lt_of_lt_of_le hrow (Nat.mul_le_mul_right _ hi)

/-- A word of the buffer within reach of an `int` index. -/
theorem colorAt_eq_getD {color : List UInt16} {k : ℕ} (hint : k < 0x80000000)
    (hk : k < color.length) : colorAt color k = some (color.getD k 0) := by
  rw [colorAt, if_pos hint, List.getD_eq_getElem?_getD, List.getElem?_eq_getElem hk]
  rfl

/-- The colour of row `i` and column `j` of an area. -/
theorem colorAt_area {a : LvArea} (h : a.Inside lcddev) {color : List UInt16}
    (hlen : color.length = a.width * a.height) {i j : ℕ} (hi : i < a.height) (hj : j < a.width) :
    colorAt color (i * a.width + j) = some (color.getD (i * a.width + j) 0) := by
  have hedges := h.edges
  have hx2 := hedges.x2_lt
  have hy2 := hedges.y2_lt
  have hwidth := hedges.width_eq
  have hheight := hedges.height_eq
  have hlt : i * a.width + j < color.length := hlen ▸ index_lt hi hj
  have hint : a.width * a.height ≤ 32768 * 32768 := Nat.mul_le_mul (by omega) (by omega)
  exact colorAt_eq_getD (by omega) hlt

/-- What `disp_flush` stores. -/
theorem dispFlush_run (C : Controller lcddev) {a : LvArea} (h : a.Inside lcddev)
    {color : List UInt16} (hlen : color.length = a.width * a.height) {s : C.State}
    (hs : C.Full s) :
    ∃ ops, dispFlush lcddev a color = some ops ∧ C.Full (C.run s ops).1 ∧
      (C.run s ops).2 = rectStores a.x1.toInt.toNat a.y1.toInt.toNat a.width a.height
        fun i j => color.getD (i * a.width + j) 0 := by
  have hedges := h.edges
  have hx2 := hedges.x2_lt
  have hy2 := hedges.y2_lt
  have hops := lcdColorFill_eq lcddev hedges.x_le (by omega) hedges.y_le (by omega)
    color (fun i j => color.getD (i * a.width + j) 0) (by
      rw [hedges.width_eq, hedges.height_eq]
      exact fun i hi j hj => colorAt_area h hlen hi hj)
  obtain ⟨hstores, hfull⟩ := C.run_rect (fun i j => color.getD (i * a.width + j) 0) hs
    hedges.left_lt hedges.width_fits hedges.height_fits
  rw [hedges.width_eq, hedges.height_eq] at hops
  rw [hedges.left_eq, hedges.top_eq] at hstores
  exact ⟨_, hops, hfull, hstores⟩

/-- What `LCD_Fill` stores for the same corners. -/
theorem lcdFill_run (C : Controller lcddev) {a : LvArea} (h : a.Inside lcddev) (color : UInt32)
    {s : C.State} (hs : C.Full s) :
    ∃ ops, lcdFill lcddev a.x1.toUInt16 a.y1.toUInt16 a.x2.toUInt16 a.y2.toUInt16 color =
        some ops ∧
      (C.run s ops).2 = rectStores a.x1.toInt.toNat a.y1.toInt.toNat a.width a.height
        fun _ _ => color.toUInt16 := by
  have hedges := h.edges
  have hx2 := hedges.x2_lt
  have hy2 := hedges.y2_lt
  have hops := lcdFill_eq lcddev hedges.x_le (by omega) hedges.y_le (by omega) color
  obtain ⟨hstores, -⟩ := C.run_rect (fun _ _ => color.toUInt16) hs
    hedges.left_lt hedges.width_fits hedges.height_fits
  rw [hedges.width_eq, hedges.height_eq] at hops
  rw [hedges.left_eq, hedges.top_eq] at hstores
  exact ⟨_, hops, hstores⟩

/-- The stores of an area, pixel by pixel. -/
theorem mem_area_stores {a : LvArea} (h : a.Inside lcddev) {color : List UInt16}
    (hlen : color.length = a.width * a.height) (p : Pixel) (c : UInt16) :
    (p, c) ∈ rectStores a.x1.toInt.toNat a.y1.toInt.toNat a.width a.height
        (fun i j => color.getD (i * a.width + j) 0) ↔
      a.Contains p ∧ color[a.index p]? = some c := by
  obtain ⟨hx1, hx, -, hy1, hy, -⟩ := h
  have hinside : a.x1.toInt.toNat ≤ p.1 ∧ p.1 < a.x1.toInt.toNat + a.width ∧
      a.y1.toInt.toNat ≤ p.2 ∧ p.2 < a.y1.toInt.toNat + a.height ↔ a.Contains p := by
    rw [LvArea.Contains, LvArea.width, LvArea.height]
    omega
  rw [← hinside, mem_rectStores, and_assoc, and_assoc, and_assoc]
  refine and_congr_right fun hx₁ => and_congr_right fun hx₂ => and_congr_right fun hy₁ =>
    and_congr_right fun hy₂ => ?_
  have hlt := index_lt (a := a) (i := p.2 - a.y1.toInt.toNat) (j := p.1 - a.x1.toInt.toNat)
    (by omega) (by omega)
  rw [← hlen] at hlt
  rw [LvArea.index, List.getD_eq_getElem?_getD, List.getElem?_eq_getElem hlt, Option.getD_some,
    Option.some.injEq]

/-- Only the colours inside the rectangle matter. -/
theorem rectStores_congr {x y w h : ℕ} {f g : ℕ → ℕ → UInt16}
    (hfg : ∀ i < h, ∀ j < w, f i j = g i j) : rectStores x y w h f = rectStores x y w h g := by
  refine List.flatMap_congr fun i hi => List.map_congr_left fun j hj => ?_
  rw [hfg i (List.mem_range.mp hi) j (List.mem_range.mp hj)]

/-- `disp_flush` of an area of the screen stores every pixel of the area once, with the colour at
its place in the buffer, and no other pixel; `LCD_Fill` leaves the same screen as `LCD_Color_Fill`
of a buffer of one colour. -/
theorem dispFlush_correct (C : Controller lcddev) {a : LvArea} (h : a.Inside lcddev)
    {color : List UInt16} (hlen : color.length = a.width * a.height) {s : C.State}
    (hs : C.Full s) :
    (∃ ops, dispFlush lcddev a color = some ops ∧ C.Full (C.run s ops).1 ∧
      ((C.run s ops).2.map Prod.fst).Nodup ∧
      ∀ p c, (p, c) ∈ (C.run s ops).2 ↔ a.Contains p ∧ color[a.index p]? = some c) ∧
    ∀ fill : UInt32, ∃ ops ops',
      lcdFill lcddev a.x1.toUInt16 a.y1.toUInt16 a.x2.toUInt16 a.y2.toUInt16 fill = some ops ∧
      lcdColorFill lcddev a.x1.toUInt16 a.y1.toUInt16 a.x2.toUInt16 a.y2.toUInt16
        (List.replicate (a.width * a.height) fill.toUInt16) = some ops' ∧
      ∀ screen : Pixel → UInt16,
        applyWrites screen (C.run s ops).2 = applyWrites screen (C.run s ops').2 := by
  constructor
  · obtain ⟨ops, hops, hfull, hstores⟩ := dispFlush_run C h hlen hs
    refine ⟨ops, hops, hfull, ?_, fun p c => ?_⟩
    · rw [hstores]
      exact nodup_rectStores _ _ _ _ _
    · rw [hstores]
      exact mem_area_stores h hlen p c
  · intro fill
    obtain ⟨ops, hops, hstores⟩ := lcdFill_run C h fill hs
    obtain ⟨ops', hops', -, hstores'⟩ := dispFlush_run C h
      (List.length_replicate (n := a.width * a.height) (a := fill.toUInt16)) hs
    refine ⟨ops, ops', hops, hops', fun screen => ?_⟩
    rw [hstores, hstores']
    refine congrArg _ (rectStores_congr fun i hi j hj => ?_)
    rw [List.getD_eq_getElem?_getD, List.getElem?_replicate, if_pos (index_lt hi hj)]
    rfl

/-- Four pixels in the middle of the portrait screen of an ILI9341. -/
theorem dispFlush_correct_ili9341 :
    ∃ ops, dispFlush (lcdDisplayDirParams ⟨0, 0, 0x9341, 0, 0, 0, 0⟩ 0) ⟨100, 200, 101, 201⟩
        [1, 2, 3, 4] = some ops ∧
      ∀ p c, (p, c) ∈ ((Ili9341.controller
          (Ili9341.drives_lcdDisplayDirParams ⟨0, 0, 0x9341, 0, 0, 0, 0⟩ rfl 0)).run
          ⟨0, 239, 0, 319, 0, 0, 0, 0, 0⟩ ops).2 ↔
        LvArea.Contains ⟨100, 200, 101, 201⟩ p ∧
          [1, 2, 3, 4][LvArea.index ⟨100, 200, 101, 201⟩ p]? = some c := by
  have hfull : Ili9341.Full (lcdDisplayDirParams ⟨0, 0, 0x9341, 0, 0, 0, 0⟩ 0)
      ⟨0, 239, 0, 319, 0, 0, 0, 0, 0⟩ := by
    constructor <;> decide
  have hlen : [(1 : UInt16), 2, 3, 4].length =
      LvArea.width ⟨100, 200, 101, 201⟩ * LvArea.height ⟨100, 200, 101, 201⟩ := by decide
  obtain ⟨⟨ops, hops, -, -, hmem⟩, -⟩ := dispFlush_correct (Ili9341.controller
    (Ili9341.drives_lcdDisplayDirParams ⟨0, 0, 0x9341, 0, 0, 0, 0⟩ rfl 0))
    (a := ⟨100, 200, 101, 201⟩) (by constructor <;> decide) hlen hfull
  exact ⟨ops, hops, hmem⟩

end Stm32Board.Lcd
