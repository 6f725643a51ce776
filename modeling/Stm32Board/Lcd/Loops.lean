import Stm32Board.Lcd.Fill
import Stm32Board.Lcd.Line
import Mathlib.Algebra.Order.BigOperators.Group.List

/-!
# The drawing loops over all their arguments

Reference: `LCD_Fill`, `LCD_Color_Fill` and `LCD_DrawLine` of `applications/LCD/drv_lcd.c`.

The loops count in 16 bits: up to a bound they have to pass (`t<=distance+1`, `i<=ey`), or up to a
length that is itself a 16-bit number (`xlen`, `width`, `height`). Near the end of the range the bound
cannot be passed, or the length is zero (`drawingLoops_iff`).
-/

namespace Stm32Board.Lcd

open Common

/-- The loop of `LCD_DrawLine` ends after `distance + 2` points. -/
def LineEnds (p q : Dot) : Prop :=
  ∃ dots, lcdDrawLine p.1 p.2 q.1 q.2 = some dots ∧ dots.length = lineDistance p q + 2

/-- The loops of a fill end after `ey-sy+1` rows of `ex-sx+1` words each. -/
def FillEnds (lcddev : LcdDev) (sx sy ex ey : UInt16) (ops : Option (List BusOp)) : Prop :=
  ∃ f : ℕ → ℕ → UInt16, ops =
    some ((List.range (ey.toNat - sy.toNat + 1)).flatMap fun i =>
      rowOps lcddev sx (sy + UInt16.ofNat i) (ex.toNat - sx.toNat + 1) (f i))

/-- The counter of the line reaches one past its length. -/
theorem lineEnds_iff (p q : Dot) : LineEnds p q ↔ lineDistance p q ≤ 65533 := by
  constructor
  · rintro ⟨dots, hdots, -⟩
    by_contra hlong
    rw [lcdDrawLine_eq_none (by omega)] at hdots
    exact absurd hdots (by simp)
  · intro h
    refine ⟨_, lcdDrawLine_eq_some h, ?_⟩
    rw [List.length_map, List.length_range]

/-! ## Lengths that wrap -/

section Fill

variable {lcddev : LcdDev} {sx sy ex ey : UInt16}

/-- The whole range of a coordinate has a length that is zero in 16 bits. -/
theorem span_eq_zero {a b : UInt16} (hab : a ≤ b) (h : ¬b.toNat - a.toNat < 65535) :
    (b - a + 1).toNat = 0 := by
  have hb := b.toNat_lt
  rw [UInt16.toNat_add, UInt16.toNat_sub_of_le _ _ hab, UInt16.toNat_one]
  omega

/-- A row is a cursor and its data. -/
theorem length_rowOps (xpos ypos : UInt16) (w : ℕ) (f : ℕ → UInt16) :
    (rowOps lcddev xpos ypos w f).length =
      (lcdSetCursor lcddev xpos ypos ++ lcdWriteRamPrepare lcddev).length + w := by
  rw [rowOps, List.length_append, List.length_flatMap]
  simp [lcdWrData]

/-- Rows without words are not the rows of a rectangle. -/
theorem not_fillEnds_rows_zero (f : ℕ → ℕ → UInt16) :
    ¬FillEnds lcddev sx sy ex ey (some ((List.range (ey.toNat - sy.toNat + 1)).flatMap fun i =>
      rowOps lcddev sx (sy + UInt16.ofNat i) 0 (f i))) := by
  rintro ⟨g, hg⟩
  have hlength := congrArg List.length (Option.some.inj hg)
  rw [List.length_flatMap, List.length_flatMap] at hlength
  refine absurd hlength (Nat.ne_of_lt (List.sum_lt_sum_of_ne_nil (by simp) _ _ fun i _ => ?_))
  rw [length_rowOps, length_rowOps]
  omega

/-- A fill that does nothing is not the fill of a rectangle. -/
theorem not_fillEnds_nil : ¬FillEnds lcddev sx sy ex ey (some []) := by
  rintro ⟨g, hg⟩
  have hrow := List.flatMap_eq_nil_iff.mp (Option.some.inj hg).symm 0 (by simp)
  have hlength := congrArg List.length hrow
  rw [length_rowOps] at hlength
  exact absurd hlength (by simp)

/-! ## The fills -/

/-- The two counters of `LCD_Fill` must not be at their last values. -/
theorem fillEnds_lcdFill_iff (hx : sx ≤ ex) (hy : sy ≤ ey) (color : UInt32) :
    FillEnds lcddev sx sy ex ey (lcdFill lcddev sx sy ex ey color) ↔
      ey.toNat < 65535 ∧ ex.toNat - sx.toNat < 65535 := by
  constructor
  · intro h
    have hrows : ey.toNat < 65535 := by
      by_contra hlast
      -- no 16-bit row lies past the last one
      have hnone : lcdFill lcddev sx sy ex ey color = none := by
        refine forLoop_eq_none fun k _ => ?_
        rw [decide_eq_true_eq, UInt16.le_iff_toNat_le]
        have hk := ((· + 1)^[k] sy).toNat_lt
        omega
      obtain ⟨f, hf⟩ := h
      exact absurd (hnone.symm.trans hf) (by simp)
    refine ⟨hrows, ?_⟩
    by_contra hwide
    rw [lcdFill_rows lcddev hy hrows, span_eq_zero hx hwide] at h
    exact not_fillEnds_rows_zero _ h
  · rintro ⟨hrows, hwide⟩
    exact ⟨_, lcdFill_eq lcddev hx hwide hy hrows color⟩

/-- A buffer of too many words for its `int` index. -/
theorem lcdColorFill_eq_none (hx : sx ≤ ex) (hy : sy ≤ ey) (hw : ex.toNat - sx.toNat < 65535)
    (hh : ey.toNat - sy.toNat < 65535)
    (hbig : 0x80000000 < (ey.toNat - sy.toNat + 1) * (ex.toNat - sx.toNat + 1))
    (color : List UInt16) : lcdColorFill lcddev sx sy ex ey color = none := by
  have hwidth := toNat_span hx hw
  have hheight := toNat_span hy hh
  -- the word of the last row and column is out of reach
  have hlast : colorAt color ((ey.toNat - sy.toNat) * (ex.toNat - sx.toNat + 1) +
      (ex.toNat - sx.toNat)) = none := by
    rw [Nat.succ_mul] at hbig
    exact if_neg (by omega)
  have hrow : ey.toNat - sy.toNat < (ey - sy + 1).toNat := by omega
  have hcolumn : ex.toNat - sx.toNat < (ex - sx + 1).toNat := by omega
  rw [lcdColorFill]
  refine forLoop_lt_u16_eq_none hrow ?_
  rw [Option.map_eq_none_iff]
  refine forLoop_lt_u16_eq_none hcolumn ?_
  rw [Option.map_eq_none_iff]
  dsimp only
  rw [toNat_ofNat_lt hrow, toNat_ofNat_lt hcolumn, hwidth]
  exact hlast

/-- Those of `LCD_Color_Fill` count from zero. -/
theorem fillEnds_lcdColorFill_iff (hx : sx ≤ ex) (hy : sy ≤ ey) {color : List UInt16}
    (hcolor : (ey.toNat - sy.toNat + 1) * (ex.toNat - sx.toNat + 1) ≤ color.length) :
    FillEnds lcddev sx sy ex ey (lcdColorFill lcddev sx sy ex ey color) ↔
      ey.toNat - sy.toNat < 65535 ∧ ex.toNat - sx.toNat < 65535 ∧
        (ey.toNat - sy.toNat + 1) * (ex.toNat - sx.toNat + 1) ≤ 0x80000000 := by
  constructor
  · intro h
    -- with a counter at its last value one of the loops makes no round
    have hheight : ey.toNat - sy.toNat < 65535 := by
      by_contra htall
      have hnil : lcdColorFill lcddev sx sy ex ey color = some [] := by
        rw [lcdColorFill_rows lcddev color fun _ _ => 0]
        · rw [span_eq_zero hy htall]
          rfl
        · rw [span_eq_zero hy htall]
          exact fun i hi => absurd hi (Nat.not_lt_zero i)
      rw [hnil] at h
      exact not_fillEnds_nil h
    have hwidth : ex.toNat - sx.toNat < 65535 := by
      by_contra hwide
      rw [lcdColorFill_rows lcddev color (fun _ _ => 0), toNat_span hy hheight,
        span_eq_zero hx hwide] at h
      · exact not_fillEnds_rows_zero _ h
      · rw [span_eq_zero hx hwide]
        exact fun i _ j hj => absurd hj (Nat.not_lt_zero j)
    refine ⟨hheight, hwidth, ?_⟩
    by_contra hbig
    obtain ⟨f, hf⟩ := h
    rw [lcdColorFill_eq_none hx hy hwidth hheight (by omega)] at hf
    exact absurd hf (by simp)
  · rintro ⟨hheight, hwidth, hint⟩
    refine ⟨_, lcdColorFill_eq lcddev hx hwidth hy hheight color
      (fun i j => color.getD (i * (ex.toNat - sx.toNat + 1) + j) 0) fun i hi j hj => ?_⟩
    -- every index is inside the buffer
    have hindex : i * (ex.toNat - sx.toNat + 1) + j <
        (ey.toNat - sy.toNat + 1) * (ex.toNat - sx.toNat + 1) := by
      have hrow := Nat.mul_le_mul_right (ex.toNat - sx.toNat + 1) (Nat.succ_le_of_lt hi)
      rw [Nat.succ_mul] at hrow
      omega
    exact colorAt_eq_getD (by omega) (by omega)

end Fill

/-! ## All arguments -/

/-- **The drawing loops.** A line ends after its points when its longer distance is at most 65533. A
fill of one colour ends after its rows when the last row is not 65535 and the columns are not all
65536; a fill from a buffer that holds the words of the rectangle does when neither the rows nor the
columns are all 65536 and the index of the last word is an `int`. -/
theorem drawingLoops_iff (lcddev : LcdDev) :
    (∀ p q, LineEnds p q ↔ lineDistance p q ≤ 65533) ∧
    (∀ (sx sy ex ey : UInt16) (color : UInt32), sx ≤ ex → sy ≤ ey →
      (FillEnds lcddev sx sy ex ey (lcdFill lcddev sx sy ex ey color) ↔
        ey.toNat < 65535 ∧ ex.toNat - sx.toNat < 65535)) ∧
    ∀ (sx sy ex ey : UInt16) (color : List UInt16), sx ≤ ex → sy ≤ ey →
      (ey.toNat - sy.toNat + 1) * (ex.toNat - sx.toNat + 1) ≤ color.length →
      (FillEnds lcddev sx sy ex ey (lcdColorFill lcddev sx sy ex ey color) ↔
        ey.toNat - sy.toNat < 65535 ∧ ex.toNat - sx.toNat < 65535 ∧
          (ey.toNat - sy.toNat + 1) * (ex.toNat - sx.toNat + 1) ≤ 0x80000000) :=
  ⟨lineEnds_iff, fun _ _ _ _ color hx hy => fillEnds_lcdFill_iff hx hy color,
    fun _ _ _ _ _ hx hy hcolor => fillEnds_lcdColorFill_iff hx hy hcolor⟩

/-- A short line and two small rectangles on an upright ILI9341. -/
theorem drawingLoops_small :
    let lcddev := lcdDisplayDirParams ⟨0, 0, 0x9341, 0, 0, 0, 0⟩ 0
    LineEnds (0, 0) (2, 1) ∧ FillEnds lcddev 1 2 3 4 (lcdFill lcddev 1 2 3 4 0xF800) ∧
      FillEnds lcddev 1 2 2 3 (lcdColorFill lcddev 1 2 2 3 [1, 2, 3, 4]) := by
  intro lcddev
  obtain ⟨hline, hfill, hcolor⟩ := drawingLoops_iff lcddev
  exact ⟨(hline _ _).mpr (by decide), (hfill 1 2 3 4 _ (by decide) (by decide)).mpr (by decide),
    (hcolor 1 2 2 3 [1, 2, 3, 4] (by decide) (by decide) (by decide)).mpr (by decide)⟩

/-- A line over the whole range and a fill of the last row never end, and a fill of a whole row from a
buffer draws nothing. -/
theorem not_drawingLoops_whole_range :
    let lcddev := lcdDisplayDirParams ⟨0, 0, 0x9341, 0, 0, 0, 0⟩ 0
    ¬LineEnds (0, 0) (65535, 0) ∧
      ¬FillEnds lcddev 0 65535 0 65535 (lcdFill lcddev 0 65535 0 65535 0xF800) ∧
      ¬FillEnds lcddev 0 0 65535 0 (lcdColorFill lcddev 0 0 65535 0 (List.replicate 65536 0)) := by
  intro lcddev
  refine ⟨?_, ?_, ?_⟩
  · rw [lineEnds_iff]
    decide
  · rw [fillEnds_lcdFill_iff (by decide) (by decide)]
    decide
  · rw [fillEnds_lcdColorFill_iff (by decide) (by decide) (by rw [List.length_replicate]; decide)]
    decide

end Stm32Board.Lcd
