import Stm32Board.Common.ExactFloat
import Mathlib.Logic.Function.Basic
import Mathlib.Tactic.SplitIfs

/-!
# Scanning the resistive touch panel

Reference: `applications/TOUCH/touch.h`, `applications/TOUCH/touch.c` and
`GUI_Vgl/lvgl_driver/lv_port_indev.c`.

`tp_dev` holds the last point, the pen state bits and the calibration. A scan sees the level of the
pen line and, when the pen is down, the outcome of `TP_Read_XY2`: an accepted pair of readings or a
rejection, which leaves the coordinates untouched.
-/

namespace Stm32Board.Touch

open Common

def tpPresDown : UInt8 := 0x80
def tpCathPres : UInt8 := 0x40

/-- Indices of the four calibration points are written as numerals. -/
instance neZero_four : NeZero 4 := ⟨by decide⟩

/-- So are the indices of the five coordinates of `tp_dev`. -/
instance neZero_five : NeZero 5 := ⟨by decide⟩

/-- A pair of coordinates, raw or on the screen. -/
abbrev Point : Type := UInt16 × UInt16

/-- The calibration fields of `_m_tp_dev`, from `xfac` to `touchtype`. -/
structure AdjData where
  xfac : ExactFloat
  yfac : ExactFloat
  xoff : Int16
  yoff : Int16
  touchtype : UInt8
deriving DecidableEq

/-- `_m_tp_dev`, without the three function pointers. -/
structure TpDev extends AdjData where
  x : Fin 5 → UInt16
  y : Fin 5 → UInt16
  sta : UInt8

/-- The point of the last scan, `x[0]` and `y[0]`. -/
def TpDev.point (d : TpDev) : Point := (d.x 0, d.y 0)

/-- Write `x[i]` and `y[i]`. -/
def TpDev.setPoint (d : TpDev) (i : Fin 5) (p : Point) : TpDev :=
  { d with x := Function.update d.x i p.1, y := Function.update d.y i p.2 }

/-- The first pair of coordinates is the point. -/
@[simp] theorem TpDev.point_setPoint_zero (d : TpDev) (p : Point) :
    (d.setPoint 0 p).point = p := by
  simp [point, setPoint]

@[simp] theorem TpDev.point_setPoint_four (d : TpDev) (p : Point) :
    (d.setPoint 4 p).point = d.point := by
  simp [point, setPoint]

/-- The pen line during one scan, high when nothing touches the panel, and the outcome of
`TP_Read_XY2` in case it is called: the accepted pair, or `none` for a rejected reading. -/
structure PenSample where
  pen : Bool
  reading : Option Point
deriving DecidableEq, Repr

/-- The conversion of a raw coordinate by a factor and an offset. -/
abbrev Conversion : Type := ExactFloat → Int16 → UInt16 → UInt16

/-- The conversion `TP_Scan` makes: `fac*raw+off` stored into 16 unsigned bits. -/
def tpConvert : Conversion := fun fac off raw =>
  UInt16.ofNat ((fac.mul (.ofInt raw.toNat)).add (.ofInt off.toInt)).toUInt32

/-- The point an accepted reading stands for: raw when `tp` is not zero, else converted. -/
def tpPoint (conv : Conversion) (tp : UInt8) (adj : AdjData) (raw : Point) : Point :=
  if tp ≠ 0 then raw else (conv adj.xfac adj.xoff raw.1, conv adj.yfac adj.yoff raw.2)

/-- `tp_dev.sta&TP_PRES_DOWN`, the press flag. -/
def TpDev.Pressed (d : TpDev) : Prop := d.sta &&& tpPresDown ≠ 0

instance (d : TpDev) : Decidable d.Pressed := inferInstanceAs (Decidable (_ ≠ _))

/-- `x[0]` and `y[0]` after `TP_Read_XY2`, and the conversion when `tp` is zero. -/
def tpReadPoint (conv : Conversion) (tp : UInt8) (reading : Option Point) (d : TpDev) : TpDev :=
  match reading with
  | none => d
  | some raw => d.setPoint 0 (tpPoint conv tp d.toAdjData raw)

/-- `TP_Scan`: the device afterwards and the value returned. -/
def tpScan (conv : Conversion) (tp : UInt8) (s : PenSample) (d : TpDev) : TpDev × UInt8 :=
  let d :=
    if s.pen = false then
      let d := tpReadPoint conv tp s.reading d
      if d.Pressed then d
      else { d.setPoint 4 d.point with sta := tpPresDown ||| tpCathPres }
    else if d.Pressed then
      { d with sta := d.sta &&& ~~~((1 : UInt8) <<< 7) }
    else
      (d.setPoint 4 (0, 0)).setPoint 0 (0xffff, 0xffff)
  (d, d.sta &&& tpPresDown)

/-! ## The input device of the graphics library -/

/-- `lv_indev_state_t`. -/
inductive LvIndevState where
  | rel
  | pr
deriving DecidableEq, Repr

/-- The part of `lv_indev_data_t` the driver fills in; `lv_coord_t` is a signed 16-bit integer. -/
structure LvIndevData where
  point : Int16 × Int16
  state : LvIndevState
deriving DecidableEq, Repr

/-- `touchpad_read`, with the statics `last_x` and `last_y` passed along. -/
def touchpadRead (last : Point) (d : TpDev) : LvIndevData × Point :=
  if d.Pressed then
    let last := d.point
    ({ point := (last.1.toInt16, last.2.toInt16), state := .pr }, last)
  else
    ({ point := (last.1.toInt16, last.2.toInt16), state := .rel }, last)

/-! ## What one scan does -/

/-- A press has ended and has not been taken note of: `(tp_dev.sta&0xc0)==TP_CATH_PRES`. -/
def TpDev.Caught (d : TpDev) : Prop := d.sta &&& 0xc0 = tpCathPres

instance (d : TpDev) : Decidable d.Caught := inferInstanceAs (Decidable (_ = _))

/-- A press that was caught is over. -/
theorem TpDev.Caught.not_pressed {d : TpDev} (h : d.Caught) : ¬d.Pressed := by
  have hmask : (0xc0 : UInt8) &&& tpPresDown = tpPresDown := by decide
  rw [Pressed, not_not, ← hmask, ← UInt8.and_assoc, h]
  decide

section tpScan

variable (conv : Conversion) (tp : UInt8) {s : PenSample} {d : TpDev}

/-- A reading writes the point and nothing else. -/
theorem tpReadPoint_eq (reading : Option Point) (d : TpDev) :
    (tpReadPoint conv tp reading d).toAdjData = d.toAdjData ∧
      (tpReadPoint conv tp reading d).sta = d.sta ∧
      (tpReadPoint conv tp reading d).point =
        (reading.map (tpPoint conv tp d.toAdjData)).getD d.point := by
  cases reading with
  | none => exact ⟨rfl, rfl, rfl⟩
  | some raw => exact ⟨rfl, rfl, d.point_setPoint_zero _⟩

/-- It does not press or release. -/
theorem tpReadPoint_pressed (reading : Option Point) (d : TpDev) :
    (tpReadPoint conv tp reading d).Pressed ↔ d.Pressed := by
  rw [TpDev.Pressed, (tpReadPoint_eq conv tp reading d).2.1, TpDev.Pressed]

/-- While the pen is down the flags of a running press are kept, and a new press sets both. -/
theorem tpScan_sta_down (hpen : s.pen = false) :
    (tpScan conv tp s d).1.sta = if d.Pressed then d.sta else tpPresDown ||| tpCathPres := by
  simp only [tpScan, if_pos hpen, tpReadPoint_pressed]
  split_ifs
  · exact (tpReadPoint_eq conv tp s.reading d).2.1
  · rfl

/-- A scan with the pen up clears the press flag and leaves the other bits. -/
theorem tpScan_sta_up (hpen : s.pen = true) :
    (tpScan conv tp s d).1.sta = if d.Pressed then d.sta &&& ~~~((1 : UInt8) <<< 7) else d.sta := by
  simp only [tpScan, hpen, Bool.true_eq_false, if_false]
  split_ifs <;> rfl

/-- After a scan the press flag is the level of the pen line. -/
theorem tpScan_pressed_iff : (tpScan conv tp s d).1.Pressed ↔ s.pen = false := by
  rw [TpDev.Pressed]
  cases hpen : s.pen with
  | false =>
    rw [tpScan_sta_down conv tp hpen]
    split_ifs with h
    · exact iff_of_true h rfl
    · exact iff_of_true (by decide) rfl
  | true =>
    rw [tpScan_sta_up conv tp hpen]
    refine iff_of_false (not_not.mpr ?_) (by simp)
    split_ifs with h
    · have hmask : ~~~((1 : UInt8) <<< 7) &&& tpPresDown = 0 := by decide
      rw [UInt8.and_assoc, hmask, UInt8.and_zero]
    · exact not_not.mp h

/-- A press is caught by the scan that sees the pen come up. -/
theorem tpScan_caught (h : ¬d.Caught) (hcaught : (tpScan conv tp s d).1.Caught) :
    s.pen = true ∧ d.Pressed := by
  have hpen : s.pen = true := by
    by_contra hdown
    exact hcaught.not_pressed ((tpScan_pressed_iff conv tp).mpr (by simpa using hdown))
  refine ⟨hpen, ?_⟩
  by_contra hup
  rw [TpDev.Caught, tpScan_sta_up conv tp hpen, if_neg hup] at hcaught
  exact h hcaught

/-- With the pen down the point is the one the reading stands for, if it is accepted. -/
theorem tpScan_point_down (hpen : s.pen = false) :
    (tpScan conv tp s d).1.point =
      (s.reading.map (tpPoint conv tp d.toAdjData)).getD d.point := by
  rw [← (tpReadPoint_eq conv tp s.reading d).2.2]
  simp only [tpScan, if_pos hpen]
  split_ifs
  · rfl
  · exact TpDev.point_setPoint_four _ (tpReadPoint conv tp s.reading d).point

/-- At the release the point of the press stays. -/
theorem tpScan_point_release (hpen : s.pen = true) (h : d.Pressed) :
    (tpScan conv tp s d).1.point = d.point := by
  simp only [tpScan, hpen, Bool.true_eq_false, if_false, if_pos h]
  rfl

/-- A scan that finds nobody at the panel writes the point over. -/
theorem tpScan_point_idle (hpen : s.pen = true) (h : ¬d.Pressed) :
    (tpScan conv tp s d).1.point = (0xffff, 0xffff) := by
  simp only [tpScan, hpen, Bool.true_eq_false, if_false, if_neg h]
  exact TpDev.point_setPoint_zero _ _

end tpScan

/-- A pressed device hands its point to the graphics library. -/
theorem touchpadRead_of_pressed (last : Point) {d : TpDev} (h : d.Pressed) :
    touchpadRead last d =
      ({ point := (d.point.1.toInt16, d.point.2.toInt16), state := .pr }, d.point) :=
  if_pos h

end Stm32Board.Touch
