import Stm32Board.Common.Loop
import Mathlib.Data.Nat.Notation

/-!
# The LCD driver

Reference: `applications/LCD/drv_lcd.h`, `applications/LCD/drv_lcd.c` and
`GUI_Vgl/lvgl_driver/lv_port_disp.c`.

The driver talks to the panel controller through two 16-bit bus addresses, `LCD->LCD_REG` and
`LCD->LCD_RAM`. A driver function is modelled by the list of bus writes it makes; the functions that
also change `lcddev` return it. Six command sets are distinguished by `lcddev.id`, and the
coordinates of some of them are mirrored in one of the two orientations.
-/

namespace Stm32Board.Lcd

open Common

/-- `_lcd_dev`. -/
structure LcdDev where
  width : UInt16
  height : UInt16
  id : UInt16
  dir : UInt8
  wramcmd : UInt16
  setxcmd : UInt16
  setycmd : UInt16
deriving DecidableEq, Repr

/-- One write to the controller: of a register number or of data. -/
inductive BusOp where
  | reg (regval : UInt16)
  | ram (data : UInt16)
deriving DecidableEq, Repr

def lcdWrReg (regval : UInt16) : List BusOp := [.reg regval]

def lcdWrData (data : UInt16) : List BusOp := [.ram data]

def lcdWriteReg (lcdReg lcdRegValue : UInt16) : List BusOp :=
  [.reg lcdReg, .ram lcdRegValue]

def lcdWriteRamPrepare (lcddev : LcdDev) : List BusOp := [.reg lcddev.wramcmd]

/-- The two data writes of a 16-bit parameter: `LCD_WR_DATA(v>>8);LCD_WR_DATA(v&0XFF)`. -/
def lcdWrWord (v : UInt16) : List BusOp :=
  lcdWrData (v >>> 8) ++ lcdWrData (v &&& 0xFF)

/-- A 16-bit parameter from its two bytes. -/
def wordOf (hi lo : UInt16) : UInt16 := hi * 256 + lo

/-- The bytes the driver sends make up the word. -/
theorem wordOf_bytes (v : UInt16) : wordOf (v >>> 8) (v &&& 0xFF) = v := by
  have hv := v.toNat_lt
  have hmask : (v &&& 0xFF).toNat = v.toNat % 256 := by
    rw [UInt16.toNat_and]
    exact Nat.and_two_pow_sub_one_eq_mod _ 8
  have hshift : (v >>> 8).toNat = v.toNat / 256 := by
    rw [UInt16.toNat_shiftRight]
    exact Nat.shiftRight_eq_div_pow _ 8
  have h256 : (256 : UInt16).toNat = 256 := rfl
  rw [wordOf, ← UInt16.toNat_inj, UInt16.toNat_add, UInt16.toNat_mul, hmask, hshift, h256]
  omega

/-! ## Cursor and window -/

def lcdSetCursor (lcddev : LcdDev) (xpos ypos : UInt16) : List BusOp :=
  if lcddev.id = 0x9341 ∨ lcddev.id = 0x5310 then
    lcdWrReg lcddev.setxcmd ++ lcdWrWord xpos ++
    lcdWrReg lcddev.setycmd ++ lcdWrWord ypos
  else if lcddev.id = 0x6804 then
    let xpos := if lcddev.dir = 1 then lcddev.width - 1 - xpos else xpos
    lcdWrReg lcddev.setxcmd ++ lcdWrWord xpos ++
    lcdWrReg lcddev.setycmd ++ lcdWrWord ypos
  else if lcddev.id = 0x1963 then
    (if lcddev.dir = 0 then
      let xpos := lcddev.width - 1 - xpos
      lcdWrReg lcddev.setxcmd ++ lcdWrData 0 ++ lcdWrData 0 ++ lcdWrWord xpos
    else
      lcdWrReg lcddev.setxcmd ++ lcdWrWord xpos ++ lcdWrWord (lcddev.width - 1)) ++
    lcdWrReg lcddev.setycmd ++ lcdWrWord ypos ++ lcdWrWord (lcddev.height - 1)
  else if lcddev.id = 0x5510 then
    lcdWriteReg lcddev.setxcmd (xpos >>> 8) ++
    lcdWriteReg (lcddev.setxcmd + 1) (xpos &&& 0xFF) ++
    lcdWriteReg lcddev.setycmd (ypos >>> 8) ++
    lcdWriteReg (lcddev.setycmd + 1) (ypos &&& 0xFF)
  else
    let xpos := if lcddev.dir = 1 then lcddev.width - 1 - xpos else xpos
    lcdWriteReg lcddev.setxcmd xpos ++ lcdWriteReg lcddev.setycmd ypos

def lcdSetWindow (lcddev : LcdDev) (sx sy width height : UInt16) : List BusOp :=
  let twidth := sx + width - 1
  let theight := sy + height - 1
  if lcddev.id = 0x9341 ∨ lcddev.id = 0x5310 ∨ lcddev.id = 0x6804 ∨
      (lcddev.dir = 1 ∧ lcddev.id = 0x1963) then
    lcdWrReg lcddev.setxcmd ++ lcdWrWord sx ++ lcdWrWord twidth ++
    lcdWrReg lcddev.setycmd ++ lcdWrWord sy ++ lcdWrWord theight
  else if lcddev.id = 0x1963 then
    let sx := lcddev.width - width - sx
    let height := sy + height - 1
    lcdWrReg lcddev.setxcmd ++ lcdWrWord sx ++ lcdWrWord (sx + width - 1) ++
    lcdWrReg lcddev.setycmd ++ lcdWrWord sy ++ lcdWrWord height
  else if lcddev.id = 0x5510 then
    lcdWriteReg lcddev.setxcmd (sx >>> 8) ++
    lcdWriteReg (lcddev.setxcmd + 1) (sx &&& 0xFF) ++
    lcdWriteReg (lcddev.setxcmd + 2) (twidth >>> 8) ++
    lcdWriteReg (lcddev.setxcmd + 3) (twidth &&& 0xFF) ++
    lcdWriteReg lcddev.setycmd (sy >>> 8) ++
    lcdWriteReg (lcddev.setycmd + 1) (sy &&& 0xFF) ++
    lcdWriteReg (lcddev.setycmd + 2) (theight >>> 8) ++
    lcdWriteReg (lcddev.setycmd + 3) (theight &&& 0xFF)
  else
    let (hsaval, heaval, vsaval, veaval) :=
      if lcddev.dir = 1 then (sy, theight, lcddev.width - twidth - 1, lcddev.width - sx - 1)
      else (sx, twidth, sy, theight)
    lcdWriteReg 0x50 hsaval ++ lcdWriteReg 0x51 heaval ++
    lcdWriteReg 0x52 vsaval ++ lcdWriteReg 0x53 veaval ++
    lcdSetCursor lcddev sx sy

/-! ## Orientation -/

def l2rU2d : UInt8 := 0
def dftScanDir : UInt8 := l2rU2d

/-- The direction after the conversion made in a rotated orientation. -/
def turnScanDir : UInt8 → UInt8
  | 0 => 6
  | 1 => 7
  | 2 => 4
  | 3 => 5
  | 4 => 1
  | 5 => 0
  | 6 => 3
  | 7 => 2
  | dir => dir

/-- `v<<n`, a register bit. -/
def bitAt (v n : UInt16) : UInt16 := v <<< n

/-- Bits 7 to 5 of the memory access register for a scan direction. -/
def madctlBits : UInt8 → UInt16
  | 0 => bitAt 0 7 ||| bitAt 0 6 ||| bitAt 0 5
  | 1 => bitAt 1 7 ||| bitAt 0 6 ||| bitAt 0 5
  | 2 => bitAt 0 7 ||| bitAt 1 6 ||| bitAt 0 5
  | 3 => bitAt 1 7 ||| bitAt 1 6 ||| bitAt 0 5
  | 4 => bitAt 0 7 ||| bitAt 0 6 ||| bitAt 1 5
  | 5 => bitAt 0 7 ||| bitAt 1 6 ||| bitAt 1 5
  | 6 => bitAt 1 7 ||| bitAt 0 6 ||| bitAt 1 5
  | 7 => bitAt 1 7 ||| bitAt 1 6 ||| bitAt 1 5
  | _ => 0

/-- Bits 5 to 3 of the entry mode register for a scan direction. -/
def entryModeBits : UInt8 → UInt16
  | 0 => bitAt 1 5 ||| bitAt 1 4 ||| bitAt 0 3
  | 1 => bitAt 0 5 ||| bitAt 1 4 ||| bitAt 0 3
  | 2 => bitAt 1 5 ||| bitAt 0 4 ||| bitAt 0 3
  | 3 => bitAt 0 5 ||| bitAt 0 4 ||| bitAt 0 3
  | 4 => bitAt 1 5 ||| bitAt 1 4 ||| bitAt 1 3
  | 5 => bitAt 1 5 ||| bitAt 0 4 ||| bitAt 1 3
  | 6 => bitAt 0 5 ||| bitAt 1 4 ||| bitAt 1 3
  | 7 => bitAt 0 5 ||| bitAt 0 4 ||| bitAt 1 3
  | _ => 0

/-- Exchange width and height. -/
def LcdDev.swap (lcddev : LcdDev) : LcdDev :=
  { lcddev with width := lcddev.height, height := lcddev.width }

def lcdScanDir (lcddev : LcdDev) (dir : UInt8) : LcdDev × List BusOp :=
  let dir :=
    if (lcddev.dir = 1 ∧ lcddev.id ≠ 0x6804 ∧ lcddev.id ≠ 0x1963) ∨
        (lcddev.dir = 0 ∧ lcddev.id = 0x1963) then turnScanDir dir
    else dir
  if lcddev.id = 0x9341 ∨ lcddev.id = 0x6804 ∨ lcddev.id = 0x5310 ∨ lcddev.id = 0x5510 ∨
      lcddev.id = 0x1963 then
    let regval := madctlBits dir
    let dirreg : UInt16 := if lcddev.id = 0x5510 then 0x3600 else 0x36
    let regval :=
      if lcddev.id ≠ 0x5310 ∧ lcddev.id ≠ 0x5510 ∧ lcddev.id ≠ 0x1963 then regval ||| 0x08
      else regval
    let regval := if lcddev.id = 0x6804 then regval ||| 0x02 else regval
    let lcddev :=
      if lcddev.id ≠ 0x1963 then
        if regval &&& 0x20 ≠ 0 then
          if lcddev.width < lcddev.height then lcddev.swap else lcddev
        else if lcddev.width > lcddev.height then lcddev.swap
        else lcddev
      else lcddev
    let window :=
      if lcddev.id = 0x5510 then
        lcdWriteReg lcddev.setxcmd 0 ++
        lcdWriteReg (lcddev.setxcmd + 1) 0 ++
        lcdWriteReg (lcddev.setxcmd + 2) ((lcddev.width - 1) >>> 8) ++
        lcdWriteReg (lcddev.setxcmd + 3) ((lcddev.width - 1) &&& 0xFF) ++
        lcdWriteReg lcddev.setycmd 0 ++
        lcdWriteReg (lcddev.setycmd + 1) 0 ++
        lcdWriteReg (lcddev.setycmd + 2) ((lcddev.height - 1) >>> 8) ++
        lcdWriteReg (lcddev.setycmd + 3) ((lcddev.height - 1) &&& 0xFF)
      else
        lcdWrReg lcddev.setxcmd ++ lcdWrData 0 ++ lcdWrData 0 ++ lcdWrWord (lcddev.width - 1) ++
        lcdWrReg lcddev.setycmd ++ lcdWrData 0 ++ lcdWrData 0 ++ lcdWrWord (lcddev.height - 1)
    (lcddev, lcdWriteReg dirreg regval ++ window)
  else
    (lcddev, lcdWriteReg 0x03 (entryModeBits dir ||| bitAt 1 12))

/-- The fields `LCD_Display_Dir` programs before it sets the scan direction. -/
def lcdDisplayDirParams (lcddev : LcdDev) (dir : UInt8) : LcdDev :=
  if dir = 0 then
    let lcddev := { lcddev with dir := 0, width := 240, height := 320 }
    if lcddev.id = 0x9341 ∨ lcddev.id = 0x6804 ∨ lcddev.id = 0x5310 then
      let lcddev := { lcddev with wramcmd := 0x2C, setxcmd := 0x2A, setycmd := 0x2B }
      if lcddev.id = 0x6804 ∨ lcddev.id = 0x5310 then
        { lcddev with width := 320, height := 480 }
      else lcddev
    else if lcddev.id = 0x5510 then
      { lcddev with
        wramcmd := 0x2C00, setxcmd := 0x2A00, setycmd := 0x2B00, width := 480, height := 800 }
    else if lcddev.id = 0x1963 then
      { lcddev with
        wramcmd := 0x2C, setxcmd := 0x2B, setycmd := 0x2A, width := 480, height := 800 }
    else
      { lcddev with wramcmd := 0x22, setxcmd := 0x20, setycmd := 0x21 }
  else
    let lcddev := { lcddev with dir := 1, width := 320, height := 240 }
    let lcddev :=
      if lcddev.id = 0x9341 ∨ lcddev.id = 0x5310 then
        { lcddev with wramcmd := 0x2C, setxcmd := 0x2A, setycmd := 0x2B }
      else if lcddev.id = 0x6804 then
        { lcddev with wramcmd := 0x2C, setxcmd := 0x2B, setycmd := 0x2A }
      else if lcddev.id = 0x5510 then
        { lcddev with
          wramcmd := 0x2C00, setxcmd := 0x2A00, setycmd := 0x2B00, width := 800, height := 480 }
      else if lcddev.id = 0x1963 then
        { lcddev with
          wramcmd := 0x2C, setxcmd := 0x2A, setycmd := 0x2B, width := 800, height := 480 }
      else
        { lcddev with wramcmd := 0x22, setxcmd := 0x21, setycmd := 0x20 }
    if lcddev.id = 0x6804 ∨ lcddev.id = 0x5310 then
      { lcddev with width := 480, height := 320 }
    else lcddev

def lcdDisplayDir (lcddev : LcdDev) (dir : UInt8) : LcdDev × List BusOp :=
  lcdScanDir (lcdDisplayDirParams lcddev dir) dftScanDir

/-! ## Filling -/

/-- The loop `for(j=0;j<n;j++)LCD->LCD_RAM=...` over one row. -/
def lcdRamRow (n : UInt16) (data : UInt16 → Option UInt16) : Option (List BusOp) :=
  forLoop (· + 1) (fun j => decide (j < n)) (fun j => (data j).map lcdWrData) fuelU16 0

def lcdFill (lcddev : LcdDev) (sx sy ex ey : UInt16) (color : UInt32) : Option (List BusOp) :=
  let xlen := ex - sx + 1
  forLoop (· + 1) (fun i => decide (i ≤ ey)) (fun i =>
    (lcdRamRow xlen fun _ => some color.toUInt16).map fun row =>
      lcdSetCursor lcddev sx i ++ lcdWriteRamPrepare lcddev ++ row) fuelU16 sy

/-- `color[k]` for an `int` index: an overflow or a read past the buffer is undefined. -/
def colorAt (color : List UInt16) (k : ℕ) : Option UInt16 :=
  if k < 0x80000000 then color[k]? else none

def lcdColorFill (lcddev : LcdDev) (sx sy ex ey : UInt16) (color : List UInt16) :
    Option (List BusOp) :=
  let width := ex - sx + 1
  let height := ey - sy + 1
  forLoop (· + 1) (fun i => decide (i < height)) (fun i =>
    (lcdRamRow width fun j => colorAt color (i.toNat * width.toNat + j.toNat)).map fun row =>
      lcdSetCursor lcddev sx (sy + i) ++ lcdWriteRamPrepare lcddev ++ row) fuelU16 0

/-- `lv_area_t`; `lv_coord_t` is a signed 16-bit integer. -/
structure LvArea where
  x1 : Int16
  y1 : Int16
  x2 : Int16
  y2 : Int16
deriving DecidableEq, Repr

/-- `disp_flush`, up to its report to the graphics library. -/
def dispFlush (lcddev : LcdDev) (area : LvArea) (colorP : List UInt16) : Option (List BusOp) :=
  lcdColorFill lcddev area.x1.toUInt16 area.y1.toUInt16 area.x2.toUInt16 area.y2.toUInt16 colorP

end Stm32Board.Lcd
