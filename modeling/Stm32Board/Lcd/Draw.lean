import Stm32Board.Lcd.Defs
import Mathlib.Data.Int.Notation

/-!
# The drawing functions

Reference: `applications/LCD/drv_lcd.c` and `applications/LCD/font.h`.

A function that draws through `LCD_DrawPoint` or `LCD_Fast_DrawPoint` is modelled by the calls it
makes, and one that draws characters by its calls of `LCD_ShowChar`; the bus writes of those calls are
given beside them. The `int` locals stay far inside 32 bits and are integers here. A loop that does
not end and a read past a table are `none`.
-/

namespace Stm32Board.Lcd

open Common

/-! ## Points -/

/-- `LCD_DrawPoint`, with `POINT_COLOR`. -/
def lcdDrawPoint (lcddev : LcdDev) (x y : UInt16) (pointColor : UInt32) : List BusOp :=
  lcdSetCursor lcddev x y ++ lcdWriteRamPrepare lcddev ++ lcdWrData pointColor.toUInt16

def lcdFastDrawPoint (lcddev : LcdDev) (x y : UInt16) (color : UInt32) : List BusOp :=
  (if lcddev.id = 0x9341 ∨ lcddev.id = 0x5310 then
    lcdWrReg lcddev.setxcmd ++ lcdWrWord x ++
    lcdWrReg lcddev.setycmd ++ lcdWrWord y
  else if lcddev.id = 0x5510 then
    lcdWriteReg lcddev.setxcmd (x >>> 8) ++
    lcdWriteReg (lcddev.setxcmd + 1) (x &&& 0xFF) ++
    lcdWriteReg lcddev.setycmd (y >>> 8) ++
    lcdWriteReg (lcddev.setycmd + 1) (y &&& 0xFF)
  else if lcddev.id = 0x1963 then
    let x := if lcddev.dir = 0 then lcddev.width - 1 - x else x
    lcdWrReg lcddev.setxcmd ++ lcdWrWord x ++ lcdWrWord x ++
    lcdWrReg lcddev.setycmd ++ lcdWrWord y ++ lcdWrWord y
  else if lcddev.id = 0x6804 then
    let x := if lcddev.dir = 1 then lcddev.width - 1 - x else x
    lcdWrReg lcddev.setxcmd ++ lcdWrWord x ++
    lcdWrReg lcddev.setycmd ++ lcdWrWord y
  else
    let x := if lcddev.dir = 1 then lcddev.width - 1 - x else x
    lcdWriteReg lcddev.setxcmd x ++ lcdWriteReg lcddev.setycmd y) ++
  lcdWrReg lcddev.wramcmd ++ lcdWrData color.toUInt16

/-- `LCD_Clear`. -/
def lcdClear (lcddev : LcdDev) (color : UInt32) : Option (List BusOp) :=
  let totalpoint := lcddev.width.toUInt32 * lcddev.height.toUInt32
  (forLoop (· + 1) (fun index => decide (index < totalpoint))
    (fun _ => some (lcdWrData color.toUInt16)) fuelU32 (0 : UInt32)).map fun data =>
      lcdSetCursor lcddev 0 0 ++ lcdWriteRamPrepare lcddev ++ data

/-! ## Lines and circles -/

/-- The arguments of a call of `LCD_DrawPoint`. -/
abbrev Dot : Type := UInt16 × UInt16

/-- The conversion of an `int` argument to `u16`. -/
def dotAt (x y : ℤ) : Dot := (UInt16.ofInt x, UInt16.ofInt y)

/-- The locals of the loop of `LCD_DrawLine`. -/
structure LineState where
  t : UInt16
  xerr : ℤ
  yerr : ℤ
  uRow : ℤ
  uCol : ℤ

/-- The step direction of an axis: `incx`, `incy`. -/
def lineInc (delta : ℤ) : ℤ := if delta > 0 then 1 else if delta = 0 then 0 else -1

/-- `delta_x`, `delta_y` once negative ones are turned round. -/
def lineDelta (delta : ℤ) : ℤ := if delta > 0 then delta else if delta = 0 then delta else -delta

/-- One axis of the loop body: the error accumulates, and past `distance` the coordinate steps. -/
def lineAxis (distance delta inc err pos : ℤ) : ℤ × ℤ :=
  let err := err + delta
  if err > distance then (err - distance, pos + inc) else (err, pos)

/-- The body of the loop after the point is drawn. -/
def lineNext (distance deltaX deltaY incx incy : ℤ) (s : LineState) : LineState :=
  let x := lineAxis distance deltaX incx s.xerr s.uRow
  let y := lineAxis distance deltaY incy s.yerr s.uCol
  { t := s.t + 1, xerr := x.1, yerr := y.1, uRow := x.2, uCol := y.2 }

/-- `LCD_DrawLine`. -/
def lcdDrawLine (x1 y1 x2 y2 : UInt16) : Option (List Dot) :=
  let deltaX : ℤ := x2.toNat - x1.toNat
  let deltaY : ℤ := y2.toNat - y1.toNat
  let incx := lineInc deltaX
  let incy := lineInc deltaY
  let deltaX := lineDelta deltaX
  let deltaY := lineDelta deltaY
  let distance := if deltaX > deltaY then deltaX else deltaY
  forLoop (lineNext distance deltaX deltaY incx incy)
    (fun s => decide ((s.t.toNat : ℤ) ≤ distance + 1))
    (fun s => some [dotAt s.uRow s.uCol]) fuelU16
    { t := 0, xerr := 0, yerr := 0, uRow := x1.toNat, uCol := y1.toNat }

/-- The locals of the loop of `LCD_Draw_Circle`. -/
structure CircleState where
  a : ℤ
  b : ℤ
  di : ℤ
deriving DecidableEq, Repr

/-- The eight points of one round. -/
def circleDots (x0 y0 : UInt16) (a b : ℤ) : List Dot :=
  [dotAt (x0.toNat + a) (y0.toNat - b), dotAt (x0.toNat + b) (y0.toNat - a),
    dotAt (x0.toNat + b) (y0.toNat + a), dotAt (x0.toNat + a) (y0.toNat + b),
    dotAt (x0.toNat - a) (y0.toNat + b), dotAt (x0.toNat - b) (y0.toNat + a),
    dotAt (x0.toNat - a) (y0.toNat - b), dotAt (x0.toNat - b) (y0.toNat - a)]

/-- The body of the loop after the points are drawn. -/
def circleNext (s : CircleState) : CircleState :=
  let a := s.a + 1
  if s.di < 0 then { a := a, b := s.b, di := s.di + (4 * a + 6) }
  else { a := a, b := s.b - 1, di := s.di + (10 + 4 * (a - s.b)) }

def circleStart (r : UInt8) : CircleState where
  a := 0
  b := r.toNat
  di := 3 - 2 * r.toNat

/-- The loop of `LCD_Draw_Circle` for any use of the offsets `a` and `b` of a round. -/
def circleLoop {α : Type} (r : UInt8) (body : ℤ → ℤ → List α) : Option (List α) :=
  forLoop circleNext (fun s => decide (s.a ≤ s.b)) (fun s => some (body s.a s.b)) fuelU8
    (circleStart r)

/-- `LCD_Draw_Circle`. -/
def lcdDrawCircle (x0 y0 : UInt16) (r : UInt8) : Option (List Dot) :=
  circleLoop r (circleDots x0 y0)

/-! ## Characters -/

/-- The tables of `font.h`, the glyphs of the printable characters. -/
structure AsciiFonts where
  asc2_1206 : Fin 95 → Fin 12 → UInt8
  asc2_1608 : Fin 95 → Fin 16 → UInt8
  asc2_2412 : Fin 95 → Fin 36 → UInt8
  asc2_3216 : Fin 95 → Fin 128 → UInt8

/-- `table[num][t]`. -/
def tableByte {n : ℕ} (table : Fin 95 → Fin n → UInt8) (num t : UInt8) : Option UInt8 :=
  if h : num.toNat < 95 ∧ t.toNat < n then some (table ⟨num.toNat, h.1⟩ ⟨t.toNat, h.2⟩) else none

/-- A byte of a glyph; there is none for a size without a font, and a read past a table is
undefined. -/
def glyphByte (fonts : AsciiFonts) (size num t : UInt8) : Option (Option UInt8) :=
  if size = 12 then (tableByte fonts.asc2_1206 num t).map some
  else if size = 16 then (tableByte fonts.asc2_1608 num t).map some
  else if size = 24 then (tableByte fonts.asc2_2412 num t).map some
  else if size = 32 then (tableByte fonts.asc2_3216 num t).map some
  else some none

/-- The colours characters are drawn in: `POINT_COLOR` and `BACK_COLOR`. -/
structure Colors where
  point : UInt32
  back : UInt32
deriving DecidableEq, Repr

/-- A call of `LCD_Fast_DrawPoint`. -/
abbrev ColorDot : Type := Dot × UInt32

/-- The loop over the bits of a byte, `n` of them left, from `(x, y)`. It returns the cursor for the
next byte, or nothing once the function has returned. -/
def showCharBits (lcddev : LcdDev) (colors : Colors) (size mode : UInt8) (y0 : UInt16) :
    ℕ → UInt8 → UInt16 → UInt16 → List ColorDot × Option (UInt16 × UInt16)
  | 0, _, x, y => ([], some (x, y))
  | n + 1, temp, x, y =>
    let dot : List ColorDot :=
      if temp &&& 0x80 ≠ 0 then [((x, y), colors.point)]
      else if mode = 0 then [((x, y), colors.back)]
      else []
    let temp := temp <<< 1
    let y := y + 1
    if y ≥ lcddev.height then (dot, none)
    else if (y.toNat : ℤ) - y0.toNat = size.toNat then
      let x := x + 1
      if x ≥ lcddev.width then (dot, none) else (dot, some (x, y0))
    else
      let rest := showCharBits lcddev colors size mode y0 n temp x y
      (dot ++ rest.1, rest.2)

/-- The number of bytes of a glyph. -/
def csize (size : UInt8) : UInt8 := (size / 8 + (if size % 8 ≠ 0 then 1 else 0)) * (size / 2)

/-- The loop over the bytes of a glyph, from byte `t` and the cursor `(x, y)`. -/
def showCharBytes (lcddev : LcdDev) (colors : Colors) (fonts : AsciiFonts) (num size mode : UInt8)
    (y0 : UInt16) : ℕ → UInt8 → UInt16 → UInt16 → Option (List ColorDot)
  | 0, _, _, _ => none
  | fuel + 1, t, x, y =>
    if t < csize size then
      match glyphByte fonts size num t with
      | none => none
      | some none => some []
      | some (some temp) =>
        match showCharBits lcddev colors size mode y0 8 temp x y with
        | (dots, none) => some dots
        | (dots, some (x, y)) =>
          (showCharBytes lcddev colors fonts num size mode y0 fuel (t + 1) x y).map (dots ++ ·)
    else some []

/-- `LCD_ShowChar`. -/
def lcdShowChar (lcddev : LcdDev) (colors : Colors) (fonts : AsciiFonts) (x y : UInt16)
    (num size mode : UInt8) : Option (List ColorDot) :=
  showCharBytes lcddev colors fonts (num - 32) size mode y fuelU8 0 x y

/-- A call of `LCD_ShowChar`. -/
structure CharCall where
  x : UInt16
  y : UInt16
  num : UInt8
  size : UInt8
  mode : UInt8
deriving DecidableEq, Repr

/-! ## Numbers and strings -/

/-- `LCD_Pow`. -/
def lcdPow (m n : UInt8) : UInt32 := (· * m.toUInt32)^[n.toNat] 1

/-- `(num/LCD_Pow(10,len-t-1))%10`, undefined for a zero divisor. -/
def numTemp (num : UInt32) (len t : UInt8) : Option UInt8 :=
  let pow := lcdPow 10 (len - t - 1)
  if pow = 0 then none else some (num / pow % 10).toUInt8

/-- `enshow==0&&t<(len-1)`: no digit but zeros so far, and not the last position. -/
def Suppressing (len t : UInt8) (enshow : Bool) : Prop :=
  enshow = false ∧ (t.toNat : ℤ) < len.toNat - 1

instance (len t : UInt8) (enshow : Bool) : Decidable (Suppressing len t enshow) :=
  inferInstanceAs (Decidable (_ ∧ _))

/-- The loop of `LCD_ShowNum` and `LCD_ShowxNum` over the positions, with the character shown for a
leading zero and the mode the characters are drawn in. -/
def showNumLoop (x y : UInt16) (num : UInt32) (len size blank mode : UInt8) :
    Option (List CharCall) :=
  let charAt : UInt8 → UInt8 → CharCall := fun t ch =>
    { x := x + (size / 2).toUInt16 * t.toUInt16, y := y, num := ch, size := size, mode := mode }
  forLoop (fun (s : UInt8 × Bool) =>
      (s.1 + 1, if Suppressing len s.1 s.2 then decide (numTemp num len s.1 ≠ some 0) else s.2))
    (fun s => decide (s.1 < len))
    (fun s => (numTemp num len s.1).map fun temp =>
      if Suppressing len s.1 s.2 ∧ temp = 0 then [charAt s.1 blank] else [charAt s.1 (temp + 48)])
    fuelU8 (0, false)

/-- `LCD_ShowNum`. -/
def lcdShowNum (x y : UInt16) (num : UInt32) (len size : UInt8) : Option (List CharCall) :=
  showNumLoop x y num len size 32 0

/-- `LCD_ShowxNum`: bit 7 of `mode` fills with zeros, bit 0 is the mode of the characters. -/
def lcdShowxNum (x y : UInt16) (num : UInt32) (len size mode : UInt8) : Option (List CharCall) :=
  showNumLoop x y num len size (if mode &&& 0x80 ≠ 0 then 48 else 32) (mode &&& 0x01)

/-- The loop of `LCD_ShowString` on the characters left, with the ends of the region. -/
def showStringLoop (width height : UInt16) (size x0 : UInt8) :
    UInt16 → UInt16 → List UInt8 → List CharCall
  | _, _, [] => []
  | x, y, p :: ps =>
    if p ≤ 126 ∧ p ≥ 32 then
      let cursor := if x ≥ width then (x0.toUInt16, y + size.toUInt16) else (x, y)
      if cursor.2 ≥ height then []
      else
        { x := cursor.1, y := cursor.2, num := p, size := size, mode := 0 } ::
          showStringLoop width height size x0 (cursor.1 + (size / 2).toUInt16) cursor.2 ps
    else []

/-- `LCD_ShowString`, for the bytes of a string up to its terminator. The start column is kept in
eight bits. -/
def lcdShowString (x y width height : UInt16) (size : UInt8) (p : List UInt8) : List CharCall :=
  showStringLoop (width + x) (height + y) size x.toUInt8 x y p

end Stm32Board.Lcd
