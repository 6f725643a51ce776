import Stm32Board.Lcd.Controller
import Mathlib.Tactic.ByContra
import Mathlib.Tactic.SplitIfs

/-!
# The ILI9341

The part of the controller the driver relies on: the column and page address commands set a start
with their first two parameters and an end with the next two, and a memory write starts at the two
starts, advances along the row and wraps inside the window.
-/

namespace Stm32Board.Lcd

/-- The address registers, the command being served and the position of the next store. -/
structure Ili9341 where
  columnStart : UInt16
  columnEnd : UInt16
  pageStart : UInt16
  pageEnd : UInt16
  command : UInt16
  params : ℕ
  high : UInt16
  column : UInt16
  page : UInt16
deriving DecidableEq, Repr

namespace Ili9341

/-- The position after a store: the next column, wrapping to the next page of the window. -/
def advance (s : Ili9341) : Ili9341 :=
  if s.column = s.columnEnd then
    { s with
      column := s.columnStart
      page := if s.page = s.pageEnd then s.pageStart else s.page + 1 }
  else { s with column := s.column + 1 }

/-- A parameter of the column address command. -/
def columnParam (s : Ili9341) (d : UInt16) : Ili9341 :=
  let s' := { s with params := s.params + 1 }
  if s.params = 1 then { s' with columnStart := wordOf s.high d }
  else if s.params = 3 then { s' with columnEnd := wordOf s.high d }
  else { s' with high := d }

/-- A parameter of the page address command. -/
def pageParam (s : Ili9341) (d : UInt16) : Ili9341 :=
  let s' := { s with params := s.params + 1 }
  if s.params = 1 then { s' with pageStart := wordOf s.high d }
  else if s.params = 3 then { s' with pageEnd := wordOf s.high d }
  else { s' with high := d }

/-- One bus write. -/
def step (s : Ili9341) : BusOp → Ili9341 × List PixelStore
  | .reg r =>
    if r = 0x2C then
      ({ s with command := r, params := 0, column := s.columnStart, page := s.pageStart }, [])
    else ({ s with command := r, params := 0 }, [])
  | .ram d =>
    if s.command = 0x2A then (s.columnParam d, [])
    else if s.command = 0x2B then (s.pageParam d, [])
    else if s.command = 0x2C then (s.advance, [((s.column.toNat, s.page.toNat), d)])
    else (s, [])

/-- The window ends with the screen. -/
def Full (lcddev : LcdDev) (s : Ili9341) : Prop :=
  s.columnEnd = lcddev.width - 1 ∧ s.pageEnd = lcddev.height - 1

/-- The driver addresses the ILI9341 with its own commands. -/
structure Drives (lcddev : LcdDev) : Prop where
  id_eq : lcddev.id = 0x9341
  setxcmd_eq : lcddev.setxcmd = 0x2A
  setycmd_eq : lcddev.setycmd = 0x2B
  wramcmd_eq : lcddev.wramcmd = 0x2C

/-- `LCD_Display_Dir` selects these commands. -/
theorem drives_lcdDisplayDirParams (lcddev : LcdDev) (h : lcddev.id = 0x9341) (dir : UInt8) :
    Drives (lcdDisplayDirParams lcddev dir) := by
  unfold lcdDisplayDirParams
  split_ifs <;> simp_all [Drives.mk]

/-- `LCD_SetCursor` sets where column and page start. -/
theorem runBus_setCursor {lcddev : LcdDev} (h : Drives lcddev) (s : Ili9341) (xpos ypos : UInt16) :
    runBus step s (lcdSetCursor lcddev xpos ypos) =
      ({ s with
          columnStart := xpos, pageStart := ypos, command := 0x2B, params := 2
          high := ypos >>> 8 }, []) := by
  rw [lcdSetCursor, if_pos (Or.inl h.id_eq), h.setxcmd_eq, h.setycmd_eq]
  simp [lcdWrReg, lcdWrWord, lcdWrData, runBus, step, columnParam, pageParam, wordOf_bytes]

/-- The write command begins there. -/
theorem runBus_writeRamPrepare {lcddev : LcdDev} (h : Drives lcddev) (s : Ili9341) :
    runBus step s (lcdWriteRamPrepare lcddev) =
      ({ s with command := 0x2C, params := 0, column := s.columnStart, page := s.pageStart },
        []) := by
  rw [lcdWriteRamPrepare, h.wramcmd_eq]
  rfl

/-- Inside the row a store moves on by one column. -/
theorem step_ram_of_writing {lcddev : LcdDev} {s : Ili9341} (hfull : Full lcddev s)
    (hcmd : s.command = 0x2C) (c : UInt16) (hcol : s.column.toNat + 1 < lcddev.width.toNat) :
    (step s (.ram c)).1.column.toNat = s.column.toNat + 1 ∧
      (step s (.ram c)).1.page = s.page := by
  have hwidth := lcddev.width.toNat_lt
  have hne : s.column ≠ s.columnEnd := by
    rw [hfull.1, ne_eq, ← UInt16.toNat_inj, UInt16.toNat_sub_of_le]
    · have : (1 : UInt16).toNat = 1 := rfl
      omega
    · rw [UInt16.le_iff_toNat_le]
      have : (1 : UInt16).toNat = 1 := rfl
      omega
  simp only [step, hcmd, advance, if_neg hne]
  refine ⟨?_, rfl⟩
  show (s.column + 1).toNat = _
  rw [UInt16.toNat_add]
  have : (1 : UInt16).toNat = 1 := rfl
  omega

/-- The ILI9341 does what the filling functions assume. -/
def controller {lcddev : LcdDev} (h : Drives lcddev) : Controller lcddev where
  State := Ili9341
  step := step
  Full := Full lcddev
  cursor s := (s.columnStart.toNat, s.pageStart.toNat)
  writing s := if s.command = 0x2C then some (s.column.toNat, s.page.toNat) else none
  setCursor := by
    intro s xpos ypos hfull _ _
    rw [runBus_setCursor h]
    exact ⟨rfl, hfull, rfl⟩
  writeRamPrepare := by
    intro s hfull
    rw [runBus_writeRamPrepare h]
    exact ⟨rfl, hfull, rfl⟩
  writeRam := by
    intro s x y c hfull hwriting _
    have hcmd : s.command = 0x2C := by
      by_contra hne
      rw [if_neg hne] at hwriting
      exact absurd hwriting (by simp)
    rw [if_pos hcmd, Option.some.injEq, Prod.mk.injEq] at hwriting
    obtain ⟨rfl, rfl⟩ := hwriting
    have hstep : step s (.ram c) = (s.advance, [((s.column.toNat, s.page.toNat), c)]) := by
      simp [step, hcmd]
    refine ⟨by rw [hstep], ?_, fun hcol => ?_⟩
    · rw [hstep, advance]
      split_ifs <;> exact hfull
    · obtain ⟨hcolumn, hpage⟩ := step_ram_of_writing hfull hcmd c hcol
      have hcmd' : (step s (.ram c)).1.command = 0x2C := by
        rw [hstep, advance]
        split_ifs <;> exact hcmd
      rw [if_pos hcmd', hcolumn, hpage]

end Ili9341

end Stm32Board.Lcd
