import Stm32Board.Lcd.Defs
import Mathlib.Tactic.SplitIfs
import Mathlib.Tactic.Tauto

/-!
# The sizes and commands an orientation selects

`LCD_Display_Dir` leaves `lcddev` with one of six screen sizes and with the commands of the
controller's own command set. `Screen` packages the size bounds the rest of the firmware relies on.
-/

namespace Stm32Board.Lcd

/-- A screen size as the driver can be in. -/
structure Screen where
  width : UInt16
  height : UInt16
  width_gt : 40 < width.toNat
  width_le : width.toNat ≤ 800
  height_gt : 40 < height.toNat
  height_le : height.toNat ≤ 800

/-- The width and height pairs of the supported panels, in both orientations. -/
def panelSizes : List (UInt16 × UInt16) :=
  [(240, 320), (320, 240), (320, 480), (480, 320), (480, 800), (800, 480)]

/-- Each size is there in both orientations. -/
theorem swap_mem_panelSizes {w h : UInt16} (hm : (w, h) ∈ panelSizes) : (h, w) ∈ panelSizes := by
  simp only [panelSizes, List.mem_cons, Prod.mk.injEq, List.not_mem_nil, or_false] at hm ⊢
  tauto

/-- The parameters are those of a supported panel. -/
theorem lcdDisplayDirParams_size (lcddev : LcdDev) (dir : UInt8) :
    ((lcdDisplayDirParams lcddev dir).width, (lcdDisplayDirParams lcddev dir).height)
      ∈ panelSizes := by
  unfold lcdDisplayDirParams
  dsimp only
  split_ifs <;> simp_all [panelSizes]

/-- Whatever the conditions, the nested choice of `LCD_Scan_Dir` has two outcomes. -/
theorem ite_swap_or_self (lcddev : LcdDev) (p q r s : Prop) [Decidable p] [Decidable q]
    [Decidable r] [Decidable s] :
    (if p then if q then if r then lcddev.swap else lcddev else if s then lcddev.swap else lcddev
      else lcddev) = lcddev ∨
    (if p then if q then if r then lcddev.swap else lcddev else if s then lcddev.swap else lcddev
      else lcddev) = lcddev.swap := by
  split_ifs <;> simp

/-- Setting the scan direction keeps the screen size or exchanges width and height. -/
theorem lcdScanDir_size (lcddev : LcdDev) (dir : UInt8) :
    (lcdScanDir lcddev dir).1 = lcddev ∨ (lcdScanDir lcddev dir).1 = lcddev.swap := by
  rw [lcdScanDir]
  dsimp only
  split
  · exact ite_swap_or_self lcddev _ _ _ _
  · exact .inl rfl

/-- The size of the screen is one of the panel sizes in either orientation. -/
theorem lcdDisplayDir_size (lcddev : LcdDev) (dir : UInt8) :
    ((lcdDisplayDir lcddev dir).1.width, (lcdDisplayDir lcddev dir).1.height) ∈ panelSizes := by
  have hparams := lcdDisplayDirParams_size lcddev dir
  rw [lcdDisplayDir]
  rcases lcdScanDir_size (lcdDisplayDirParams lcddev dir) dftScanDir with h | h
  · rw [h]
    exact hparams
  · rw [h]
    exact swap_mem_panelSizes hparams

/-- All of them are larger than the margins of the calibration targets. -/
theorem panelSizes_bounds {w h : UInt16} (hm : (w, h) ∈ panelSizes) :
    40 < w.toNat ∧ w.toNat ≤ 800 ∧ 40 < h.toNat ∧ h.toNat ≤ 800 := by
  simp only [panelSizes, List.mem_cons, Prod.mk.injEq, List.not_mem_nil, or_false] at hm
  rcases hm with ⟨rfl, rfl⟩ | ⟨rfl, rfl⟩ | ⟨rfl, rfl⟩ | ⟨rfl, rfl⟩ | ⟨rfl, rfl⟩ | ⟨rfl, rfl⟩ <;>
    decide

/-- The screen `LCD_Display_Dir` selects. -/
def displayScreen (lcddev : LcdDev) (dir : UInt8) : Screen :=
  have hbounds := panelSizes_bounds (lcdDisplayDir_size lcddev dir)
  { width := (lcdDisplayDir lcddev dir).1.width
    height := (lcdDisplayDir lcddev dir).1.height
    width_gt := hbounds.1
    width_le := hbounds.2.1
    height_gt := hbounds.2.2.1
    height_le := hbounds.2.2.2 }

/-- The 240 by 320 panel of the 9341, upright. -/
def portraitScreen : Screen := displayScreen ⟨0, 0, 0x9341, 0, 0, 0, 0⟩ 0

end Stm32Board.Lcd
