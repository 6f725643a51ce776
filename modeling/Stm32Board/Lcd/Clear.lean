import Stm32Board.Common.Writes
import Stm32Board.Lcd.Draw
import Stm32Board.Lcd.Fill
import Stm32Board.Lcd.Window

/-!
# Clearing the screen

`LCD_Clear` programs a cursor and writes as many words as the screen has pixels; where they go depends
on the window end registers of the controller, which it does not set. `LCD_Display_Dir` programs the
whole screen and `LCD_Set_Window` a part of it, which stays: the other drawing functions leave the ends
alone (`LcdBoard.Window`). `lcdClear_cleared_iff` says after which histories the screen is cleared.
-/

namespace Stm32Board.Lcd

open Common

/-! ## Histories -/

/-- A call of a public function of the driver. -/
inductive LcdCall where
  | displayDir (dir : UInt8)
  | setWindow (sx sy width height : UInt16)
  | fill (sx sy ex ey : UInt16) (color : UInt32)
  | colorFill (sx sy ex ey : UInt16) (color : List UInt16)
  | drawPoint (x y : UInt16) (pointColor : UInt32)

/-- The device afterwards and the bus writes made. -/
def LcdCall.ops (lcddev : LcdDev) : LcdCall → Option (LcdDev × List BusOp)
  | .displayDir dir => some (lcdDisplayDir lcddev dir)
  | .setWindow sx sy width height => some (lcddev, lcdSetWindow lcddev sx sy width height)
  | .fill sx sy ex ey color => (lcdFill lcddev sx sy ex ey color).map (lcddev, ·)
  | .colorFill sx sy ex ey color => (lcdColorFill lcddev sx sy ex ey color).map (lcddev, ·)
  | .drawPoint x y pointColor => some (lcddev, lcdDrawPoint lcddev x y pointColor)

/-- The driver's state and the controller's. -/
structure LcdBoard where
  lcddev : LcdDev
  ctrl : Ili9341

def LcdCall.run (b : LcdBoard) (c : LcdCall) : Option LcdBoard :=
  (c.ops b.lcddev).map fun r => { lcddev := r.1, ctrl := (runBus Ili9341.step b.ctrl r.2).1 }

def runHistory (b : LcdBoard) (calls : List LcdCall) : Option LcdBoard :=
  calls.foldlM LcdCall.run b

/-- `LCD_Display_Dir(0)` as `LCD_Init` ends with it, on a controller in any state. -/
def lcdInitBoard (lcddev : LcdDev) (ctrl : Ili9341) : LcdBoard where
  lcddev := (lcdDisplayDir lcddev 0).1
  ctrl := (runBus Ili9341.step ctrl (lcdDisplayDir lcddev 0).2).1

/-- The corners of a rectangle, in any order, are on the screen. -/
structure CornersInside (lcddev : LcdDev) (sx sy ex ey : UInt16) : Prop where
  sx_lt : sx < lcddev.width
  sy_lt : sy < lcddev.height
  ex_lt : ex < lcddev.width
  ey_lt : ey < lcddev.height

/-- The arguments are inside the screen, and a buffer has a word for every pixel. -/
def LcdCall.Admissible (lcddev : LcdDev) : LcdCall → Prop
  | .displayDir _ => True
  | .setWindow sx sy width height => WindowFits lcddev sx sy width height
  | .fill sx sy ex ey _ => CornersInside lcddev sx sy ex ey
  | .colorFill sx sy ex ey color => CornersInside lcddev sx sy ex ey ∧
    ∀ i < (ey - sy + 1).toNat, ∀ j < (ex - sx + 1).toNat,
      (colorAt color (i * (ex - sx + 1).toNat + j)).isSome
  | .drawPoint x y _ => x < lcddev.width ∧ y < lcddev.height

/-- Every call of the history is admissible for the screen as it is then. -/
def AdmissibleHistory (b : LcdBoard) : List LcdCall → Prop
  | [] => True
  | c :: cs => c.Admissible b.lcddev ∧ ∀ b', c.run b = some b' → AdmissibleHistory b' cs

/-- The arguments of `LCD_Set_Window`. -/
structure WindowRect where
  sx : UInt16
  sy : UInt16
  width : UInt16
  height : UInt16
deriving DecidableEq, Repr

/-- The window set since the last `LCD_Display_Dir`. -/
def windowAfter (w : Option WindowRect) : LcdCall → Option WindowRect
  | .displayDir _ => none
  | .setWindow sx sy width height => some ⟨sx, sy, width, height⟩
  | _ => w

/-- The last window set, unless the orientation was set after it. -/
def lastWindow (calls : List LcdCall) : Option WindowRect := calls.foldl windowAfter none

/-- The window reaches the bottom right corner of the screen. -/
def WindowRect.ReachesCorner (lcddev : LcdDev) (w : WindowRect) : Prop :=
  w.sx.toNat + w.width.toNat = lcddev.width.toNat ∧
    w.sy.toNat + w.height.toNat = lcddev.height.toNat

/-! ## The window end registers -/

namespace Ili9341

/-- The data writes of a memory write keep the ends. -/
theorem runBus_ram_ends {s : Ili9341} (hcmd : s.command = 0x2C) {ops : List BusOp}
    (hops : ∀ op ∈ ops, ∃ d, op = .ram d) :
    (runBus step s ops).1.columnEnd = s.columnEnd ∧ (runBus step s ops).1.pageEnd = s.pageEnd := by
  induction ops generalizing s with
  | nil => exact ⟨rfl, rfl⟩
  | cons op ops ih =>
    obtain ⟨⟨d, rfl⟩, hrest⟩ := List.forall_mem_cons.mp hops
    have hstep : (step s (.ram d)).1 = s.advance := by simp [step, hcmd]
    have hkeep : s.advance.command = 0x2C ∧ s.advance.columnEnd = s.columnEnd ∧
        s.advance.pageEnd = s.pageEnd := by
      rw [advance]
      split_ifs <;> exact ⟨hcmd, rfl, rfl⟩
    rw [runBus, hstep, ← hkeep.2.1, ← hkeep.2.2]
    exact ih hkeep.1 hrest

/-- The bus writes leave the window end registers alone, whatever the state. -/
def KeepsEnds (ops : List BusOp) : Prop :=
  ∀ s, (runBus step s ops).1.columnEnd = s.columnEnd ∧ (runBus step s ops).1.pageEnd = s.pageEnd

/-- Two stretches of bus operations that both keep the ends of the window. -/
theorem keepsEnds_append {xs ys : List BusOp} (hx : KeepsEnds xs) (hy : KeepsEnds ys) :
    KeepsEnds (xs ++ ys) := by
  intro s
  rw [runBus_append]
  exact ⟨(hy _).1.trans (hx s).1, (hy _).2.trans (hx s).2⟩

/-- A cursor, the write command and data. -/
theorem keepsEnds_write {lcddev : LcdDev} (h : Drives lcddev) (xpos ypos : UInt16)
    {data : List BusOp} (hdata : ∀ op ∈ data, ∃ d, op = .ram d) :
    KeepsEnds (lcdSetCursor lcddev xpos ypos ++ lcdWriteRamPrepare lcddev ++ data) := by
  intro s
  rw [runBus_append, runBus_append, runBus_setCursor h, runBus_writeRamPrepare h]
  exact runBus_ram_ends rfl hdata

/-- A row is data only. -/
theorem lcdRamRow_data {n : UInt16} {data : UInt16 → Option UInt16} {ops : List BusOp}
    (h : lcdRamRow n data = some ops) : ∀ op ∈ ops, ∃ d, op = .ram d := by
  refine forLoop_induction (P := fun ops => ∀ op ∈ ops, ∃ d, op = BusOp.ram d)
    (fun op hop => absurd hop List.not_mem_nil) (fun out rest hout hrest op hop => ?_)
    (fun i out hbody op hop => ?_) h
  · rcases List.mem_append.mp hop with hop | hop
    · exact hout op hop
    · exact hrest op hop
  · obtain ⟨d, -, rfl⟩ := Option.map_eq_some_iff.mp hbody
    exact ⟨d, List.mem_singleton.mp hop⟩

/-- So the filling functions keep the ends. -/
theorem keepsEnds_lcdFill {lcddev : LcdDev} (h : Drives lcddev) {sx sy ex ey : UInt16}
    {color : UInt32} {ops : List BusOp} (hops : lcdFill lcddev sx sy ex ey color = some ops) :
    KeepsEnds ops := by
  refine forLoop_induction (fun s => ⟨rfl, rfl⟩) (fun _ _ => keepsEnds_append)
    (fun i out hbody => ?_) hops
  obtain ⟨row, hrow, rfl⟩ := Option.map_eq_some_iff.mp hbody
  exact keepsEnds_write h sx i (lcdRamRow_data hrow)

/-- `LCD_Color_Fill` moves the cursor and writes data: the ends stay. -/
theorem keepsEnds_lcdColorFill {lcddev : LcdDev} (h : Drives lcddev) {sx sy ex ey : UInt16}
    {color : List UInt16} {ops : List BusOp}
    (hops : lcdColorFill lcddev sx sy ex ey color = some ops) : KeepsEnds ops := by
  refine forLoop_induction (fun s => ⟨rfl, rfl⟩) (fun _ _ => keepsEnds_append)
    (fun i out hbody => ?_) hops
  obtain ⟨row, hrow, rfl⟩ := Option.map_eq_some_iff.mp hbody
  exact keepsEnds_write h sx (sy + i) (lcdRamRow_data hrow)

/-- Setting a window programs its ends. -/
theorem runBus_setWindow {lcddev : LcdDev} (h : Drives lcddev) (s : Ili9341)
    (sx sy width height : UInt16) :
    (runBus step s (lcdSetWindow lcddev sx sy width height)).1.columnEnd = sx + width - 1 ∧
      (runBus step s (lcdSetWindow lcddev sx sy width height)).1.pageEnd = sy + height - 1 := by
  rw [lcdSetWindow]
  dsimp only
  rw [if_pos (Or.inl h.id_eq), h.setxcmd_eq, h.setycmd_eq]
  simp [lcdWrReg, lcdWrWord, lcdWrData, runBus, step, columnParam, pageParam, wordOf_bytes]

/-- The panel is driven in either orientation. -/
theorem Drives.swap {lcddev : LcdDev} (h : Drives lcddev) : Drives lcddev.swap :=
  ⟨h.id_eq, h.setxcmd_eq, h.setycmd_eq, h.wramcmd_eq⟩

theorem drives_lcdScanDir {lcddev : LcdDev} (h : Drives lcddev) (dir : UInt8) :
    Drives (lcdScanDir lcddev dir).1 := by
  rcases lcdScanDir_size lcddev dir with heq | heq <;> rw [heq]
  · exact h
  · exact h.swap

/-- Setting the scan direction of an ILI9341 ends with programming the whole screen. -/
theorem lcdScanDir_ops {lcddev : LcdDev} (h : Drives lcddev) (dir : UInt8) :
    ∃ regval, (lcdScanDir lcddev dir).2 = lcdWriteReg 0x36 regval ++
      (lcdWrReg 0x2A ++ lcdWrData 0 ++ lcdWrData 0 ++
        lcdWrWord ((lcdScanDir lcddev dir).1.width - 1) ++
        lcdWrReg 0x2B ++ lcdWrData 0 ++ lcdWrData 0 ++
        lcdWrWord ((lcdScanDir lcddev dir).1.height - 1)) := by
  have hdrives := drives_lcdScanDir h dir
  rw [lcdScanDir] at hdrives ⊢
  dsimp only at hdrives ⊢
  rw [if_pos (Or.inl h.id_eq)] at hdrives ⊢
  dsimp only at hdrives ⊢
  have hne : ∀ {d : LcdDev}, Drives d → ¬d.id = 0x5510 := by
    intro d hd
    rw [hd.id_eq]
    decide
  refine ⟨_, congrArg₂ (fun reg window => reg ++ window)
    (congrArg (lcdWriteReg · _) (if_neg (hne h))) ((if_neg (hne hdrives)).trans ?_)⟩
  rw [hdrives.setxcmd_eq, hdrives.setycmd_eq]

/-- After `LCD_Display_Dir` the window is the whole screen. -/
theorem runBus_displayDir {lcddev : LcdDev} (h : lcddev.id = 0x9341) (s : Ili9341) (dir : UInt8) :
    Drives (lcdDisplayDir lcddev dir).1 ∧
      Full (lcdDisplayDir lcddev dir).1 (runBus step s (lcdDisplayDir lcddev dir).2).1 := by
  have hparams := drives_lcdDisplayDirParams lcddev h dir
  obtain ⟨regval, hops⟩ := lcdScanDir_ops hparams dftScanDir
  refine ⟨drives_lcdScanDir hparams dftScanDir, ?_⟩
  rw [lcdDisplayDir, hops, Full]
  simp [lcdWriteReg, lcdWrReg, lcdWrWord, lcdWrData, runBus, step, columnParam, pageParam,
    wordOf_bytes]

/-! ## Filling the window -/

/-- The width and height of the window from the origin. -/
def windowWidth (s : Ili9341) : ℕ := s.columnEnd.toNat + 1
def windowHeight (s : Ili9341) : ℕ := s.pageEnd.toNat + 1

/-- A memory write that started at the origin has made `k` stores. -/
structure WritingAt (k : ℕ) (s : Ili9341) : Prop where
  command_eq : s.command = 0x2C
  columnStart_eq : s.columnStart = 0
  pageStart_eq : s.pageStart = 0
  column_eq : s.column.toNat = k % s.windowWidth
  page_eq : s.page.toNat = k / s.windowWidth % s.windowHeight

/-- A counter that wraps behind its last value. -/
theorem toNat_succ_or_zero {v last : UInt16} (h : v.toNat ≤ last.toNat) :
    (if v = last then 0 else v + 1).toNat =
      if v.toNat + 1 = last.toNat + 1 then 0 else v.toNat + 1 := by
  have hlast := last.toNat_lt
  by_cases heq : v = last
  · rw [if_pos heq, if_pos (by rw [heq])]
    rfl
  · have hne : v.toNat ≠ last.toNat := fun h => heq (UInt16.toNat_inj.mp h)
    rw [if_neg heq, if_neg (by omega), UInt16.toNat_add, UInt16.toNat_one]
    omega

/-- One store more. -/
theorem WritingAt.step {k : ℕ} {s : Ili9341} (h : WritingAt k s) (c : UInt16) :
    (step s (.ram c)).2 =
        [((k % s.windowWidth, k / s.windowWidth % s.windowHeight), c)] ∧
      WritingAt (k + 1) (Ili9341.step s (.ram c)).1 ∧
      (Ili9341.step s (.ram c)).1.columnEnd = s.columnEnd ∧
      (Ili9341.step s (.ram c)).1.pageEnd = s.pageEnd := by
  obtain ⟨hcmd, hcs, hps, hcol, hpage⟩ := h
  have hstep : Ili9341.step s (.ram c) = (s.advance, [((s.column.toNat, s.page.toNat), c)]) := by
    simp [Ili9341.step, hcmd]
  -- the column goes up and wraps to 0, and with it the page
  have hcolumn : s.advance.column = if s.column = s.columnEnd then 0 else s.column + 1 := by
    rw [advance]
    split_ifs
    · exact hcs
    · exact hcs
    · rfl
  have hrow : s.advance.page = if s.column = s.columnEnd then
      (if s.page = s.pageEnd then 0 else s.page + 1) else s.page := by
    rw [advance]
    split_ifs
    · exact hps
    · rfl
    · rfl
  obtain ⟨hce, hpe, hcmd', hcs', hps'⟩ : s.advance.columnEnd = s.columnEnd ∧
      s.advance.pageEnd = s.pageEnd ∧ s.advance.command = s.command ∧
      s.advance.columnStart = s.columnStart ∧ s.advance.pageStart = s.pageStart := by
    rw [advance]
    split_ifs <;> exact ⟨rfl, rfl, rfl, rfl, rfl⟩
  have hw : 0 < s.windowWidth := Nat.succ_pos _
  have hh : 0 < s.windowHeight := Nat.succ_pos _
  have hcolLe : s.column.toNat ≤ s.columnEnd.toNat := by
    rw [hcol]
    exact Nat.lt_succ_iff.mp (Nat.mod_lt k hw)
  have hpageLe : s.page.toNat ≤ s.pageEnd.toNat := by
    rw [hpage]
    exact Nat.lt_succ_iff.mp (Nat.mod_lt _ hh)
  -- the last column is reached when the count of the row is full
  have hlast : s.column = s.columnEnd ↔ k % s.windowWidth + 1 = s.windowWidth := by
    rw [← UInt16.toNat_inj, hcol, windowWidth]
    omega
  obtain ⟨hmod, hdiv⟩ := succ_mod_div hw k
  have hwidth : s.advance.windowWidth = s.windowWidth := by rw [windowWidth, hce, windowWidth]
  have hheight : s.advance.windowHeight = s.windowHeight := by rw [windowHeight, hpe, windowHeight]
  rw [hstep]
  refine ⟨by rw [hcol, hpage], ⟨hcmd'.trans hcmd, hcs'.trans hcs, hps'.trans hps, ?_, ?_⟩, hce, hpe⟩
  · show s.advance.column.toNat = _
    rw [hcolumn, toNat_succ_or_zero hcolLe, hwidth, hmod, hcol]
    rfl
  · show s.advance.page.toNat = _
    rw [hrow, hwidth, hheight, hdiv]
    by_cases heq : s.column = s.columnEnd
    · rw [if_pos heq, if_pos (hlast.mp heq), toNat_succ_or_zero hpageLe, hpage,
        (succ_mod_div hh _).1]
      rfl
    · rw [if_neg heq, if_neg (fun he => heq (hlast.mpr he)), hpage]

/-- The stores of `n` writes of one word: along the rows of the window, over and over. -/
theorem WritingAt.run {k : ℕ} {s : Ili9341} (h : WritingAt k s) (c : UInt16) (n : ℕ) :
    (runBus Ili9341.step s ((List.range n).flatMap fun _ => lcdWrData c)).2 =
      (List.range n).map fun j =>
        (((k + j) % s.windowWidth, (k + j) / s.windowWidth % s.windowHeight), c) := by
  induction n generalizing k s with
  | zero => rfl
  | succ n ih =>
    obtain ⟨hstore, hnext, hce, hpe⟩ := h.step c
    have hops : ((List.range (n + 1)).flatMap fun _ => lcdWrData c) =
        .ram c :: (List.range n).flatMap fun _ => lcdWrData c := by
      rw [List.range_succ_eq_map, List.flatMap_cons, List.flatMap_map]
      rfl
    have hwidth : (Ili9341.step s (.ram c)).1.windowWidth = s.windowWidth := by
      rw [windowWidth, hce, windowWidth]
    have hheight : (Ili9341.step s (.ram c)).1.windowHeight = s.windowHeight := by
      rw [windowHeight, hpe, windowHeight]
    rw [hops, runBus]
    dsimp only
    rw [hstore, ih hnext, hwidth, hheight, List.range_succ_eq_map, List.map_cons, List.map_map]
    refine congrArg (_ :: ·) (List.map_congr_left fun j _ => ?_)
    rw [Function.comp_apply, Nat.succ_eq_add_one, Nat.add_right_comm k 1 j]
    rfl

end Ili9341

/-! ## `LCD_Clear` -/

/-- `LCD_Clear` is one cursor and as many data words as the screen has pixels. -/
theorem lcdClear_eq (lcddev : LcdDev) (color : UInt32) :
    lcdClear lcddev color = some (lcdSetCursor lcddev 0 0 ++ lcdWriteRamPrepare lcddev ++
      (List.range (lcddev.width.toNat * lcddev.height.toNat)).flatMap fun _ =>
        lcdWrData color.toUInt16) := by
  have hw := lcddev.width.toNat_lt
  have hh := lcddev.height.toNat_lt
  have hlt : lcddev.width.toNat * lcddev.height.toNat < 4294967296 :=
    lt_of_le_of_lt (Nat.mul_le_mul (Nat.lt_succ_iff.mp hw) (Nat.lt_succ_iff.mp hh)) (by decide)
  have htotal : (lcddev.width.toUInt32 * lcddev.height.toUInt32).toNat =
      lcddev.width.toNat * lcddev.height.toNat := by
    rw [UInt32.toNat_mul, UInt16.toNat_toUInt32, UInt16.toNat_toUInt32]
    exact Nat.mod_eq_of_lt hlt
  rw [lcdClear, forLoop_lt_u32, htotal]
  rfl

/-- The pixel is on the screen. -/
def OnScreen (lcddev : LcdDev) (p : Pixel) : Prop :=
  p.1 < lcddev.width.toNat ∧ p.2 < lcddev.height.toNat

/-- Whatever the screen shows, after the stores every pixel of it is `c`. -/
def Cleared (lcddev : LcdDev) (stores : List PixelStore) (c : UInt16) : Prop :=
  ∀ (screen : Pixel → UInt16) (p : Pixel), OnScreen lcddev p → applyWrites screen stores p = c

/-- Stores of one word clear the screen when they reach every pixel. -/
theorem cleared_iff {lcddev : LcdDev} {stores : List PixelStore} {c : UInt16}
    (hval : ∀ w ∈ stores, w.2 = c) :
    Cleared lcddev stores c ↔ ∀ p, OnScreen lcddev p → p ∈ stores.map Prod.fst := by
  constructor
  · intro h p hp
    by_contra hmem
    -- a pixel that is not stored to could have any other colour
    have hkept := h (fun _ => c + 1) p hp
    rw [applyWrites_of_notMem _ hmem] at hkept
    exact absurd hkept (by simp)
  · intro h screen p hp
    exact applyWrites_of_forall_eq screen hval (h p hp)

namespace Ili9341

/-- The places `n` stores of a `w` by `h` window reach. -/
theorem mem_positions_iff {w h n : ℕ} (hw : 0 < w) (hn : w * h ≤ n) (hh : 0 < h) (p : Pixel) :
    (∃ j < n, (j % w, j / w % h) = p) ↔ p.1 < w ∧ p.2 < h := by
  constructor
  · rintro ⟨j, -, rfl⟩
    exact ⟨Nat.mod_lt _ hw, Nat.mod_lt _ hh⟩
  · rintro ⟨hx, hy⟩
    refine ⟨w * p.2 + p.1, ?_, ?_⟩
    · have hrow : w * (p.2 + 1) ≤ w * h := Nat.mul_le_mul_left w hy
      rw [Nat.mul_add, Nat.mul_one] at hrow
      omega
    · rw [Nat.mul_add_mod, Nat.mod_eq_of_lt hx, Nat.mul_add_div hw, Nat.div_eq_of_lt hx,
        Nat.add_zero, Nat.mod_eq_of_lt hy]

/-- `LCD_Clear` reaches every pixel exactly when the window ends with the screen. -/
theorem cleared_lcdClear_iff {lcddev : LcdDev} (h : Drives lcddev) {s : Ili9341}
    (hcol : s.columnEnd < lcddev.width) (hpage : s.pageEnd < lcddev.height) (color : UInt32) :
    ∃ ops, lcdClear lcddev color = some ops ∧
      (Cleared lcddev (runBus step s ops).2 color.toUInt16 ↔
        s.windowWidth = lcddev.width.toNat ∧ s.windowHeight = lcddev.height.toNat) := by
  rw [UInt16.lt_iff_toNat_lt] at hcol hpage
  refine ⟨_, lcdClear_eq lcddev color, ?_⟩
  have hstart : WritingAt 0
      { s with
        columnStart := 0, pageStart := 0, command := 0x2C, params := 0
        high := (0 : UInt16) >>> 8, column := 0, page := 0 } :=
    ⟨rfl, rfl, rfl, (Nat.zero_mod _).symm, by rw [Nat.zero_div, Nat.zero_mod]; rfl⟩
  rw [runBus_append, runBus_append, runBus_setCursor h, runBus_writeRamPrepare h]
  dsimp only
  rw [List.nil_append, List.nil_append, hstart.run, cleared_iff (by simp)]
  have hw : 0 < s.windowWidth := Nat.succ_pos _
  have hh : 0 < s.windowHeight := Nat.succ_pos _
  have hle : s.windowWidth * s.windowHeight ≤ lcddev.width.toNat * lcddev.height.toNat :=
    Nat.mul_le_mul hcol hpage
  have hmem : ∀ p : Pixel, p ∈ (List.map Prod.fst ((List.range
      (lcddev.width.toNat * lcddev.height.toNat)).map fun j =>
        (((0 + j) % s.windowWidth, (0 + j) / s.windowWidth % s.windowHeight), color.toUInt16))) ↔
      p.1 < s.windowWidth ∧ p.2 < s.windowHeight := by
    intro p
    rw [← mem_positions_iff hw hle hh]
    simp
  -- the bottom right pixel tells whether the window is the screen
  have hcorner : lcddev.width.toNat - 1 < lcddev.width.toNat ∧
      lcddev.height.toNat - 1 < lcddev.height.toNat := by omega
  constructor
  · intro hall
    have hlast := (hmem _).mp (hall (lcddev.width.toNat - 1, lcddev.height.toNat - 1) hcorner)
    rw [windowWidth, windowHeight] at hlast ⊢
    omega
  · rintro ⟨hwidth, hheight⟩ p hp
    refine (hmem p).mpr ?_
    rw [hwidth, hheight]
    exact hp

end Ili9341

/-! ## Over a history -/

/-- The window the driver has left: its ends are in the controller's end registers. -/
def LcdBoard.Window (b : LcdBoard) : Option WindowRect → Prop
  | none => Ili9341.Full b.lcddev b.ctrl
  | some w => WindowFits b.lcddev w.sx w.sy w.width w.height ∧
    b.ctrl.columnEnd = w.sx + w.width - 1 ∧ b.ctrl.pageEnd = w.sy + w.height - 1

/-- What holds after every history. -/
structure LcdBoard.Inv (b : LcdBoard) (w : Option WindowRect) : Prop where
  drives : Ili9341.Drives b.lcddev
  size : (b.lcddev.width, b.lcddev.height) ∈ panelSizes
  window : b.Window w

/-- `LCD_Display_Dir` opens the whole screen again. -/
theorem lcdDisplayDir_inv (b : LcdBoard) (h : b.lcddev.id = 0x9341) (dir : UInt8) :
    LcdBoard.Inv
      { lcddev := (lcdDisplayDir b.lcddev dir).1
        ctrl := (runBus Ili9341.step b.ctrl (lcdDisplayDir b.lcddev dir).2).1 } none := by
  obtain ⟨hdrives, hfull⟩ := Ili9341.runBus_displayDir h b.ctrl dir
  exact ⟨hdrives, lcdDisplayDir_size b.lcddev dir, hfull⟩

/-- A call that keeps the ends keeps the window. -/
theorem LcdBoard.Inv.of_keepsEnds {b : LcdBoard} {w : Option WindowRect} (h : b.Inv w)
    {ops : List BusOp} (hops : Ili9341.KeepsEnds ops) :
    LcdBoard.Inv { b with ctrl := (runBus Ili9341.step b.ctrl ops).1 } w := by
  obtain ⟨hce, hpe⟩ := hops b.ctrl
  refine ⟨h.drives, h.size, ?_⟩
  have hwindow := h.window
  cases w with
  | none => exact ⟨hce.trans hwindow.1, hpe.trans hwindow.2⟩
  | some w => exact ⟨hwindow.1, hce.trans hwindow.2.1, hpe.trans hwindow.2.2⟩

theorem eq_some_getD {α : Type} {o : Option α} (h : o.isSome) (d : α) : o = some (o.getD d) := by
  obtain ⟨a, rfl⟩ := Option.isSome_iff_exists.mp h
  rfl

/-- Filling between two corners of the screen ends, whichever way they lie. -/
theorem lcdFill_isSome {lcddev : LcdDev} {sx sy ex ey : UInt16}
    (h : CornersInside lcddev sx sy ex ey) (color : UInt32) :
    (lcdFill lcddev sx sy ex ey color).isSome := by
  have hey := UInt16.lt_iff_toNat_lt.mp h.ey_lt
  have hheight := lcddev.height.toNat_lt
  by_cases hle : sy ≤ ey
  · rw [lcdFill_rows lcddev hle (by omega)]
    rfl
  · rw [lcdFill, fuelU16, forLoop, if_neg (by simpa using hle)]
    rfl

/-- A fill is defined when its buffer holds all colours. -/
theorem lcdColorFill_isSome (lcddev : LcdDev) {sx sy ex ey : UInt16} {color : List UInt16}
    (h : ∀ i < (ey - sy + 1).toNat, ∀ j < (ex - sx + 1).toNat,
      (colorAt color (i * (ex - sx + 1).toNat + j)).isSome) :
    (lcdColorFill lcddev sx sy ex ey color).isSome := by
  rw [lcdColorFill_rows lcddev color
    (fun i j => (colorAt color (i * (ex - sx + 1).toNat + j)).getD 0)
    fun i hi j hj => eq_some_getD (h i hi j hj) 0]
  rfl

/-- Every admissible call is defined, and leaves the window it is last to set. -/
theorem LcdBoard.Inv.step {b : LcdBoard} {w : Option WindowRect} (h : b.Inv w) {c : LcdCall}
    (hc : c.Admissible b.lcddev) : ∃ b', c.run b = some b' ∧ b'.Inv (windowAfter w c) := by
  cases c with
  | displayDir dir => exact ⟨_, rfl, lcdDisplayDir_inv b h.drives.id_eq dir⟩
  | setWindow sx sy width height =>
    obtain ⟨hce, hpe⟩ := Ili9341.runBus_setWindow h.drives b.ctrl sx sy width height
    exact ⟨_, rfl, h.drives, h.size, hc, hce, hpe⟩
  | fill sx sy ex ey color =>
    obtain ⟨ops, hops⟩ := Option.isSome_iff_exists.mp (lcdFill_isSome hc color)
    refine ⟨_, ?_, h.of_keepsEnds (Ili9341.keepsEnds_lcdFill h.drives hops)⟩
    rw [LcdCall.run, LcdCall.ops, hops]
    rfl
  | colorFill sx sy ex ey color =>
    obtain ⟨ops, hops⟩ := Option.isSome_iff_exists.mp (lcdColorFill_isSome b.lcddev hc.2)
    refine ⟨_, ?_, h.of_keepsEnds (Ili9341.keepsEnds_lcdColorFill h.drives hops)⟩
    rw [LcdCall.run, LcdCall.ops, hops]
    rfl
  | drawPoint x y pointColor =>
    exact ⟨_, rfl, h.of_keepsEnds (Ili9341.keepsEnds_write h.drives x y fun op hop =>
      ⟨_, List.mem_singleton.mp hop⟩)⟩

/-- The invariant holds after every admissible history. -/
theorem LcdBoard.Inv.run {b : LcdBoard} {w : Option WindowRect} (h : b.Inv w)
    {calls : List LcdCall} (hcalls : AdmissibleHistory b calls) :
    ∃ b', runHistory b calls = some b' ∧ b'.Inv (calls.foldl windowAfter w) := by
  induction calls generalizing b w with
  | nil => exact ⟨b, rfl, h⟩
  | cons c cs ih =>
    obtain ⟨b₁, hstep, hinv⟩ := h.step hcalls.1
    obtain ⟨b₂, hrun, hinv'⟩ := ih hinv (hcalls.2 b₁ hstep)
    refine ⟨b₂, ?_, hinv'⟩
    rw [runHistory, List.foldlM_cons, hstep]
    exact hrun

/-- The window reaches the ends of the screen exactly when it is the last one to do so. -/
theorem LcdBoard.Inv.full_iff {b : LcdBoard} {w : Option WindowRect} (h : b.Inv w) :
    b.ctrl.columnEnd < b.lcddev.width ∧ b.ctrl.pageEnd < b.lcddev.height ∧
      (b.ctrl.windowWidth = b.lcddev.width.toNat ∧ b.ctrl.windowHeight = b.lcddev.height.toNat ↔
        ∀ r ∈ w, r.ReachesCorner b.lcddev) := by
  obtain ⟨hw, -, hh, -⟩ := panelSizes_bounds h.size
  have hwlt := b.lcddev.width.toNat_lt
  have hhlt := b.lcddev.height.toNat_lt
  have hwindow := h.window
  rw [Ili9341.windowWidth, Ili9341.windowHeight, UInt16.lt_iff_toNat_lt, UInt16.lt_iff_toNat_lt]
  cases w with
  | none =>
    obtain ⟨hce, hpe⟩ := hwindow
    rw [hce, hpe, UInt16.toNat_sub, UInt16.toNat_sub, UInt16.toNat_one]
    refine ⟨by omega, by omega, iff_of_true (by omega) (by simp)⟩
  | some r =>
    obtain ⟨⟨hw1, hh1, hright, hbottom⟩, hce, hpe⟩ := hwindow
    rw [hce, hpe, UInt16.toNat_sub, UInt16.toNat_sub, UInt16.toNat_add, UInt16.toNat_add,
      UInt16.toNat_one]
    refine ⟨by omega, by omega, ?_⟩
    simp only [Option.mem_def, Option.some.injEq, forall_eq', WindowRect.ReachesCorner]
    omega

/-- After any admissible history `LCD_Clear` sets every pixel of the screen to its colour exactly
when no window has been set since the last `LCD_Display_Dir`, or the last one set reaches the bottom
right corner of the screen. -/
theorem lcdClear_cleared_iff {lcddev : LcdDev} (hid : lcddev.id = 0x9341) (ctrl : Ili9341)
    {calls : List LcdCall} (hcalls : AdmissibleHistory (lcdInitBoard lcddev ctrl) calls)
    (color : UInt32) :
    ∃ b ops, runHistory (lcdInitBoard lcddev ctrl) calls = some b ∧
      lcdClear b.lcddev color = some ops ∧
      (Cleared b.lcddev (runBus Ili9341.step b.ctrl ops).2 color.toUInt16 ↔
        ∀ r ∈ lastWindow calls, r.ReachesCorner b.lcddev) := by
  obtain ⟨b, hrun, hinv⟩ := (lcdDisplayDir_inv ⟨lcddev, ctrl⟩ hid 0).run hcalls
  obtain ⟨hcol, hpage, hfull⟩ := hinv.full_iff
  obtain ⟨ops, hops, hcleared⟩ := Ili9341.cleared_lcdClear_iff hinv.drives hcol hpage color
  exact ⟨b, ops, hrun, hops, hcleared.trans hfull⟩

/-- An ILI9341 upright, as `LCD_Init` leaves it. -/
def uprightBoard : LcdBoard :=
  lcdInitBoard ⟨0, 0, 0x9341, 0, 0, 0, 0⟩ ⟨0, 0, 0, 0, 0, 0, 0, 0, 0⟩

/-- A small window, the screen put on its side, a window that reaches its corner, and a point. -/
def sidewaysCalls : List LcdCall :=
  [.setWindow 0 0 10 10, .displayDir 1, .setWindow 100 40 220 200, .drawPoint 5 6 0xF800]

/-- After these calls the screen can be cleared. -/
theorem lcdClear_cleared_sideways :
    ∃ b ops, runHistory uprightBoard sidewaysCalls = some b ∧
      lcdClear b.lcddev 0xFFFF = some ops ∧
      Cleared b.lcddev (runBus Ili9341.step b.ctrl ops).2 0xFFFF := by
  have hcalls : AdmissibleHistory uprightBoard sidewaysCalls := by
    refine ⟨by constructor <;> decide, fun b hb => ?_⟩
    obtain rfl := Option.some.inj hb
    refine ⟨trivial, fun b hb => ?_⟩
    obtain rfl := Option.some.inj hb
    refine ⟨by constructor <;> decide, fun b hb => ?_⟩
    obtain rfl := Option.some.inj hb
    exact ⟨by constructor <;> decide, fun _ _ => trivial⟩
  obtain ⟨b, ops, hrun, hops, hiff⟩ := lcdClear_cleared_iff rfl ⟨0, 0, 0, 0, 0, 0, 0, 0, 0⟩
    hcalls 0xFFFF
  refine ⟨b, ops, hrun, hops, hiff.mpr fun r hr => ?_⟩
  obtain rfl : ⟨100, 40, 220, 200⟩ = r := Option.some.inj hr
  have hside : (runHistory uprightBoard sidewaysCalls).map (·.lcddev.width) = some 320 ∧
      (runHistory uprightBoard sidewaysCalls).map (·.lcddev.height) = some 240 := by
    constructor <;> decide +kernel
  have hrun' : runHistory uprightBoard sidewaysCalls = some b := hrun
  rw [hrun', Option.map_some, Option.map_some] at hside
  obtain ⟨hw, hh⟩ := hside
  rw [WindowRect.ReachesCorner, Option.some.inj hw, Option.some.inj hh]
  decide

/-- A window of ten by ten pixels, and `LCD_Clear` only clears these. -/
theorem not_cleared_small_window :
    AdmissibleHistory uprightBoard [.setWindow 0 0 10 10] ∧
      ∃ b ops, runHistory uprightBoard [.setWindow 0 0 10 10] = some b ∧
        lcdClear b.lcddev 0 = some ops ∧
        ¬Cleared b.lcddev (runBus Ili9341.step b.ctrl ops).2 0 := by
  have hcalls : AdmissibleHistory uprightBoard [.setWindow 0 0 10 10] :=
    ⟨by constructor <;> decide, fun _ _ => trivial⟩
  obtain ⟨b, hrun, hinv⟩ := (lcdDisplayDir_inv ⟨⟨0, 0, 0x9341, 0, 0, 0, 0⟩,
    ⟨0, 0, 0, 0, 0, 0, 0, 0, 0⟩⟩ rfl 0).run hcalls
  obtain ⟨hcol, hpage, hfull⟩ := hinv.full_iff
  obtain ⟨ops, hops, hcleared⟩ := Ili9341.cleared_lcdClear_iff hinv.drives hcol hpage 0
  refine ⟨hcalls, b, ops, hrun, hops, fun h => ?_⟩
  obtain ⟨hw, -, -, -⟩ := panelSizes_bounds hinv.size
  have hright : 0 + 10 = b.lcddev.width.toNat :=
    (hfull.mp (hcleared.mp h) ⟨0, 0, 10, 10⟩ rfl).1
  omega

end Stm32Board.Lcd
