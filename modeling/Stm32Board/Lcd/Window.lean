import Stm32Board.Lcd.Orientation
import Mathlib.Order.Nat
import Mathlib.Tactic.SplitIfs
import Mathlib.Tactic.Tauto

/-!
# Window and cursor in controller coordinates

The bus writes of `LCD_SetCursor` and `LCD_Set_Window` are latched as parameters of the commands they
follow, and decoded by the rules of each command set: two bytes to a coordinate, four to a range, or
one register each. `windowMatches_iff` says for which controllers and windows the programmed range is
the set of positions the cursor function would program for the pixels of the window.
-/

namespace Stm32Board.Lcd

/-! ## Latching -/

/-- The parameters of every command, by command and place, and the command being served. -/
structure Latches where
  param : UInt16 → ℕ → UInt16
  command : UInt16
  place : ℕ

/-- One bus write. -/
def Latches.step (s : Latches) : BusOp → Latches
  | .reg r => { s with command := r, place := 0 }
  | .ram d =>
    { s with
      param := fun c k => if c = s.command ∧ k = s.place then d else s.param c k
      place := s.place + 1 }

def Latches.run (s : Latches) (ops : List BusOp) : Latches := ops.foldl Latches.step s

theorem Latches.run_append (s : Latches) (xs ys : List BusOp) :
    s.run (xs ++ ys) = (s.run xs).run ys := List.foldl_append

/-- Data words fill the parameters of the last command, one after the other. -/
theorem Latches.run_data (s : Latches) (ds : List UInt16) (c : UInt16) (k : ℕ) :
    (s.run (ds.map .ram)).param c k =
      if c = s.command ∧ s.place ≤ k then (ds[k - s.place]?).getD (s.param c k)
      else s.param c k := by
  induction ds generalizing s with
  | nil => simp [run]
  | cons d ds ih =>
    rw [List.map_cons, run, List.foldl_cons, ← run, ih]
    simp only [step]
    by_cases hc : c = s.command
    · rcases lt_trichotomy k s.place with hk | rfl | hk
      · simp [hc, show ¬s.place + 1 ≤ k by omega, show ¬s.place ≤ k by omega, hk.ne]
      · simp [hc, show ¬s.place + 1 ≤ s.place by omega]
      · obtain ⟨m, rfl⟩ : ∃ m, k = s.place + 1 + m := ⟨k - s.place - 1, by omega⟩
        simp [hc, show s.place + 1 + m - s.place = m + 1 by omega,
          show s.place ≤ s.place + 1 + m by omega, show s.place + 1 + m ≠ s.place by omega]
    · simp [hc]

/-- A command with its parameters. -/
def commandOps (cmd : UInt16) (ds : List UInt16) : List BusOp := .reg cmd :: ds.map .ram

/-- A command latches its own parameters and keeps the rest. -/
theorem Latches.run_commandOps (s : Latches) (cmd : UInt16) (ds : List UInt16) (c : UInt16)
    (k : ℕ) :
    (s.run (commandOps cmd ds)).param c k =
      if c = cmd then (ds[k]?).getD (s.param c k) else s.param c k := by
  rw [commandOps, run, List.foldl_cons, ← run, run_data]
  simp [step]

/-- A coordinate from two consecutive parameters of a command. -/
def Latches.word (s : Latches) (cmd : UInt16) (k : ℕ) : UInt16 :=
  wordOf (s.param cmd k) (s.param cmd (k + 1))

/-- The two bytes of a word. -/
def wordBytes (v : UInt16) : List UInt16 := [v >>> 8, v &&& 0xFF]

/-- Two words sent to a command are its two coordinates. -/
theorem Latches.word_commandOps (s : Latches) (cmd a b : UInt16) :
    (s.run (commandOps cmd (wordBytes a ++ wordBytes b))).word cmd 0 = a ∧
      (s.run (commandOps cmd (wordBytes a ++ wordBytes b))).word cmd 2 = b := by
  simp [word, run_commandOps, wordBytes, wordOf_bytes]

/-- One command leaves the parameters of another alone. -/
theorem Latches.word_commandOps_ne (s : Latches) {cmd cmd' : UInt16} (h : cmd ≠ cmd')
    (ds : List UInt16) (k : ℕ) : (s.run (commandOps cmd' ds)).word cmd k = s.word cmd k := by
  simp [word, run_commandOps, h]

/-- One word sent to a command is its first coordinate. -/
theorem Latches.word_commandOps_single (s : Latches) (cmd a : UInt16) :
    (s.run (commandOps cmd (wordBytes a))).word cmd 0 = a := by
  simp [word, run_commandOps, wordBytes, wordOf_bytes]

/-- A coordinate from the first parameter of two consecutive commands. -/
def Latches.pair (s : Latches) (cmd : UInt16) : UInt16 :=
  wordOf (s.param cmd 0) (s.param (cmd + 1) 0)

/-! ## Decoding -/

/-- The position, along the axis of `setxcmd` and along that of `setycmd`. The 1963 counts an upright
screen down from the end of its range. -/
def decodeCursor (lcddev : LcdDev) (s : Latches) : UInt16 × UInt16 :=
  if lcddev.id = 0x9341 ∨ lcddev.id = 0x5310 ∨ lcddev.id = 0x6804 then
    (s.word lcddev.setxcmd 0, s.word lcddev.setycmd 0)
  else if lcddev.id = 0x1963 then
    (s.word lcddev.setxcmd (if lcddev.dir = 0 then 2 else 0), s.word lcddev.setycmd 0)
  else if lcddev.id = 0x5510 then
    (s.pair lcddev.setxcmd, s.pair lcddev.setycmd)
  else (s.param lcddev.setxcmd 0, s.param lcddev.setycmd 0)

/-- A range of coordinates, both ends included. -/
structure AxisRange where
  first : UInt16
  last : UInt16
deriving DecidableEq, Repr

def AxisRange.Contains (r : AxisRange) (c : UInt16) : Prop := r.first ≤ c ∧ c ≤ r.last

/-- The window registers of the axis with address register `0x20` or `0x21`. -/
def registerRange (s : Latches) (cmd : UInt16) : AxisRange :=
  if cmd = 0x20 then ⟨s.param 0x50 0, s.param 0x51 0⟩ else ⟨s.param 0x52 0, s.param 0x53 0⟩

/-- The range along the axis of a command. -/
def decodeRange (lcddev : LcdDev) (s : Latches) (cmd : UInt16) : AxisRange :=
  if lcddev.id = 0x9341 ∨ lcddev.id = 0x5310 ∨ lcddev.id = 0x6804 ∨ lcddev.id = 0x1963 then
    ⟨s.word cmd 0, s.word cmd 2⟩
  else if lcddev.id = 0x5510 then ⟨s.pair cmd, s.pair (cmd + 2)⟩
  else registerRange s cmd

/-! ## What the driver programs -/

/-- The commands are those `LCD_Display_Dir` selects for the controller and the orientation. -/
structure Configured (lcddev : LcdDev) : Prop where
  dir_eq : lcddev.dir = 0 ∨ lcddev.dir = 1
  setxcmd_eq : lcddev.setxcmd = (lcdDisplayDirParams lcddev lcddev.dir).setxcmd
  setycmd_eq : lcddev.setycmd = (lcdDisplayDirParams lcddev lcddev.dir).setycmd

/-- `LCD_Scan_Dir` may exchange width and height, and changes nothing else. -/
theorem lcdScanDir_commands (lcddev : LcdDev) (dir : UInt8) :
    (lcdScanDir lcddev dir).1.id = lcddev.id ∧ (lcdScanDir lcddev dir).1.dir = lcddev.dir ∧
      (lcdScanDir lcddev dir).1.setxcmd = lcddev.setxcmd ∧
      (lcdScanDir lcddev dir).1.setycmd = lcddev.setycmd := by
  rcases lcdScanDir_size lcddev dir with h | h <;> rw [h] <;> exact ⟨rfl, rfl, rfl, rfl⟩

/-- The controller and the direction are kept as given. -/
theorem lcdDisplayDirParams_fields (lcddev : LcdDev) {dir : UInt8} (h : dir = 0 ∨ dir = 1) :
    (lcdDisplayDirParams lcddev dir).id = lcddev.id ∧
      (lcdDisplayDirParams lcddev dir).dir = dir := by
  rcases h with rfl | rfl <;> unfold lcdDisplayDirParams <;> dsimp only <;> split_ifs <;> simp_all

/-- The commands depend on the controller and the orientation alone. -/
theorem lcdDisplayDirParams_commands {lcddev lcddev' : LcdDev} (h : lcddev.id = lcddev'.id)
    (dir : UInt8) :
    (lcdDisplayDirParams lcddev dir).setxcmd = (lcdDisplayDirParams lcddev' dir).setxcmd ∧
      (lcdDisplayDirParams lcddev dir).setycmd = (lcdDisplayDirParams lcddev' dir).setycmd := by
  simp [lcdDisplayDirParams, h]

/-- `LCD_Display_Dir` configures the driver. -/
theorem configured_lcdDisplayDir (lcddev : LcdDev) {dir : UInt8} (h : dir = 0 ∨ dir = 1) :
    Configured (lcdDisplayDir lcddev dir).1 := by
  obtain ⟨hid, hdir, hx, hy⟩ := lcdScanDir_commands (lcdDisplayDirParams lcddev dir) dftScanDir
  obtain ⟨hid', hdir'⟩ := lcdDisplayDirParams_fields lcddev h
  have hcommands := lcdDisplayDirParams_commands (hid.trans hid').symm dir
  rw [hdir'] at hdir
  constructor
  · rw [lcdDisplayDir, hdir]
    exact h
  · rw [lcdDisplayDir, hx, hdir]
    exact hcommands.1
  · rw [lcdDisplayDir, hy, hdir]
    exact hcommands.2

/-- A controller without a case of its own. -/
def OtherId (lcddev : LcdDev) : Prop :=
  lcddev.id ≠ 0x9341 ∧ lcddev.id ≠ 0x5310 ∧ lcddev.id ≠ 0x6804 ∧ lcddev.id ≠ 0x1963 ∧
    lcddev.id ≠ 0x5510

/-- The cursor function mirrors the column. -/
def CursorMirrors (lcddev : LcdDev) : Prop :=
  (lcddev.id = 0x6804 ∧ lcddev.dir = 1) ∨ (lcddev.id = 0x1963 ∧ lcddev.dir = 0) ∨
    (OtherId lcddev ∧ lcddev.dir = 1)

/-- The window function mirrors the columns. -/
def WindowMirrors (lcddev : LcdDev) : Prop :=
  (lcddev.id = 0x1963 ∧ lcddev.dir = 0) ∨ (OtherId lcddev ∧ lcddev.dir = 1)

instance (lcddev : LcdDev) : Decidable (OtherId lcddev) := inferInstanceAs (Decidable (_ ∧ _))
instance (lcddev : LcdDev) : Decidable (CursorMirrors lcddev) :=
  inferInstanceAs (Decidable (_ ∨ _))
instance (lcddev : LcdDev) : Decidable (WindowMirrors lcddev) :=
  inferInstanceAs (Decidable (_ ∨ _))

/-- The commands of the six families. -/
theorem Configured.commands {lcddev : LcdDev} (h : Configured lcddev) :
    ((lcddev.id = 0x9341 ∨ lcddev.id = 0x5310) ∧
      lcddev.setxcmd = 0x2A ∧ lcddev.setycmd = 0x2B) ∨
    (lcddev.id = 0x6804 ∧ lcddev.dir = 0 ∧ lcddev.setxcmd = 0x2A ∧ lcddev.setycmd = 0x2B) ∨
    (lcddev.id = 0x6804 ∧ lcddev.dir = 1 ∧ lcddev.setxcmd = 0x2B ∧ lcddev.setycmd = 0x2A) ∨
    (lcddev.id = 0x1963 ∧ lcddev.dir = 0 ∧ lcddev.setxcmd = 0x2B ∧ lcddev.setycmd = 0x2A) ∨
    (lcddev.id = 0x1963 ∧ lcddev.dir = 1 ∧ lcddev.setxcmd = 0x2A ∧ lcddev.setycmd = 0x2B) ∨
    (lcddev.id = 0x5510 ∧ lcddev.setxcmd = 0x2A00 ∧ lcddev.setycmd = 0x2B00) ∨
    (OtherId lcddev ∧ lcddev.dir = 0 ∧ lcddev.setxcmd = 0x20 ∧ lcddev.setycmd = 0x21) ∨
    (OtherId lcddev ∧ lcddev.dir = 1 ∧ lcddev.setxcmd = 0x21 ∧ lcddev.setycmd = 0x20) := by
  obtain ⟨hdir, hx, hy⟩ := h
  have hfamily : (lcddev.id = 0x9341 ∨ lcddev.id = 0x5310) ∨ lcddev.id = 0x6804 ∨
      lcddev.id = 0x1963 ∨ lcddev.id = 0x5510 ∨ OtherId lcddev := by
    unfold OtherId
    tauto
  rcases hfamily with hid | hid | hid | hid | hid
  · refine .inl ⟨hid, ?_⟩
    rcases hid with hid | hid <;> rcases hdir with hdir | hdir <;>
      simpa [lcdDisplayDirParams, hid, hdir] using And.intro hx hy
  · rcases hdir with hdir | hdir <;>
      simpa [lcdDisplayDirParams, OtherId, hid, hdir] using And.intro hx hy
  · rcases hdir with hdir | hdir <;>
      simpa [lcdDisplayDirParams, OtherId, hid, hdir] using And.intro hx hy
  · rcases hdir with hdir | hdir <;>
      simpa [lcdDisplayDirParams, OtherId, hid, hdir] using And.intro hx hy
  · obtain ⟨h₁, h₂, h₃, h₄, h₅⟩ := id hid
    rcases hdir with hdir | hdir <;>
      simpa [lcdDisplayDirParams, hdir, hid, h₁, h₂, h₃, h₄, h₅] using And.intro hx hy

/-- The two axes have commands of their own. -/
theorem Configured.setxcmd_ne_setycmd {lcddev : LcdDev} (h : Configured lcddev) :
    lcddev.setxcmd ≠ lcddev.setycmd := by
  rcases h.commands with ⟨-, hx, hy⟩ | ⟨-, -, hx, hy⟩ | ⟨-, -, hx, hy⟩ | ⟨-, -, hx, hy⟩ |
    ⟨-, -, hx, hy⟩ | ⟨-, hx, hy⟩ | ⟨-, -, hx, hy⟩ | ⟨-, -, hx, hy⟩ <;>
  · rw [hx, hy]
    decide

/-- The 5510 takes its two ranges by 16-bit commands. -/
theorem Configured.commands_5510 {lcddev : LcdDev} (h : Configured lcddev)
    (hid : lcddev.id = 0x5510) : lcddev.setxcmd = 0x2A00 ∧ lcddev.setycmd = 0x2B00 := by
  rw [h.setxcmd_eq, h.setycmd_eq, lcdDisplayDirParams]
  rcases h.dir_eq with hdir | hdir <;> simp [hid, hdir]

/-- The column the cursor function programs. -/
def cursorColumn (lcddev : LcdDev) (xpos : UInt16) : UInt16 :=
  if CursorMirrors lcddev then lcddev.width - 1 - xpos else xpos

/-- The cursor function of the controllers that take two bytes to a coordinate. -/
theorem lcdSetCursor_bytes {lcddev : LcdDev}
    (h : lcddev.id = 0x9341 ∨ lcddev.id = 0x5310 ∨ lcddev.id = 0x6804) (xpos ypos : UInt16) :
    lcdSetCursor lcddev xpos ypos =
      commandOps lcddev.setxcmd (wordBytes (cursorColumn lcddev xpos)) ++
        commandOps lcddev.setycmd (wordBytes ypos) := by
  rw [lcdSetCursor, cursorColumn]
  rcases h with h | h | h <;>
    simp [h, CursorMirrors, OtherId, lcdWrReg, lcdWrWord, lcdWrData, commandOps, wordBytes]

/-- The cursor function of the 1963 programs ranges, with the position at one end of the columns. -/
theorem lcdSetCursor_1963 {lcddev : LcdDev} (h : lcddev.id = 0x1963) (xpos ypos : UInt16) :
    lcdSetCursor lcddev xpos ypos =
      commandOps lcddev.setxcmd
        (if lcddev.dir = 0 then wordBytes 0 ++ wordBytes (cursorColumn lcddev xpos)
        else wordBytes (cursorColumn lcddev xpos) ++ wordBytes (lcddev.width - 1)) ++
      commandOps lcddev.setycmd (wordBytes ypos ++ wordBytes (lcddev.height - 1)) := by
  rw [lcdSetCursor, cursorColumn]
  by_cases hdir : lcddev.dir = 0 <;>
    simp [h, hdir, CursorMirrors, OtherId, lcdWrReg, lcdWrWord, lcdWrData, commandOps, wordBytes]

/-- The cursor function of the 5510, one byte to a command. -/
theorem lcdSetCursor_5510 {lcddev : LcdDev} (h : lcddev.id = 0x5510) (xpos ypos : UInt16) :
    lcdSetCursor lcddev xpos ypos =
      commandOps lcddev.setxcmd [cursorColumn lcddev xpos >>> 8] ++
      commandOps (lcddev.setxcmd + 1) [cursorColumn lcddev xpos &&& 0xFF] ++
      commandOps lcddev.setycmd [ypos >>> 8] ++ commandOps (lcddev.setycmd + 1) [ypos &&& 0xFF] := by
  rw [lcdSetCursor, cursorColumn]
  simp [h, CursorMirrors, OtherId, lcdWriteReg, commandOps]

/-- The cursor function of the other controllers, one register to a coordinate. -/
theorem lcdSetCursor_other {lcddev : LcdDev} (h : OtherId lcddev) (xpos ypos : UInt16) :
    lcdSetCursor lcddev xpos ypos =
      commandOps lcddev.setxcmd [cursorColumn lcddev xpos] ++
        commandOps lcddev.setycmd [ypos] := by
  obtain ⟨h₁, h₂, h₃, h₄, h₅⟩ := id h
  rw [lcdSetCursor, cursorColumn]
  simp [h, h₁, h₂, h₃, h₄, h₅, CursorMirrors, lcdWriteReg, commandOps]

/-- The cursor function programs the column, mirrored or not, and the row. -/
theorem decodeCursor_lcdSetCursor {lcddev : LcdDev} (h : Configured lcddev) (s : Latches)
    (xpos ypos : UInt16) :
    decodeCursor lcddev (s.run (lcdSetCursor lcddev xpos ypos)) =
      (if CursorMirrors lcddev then lcddev.width - 1 - xpos else xpos, ypos) := by
  change _ = (cursorColumn lcddev xpos, ypos)
  have hne := h.setxcmd_ne_setycmd
  have hfamily : (lcddev.id = 0x9341 ∨ lcddev.id = 0x5310 ∨ lcddev.id = 0x6804) ∨
      lcddev.id = 0x1963 ∨ lcddev.id = 0x5510 ∨ OtherId lcddev := by
    unfold OtherId
    tauto
  rcases hfamily with hid | hid | hid | hid
  · rw [lcdSetCursor_bytes hid, Latches.run_append, decodeCursor, if_pos hid,
      Latches.word_commandOps_ne _ hne, Latches.word_commandOps_single,
      Latches.word_commandOps_single]
  · rw [lcdSetCursor_1963 hid, Latches.run_append, decodeCursor, if_neg (by rw [hid]; decide),
      if_pos hid, Latches.word_commandOps_ne _ hne, (Latches.word_commandOps _ _ _ _).1]
    split_ifs
    · rw [(Latches.word_commandOps _ _ _ _).2]
    · rw [(Latches.word_commandOps _ _ _ _).1]
  · obtain ⟨hx, hy⟩ := h.commands_5510 hid
    rw [lcdSetCursor_5510 hid, hx, hy]
    simp [decodeCursor, hid, hx, hy, Latches.pair, Latches.run_append, Latches.run_commandOps,
      wordOf_bytes]
  · obtain ⟨h₁, h₂, h₃, h₄, h₅⟩ := id hid
    rw [lcdSetCursor_other hid]
    simp [decodeCursor, h₁, h₂, h₃, h₄, h₅, hne, Latches.run_append, Latches.run_commandOps]

/-- The first column the window function programs. -/
def windowFirst (lcddev : LcdDev) (sx width : UInt16) : UInt16 :=
  if WindowMirrors lcddev then lcddev.width - width - sx else sx

/-- The window function of the controllers that take ranges of bytes. -/
theorem lcdSetWindow_bytes {lcddev : LcdDev} (hdir : lcddev.dir = 0 ∨ lcddev.dir = 1)
    (h : lcddev.id = 0x9341 ∨ lcddev.id = 0x5310 ∨ lcddev.id = 0x6804 ∨ lcddev.id = 0x1963)
    (sx sy width height : UInt16) :
    lcdSetWindow lcddev sx sy width height =
      commandOps lcddev.setxcmd (wordBytes (windowFirst lcddev sx width) ++
        wordBytes (windowFirst lcddev sx width + width - 1)) ++
      commandOps lcddev.setycmd (wordBytes sy ++ wordBytes (sy + height - 1)) := by
  rw [lcdSetWindow, windowFirst]
  rcases h with h | h | h | h <;> rcases hdir with hdir | hdir <;>
    simp [h, hdir, WindowMirrors, OtherId, lcdWrReg, lcdWrWord, lcdWrData, commandOps, wordBytes]

/-- The window function of the 5510, one parameter to a command. -/
theorem lcdSetWindow_5510 {lcddev : LcdDev} (h : lcddev.id = 0x5510)
    (sx sy width height : UInt16) :
    lcdSetWindow lcddev sx sy width height =
      commandOps lcddev.setxcmd [sx >>> 8] ++ commandOps (lcddev.setxcmd + 1) [sx &&& 0xFF] ++
      commandOps (lcddev.setxcmd + 2) [(sx + width - 1) >>> 8] ++
      commandOps (lcddev.setxcmd + 3) [(sx + width - 1) &&& 0xFF] ++
      commandOps lcddev.setycmd [sy >>> 8] ++ commandOps (lcddev.setycmd + 1) [sy &&& 0xFF] ++
      commandOps (lcddev.setycmd + 2) [(sy + height - 1) >>> 8] ++
      commandOps (lcddev.setycmd + 3) [(sy + height - 1) &&& 0xFF] := by
  simp [lcdSetWindow, h, lcdWriteReg, commandOps]

/-- The window function of the other controllers: four registers, then the cursor. -/
theorem lcdSetWindow_other {lcddev : LcdDev} (h : OtherId lcddev) (sx sy width height : UInt16) :
    ∃ xpos, lcdSetWindow lcddev sx sy width height =
      (if lcddev.dir = 1 then
        commandOps 0x50 [sy] ++ commandOps 0x51 [sy + height - 1] ++
        commandOps 0x52 [lcddev.width - (sx + width - 1) - 1] ++
        commandOps 0x53 [lcddev.width - sx - 1]
      else
        commandOps 0x50 [sx] ++ commandOps 0x51 [sx + width - 1] ++
        commandOps 0x52 [sy] ++ commandOps 0x53 [sy + height - 1]) ++
      commandOps lcddev.setxcmd [xpos] ++ commandOps lcddev.setycmd [sy] := by
  obtain ⟨h₁, h₂, h₃, h₄, h₅⟩ := h
  refine ⟨if lcddev.dir = 1 then lcddev.width - 1 - sx else sx, ?_⟩
  rw [lcdSetWindow]
  split_ifs <;> simp_all [lcdSetCursor, lcdWriteReg, commandOps]

/-- Controllers with byte parameters read the range back from four bytes an axis. -/
private theorem decodeRange_bytes {lcddev : LcdDev} (hdir : lcddev.dir = 0 ∨ lcddev.dir = 1)
    (hid : lcddev.id = 0x9341 ∨ lcddev.id = 0x5310 ∨ lcddev.id = 0x6804 ∨ lcddev.id = 0x1963)
    (hcmd : lcddev.setxcmd ≠ lcddev.setycmd) (s : Latches) (sx sy width height : UInt16) :
    decodeRange lcddev (s.run (lcdSetWindow lcddev sx sy width height)) lcddev.setxcmd =
        ⟨windowFirst lcddev sx width, windowFirst lcddev sx width + width - 1⟩ ∧
      decodeRange lcddev (s.run (lcdSetWindow lcddev sx sy width height)) lcddev.setycmd =
        ⟨sy, sy + height - 1⟩ := by
  rw [lcdSetWindow_bytes hdir hid, Latches.run_append, decodeRange, decodeRange, if_pos hid,
    if_pos hid, Latches.word_commandOps_ne _ hcmd, Latches.word_commandOps_ne _ hcmd,
    (Latches.word_commandOps _ _ _ _).1, (Latches.word_commandOps _ _ _ _).2,
    (Latches.word_commandOps _ _ _ _).1, (Latches.word_commandOps _ _ _ _).2]
  exact ⟨rfl, rfl⟩

/-- The ranges programmed: the columns, mirrored or not, and the rows. -/
theorem decodeRange_lcdSetWindow {lcddev : LcdDev} (h : Configured lcddev) (s : Latches)
    (sx sy width height : UInt16) :
    decodeRange lcddev (s.run (lcdSetWindow lcddev sx sy width height)) lcddev.setxcmd =
        ⟨windowFirst lcddev sx width, windowFirst lcddev sx width + width - 1⟩ ∧
      decodeRange lcddev (s.run (lcdSetWindow lcddev sx sy width height)) lcddev.setycmd =
        ⟨sy, sy + height - 1⟩ := by
  have hbytes := fun hid =>
    decodeRange_bytes h.dir_eq hid h.setxcmd_ne_setycmd s sx sy width height
  -- one case for each kind of controller
  rcases h.commands with ⟨hid, -⟩ | ⟨hid, -⟩ | ⟨hid, -⟩ | ⟨hid, -⟩ | ⟨hid, -⟩ | ⟨hid, hx, hy⟩ |
    ⟨hid, hdir, hx, hy⟩ | ⟨hid, hdir, hx, hy⟩
  · exact hbytes (by tauto)
  · exact hbytes (by tauto)
  · exact hbytes (by tauto)
  · exact hbytes (by tauto)
  · exact hbytes (by tauto)
  · have hfirst : windowFirst lcddev sx width = sx := by
      simp [windowFirst, WindowMirrors, OtherId, hid]
    rw [hfirst, lcdSetWindow_5510 hid, hx, hy]
    simp [decodeRange, hid, Latches.pair, Latches.run_append, Latches.run_commandOps,
      wordOf_bytes]
  · obtain ⟨h₁, h₂, h₃, h₄, h₅⟩ := id hid
    have hfirst : windowFirst lcddev sx width = sx := by
      simp [windowFirst, WindowMirrors, hdir, h₄]
    obtain ⟨xpos, hops⟩ := lcdSetWindow_other hid sx sy width height
    rw [hfirst, hops, if_neg (by rw [hdir]; decide), hx, hy]
    simp [decodeRange, registerRange, h₁, h₂, h₃, h₄, h₅, Latches.run_append,
      Latches.run_commandOps]
  · -- turned, these controllers count columns from the other side and swap the window registers
    obtain ⟨h₁, h₂, h₃, h₄, h₅⟩ := id hid
    have hfirst : windowFirst lcddev sx width = lcddev.width - width - sx := by
      simp [windowFirst, WindowMirrors, hid, hdir]
    have hlow : lcddev.width - (sx + width - 1) - 1 = lcddev.width - width - sx := by grind
    have hhigh : lcddev.width - sx - 1 = lcddev.width - width - sx + width - 1 := by grind
    obtain ⟨xpos, hops⟩ := lcdSetWindow_other hid sx sy width height
    rw [hfirst, hops, if_pos hdir, hx, hy, hlow, hhigh]
    simp [decodeRange, registerRange, h₁, h₂, h₃, h₄, h₅, Latches.run_append,
      Latches.run_commandOps]

/-! ## The window against the cursor -/

/-- The programmed ranges contain a pair of coordinates exactly when the cursor function programs it
for a pixel of the window. -/
def WindowMatches (lcddev : LcdDev) (sx sy width height : UInt16) : Prop :=
  ∀ (s s' : Latches) (c r : UInt16),
    ((decodeRange lcddev (s.run (lcdSetWindow lcddev sx sy width height))
        lcddev.setxcmd).Contains c ∧
      (decodeRange lcddev (s.run (lcdSetWindow lcddev sx sy width height))
        lcddev.setycmd).Contains r) ↔
    ∃ x y : UInt16, sx ≤ x ∧ x < sx + width ∧ sy ≤ y ∧ y < sy + height ∧
      decodeCursor lcddev (s'.run (lcdSetCursor lcddev x y)) = (c, r)

/-- The window fits the screen. -/
structure WindowFits (lcddev : LcdDev) (sx sy width height : UInt16) : Prop where
  width_pos : 1 ≤ width.toNat
  height_pos : 1 ≤ height.toNat
  right_le : sx.toNat + width.toNat ≤ lcddev.width.toNat
  bottom_le : sy.toNat + height.toNat ≤ lcddev.height.toNat

/-- The first column the cursor function programs for a pixel of the window. -/
def cursorFirst (lcddev : LcdDev) (sx width : UInt16) : UInt16 :=
  if CursorMirrors lcddev then lcddev.width - width - sx else sx

section Fits

variable {lcddev : LcdDev} {sx sy width height : UInt16}

private theorem one_toNat : (1 : UInt16).toNat = 1 := rfl

/-- Both functions program a range of the window's own width. -/
theorem WindowFits.first_toNat (hfits : WindowFits lcddev sx sy width height) {first : UInt16}
    (h : first = lcddev.width - width - sx ∨ first = sx) :
    first.toNat + width.toNat ≤ lcddev.width.toNat ∧
      (first + width - 1).toNat = first.toNat + width.toNat - 1 ∧
      ((lcddev.width - width - sx).toNat = lcddev.width.toNat - width.toNat - sx.toNat) := by
  obtain ⟨hw, -, hright, -⟩ := hfits
  have hlt := lcddev.width.toNat_lt
  have hmirror : (lcddev.width - width - sx).toNat =
      lcddev.width.toNat - width.toNat - sx.toNat := by
    rw [UInt16.toNat_sub, UInt16.toNat_sub]
    omega
  have hfirst : first.toNat + width.toNat ≤ lcddev.width.toNat := by
    rcases h with rfl | rfl <;> omega
  refine ⟨hfirst, ?_, hmirror⟩
  rw [UInt16.toNat_sub, UInt16.toNat_add, one_toNat]
  omega

/-- The columns of the cursor positions of the window. -/
theorem exists_cursor_column_iff (hfits : WindowFits lcddev sx sy width height) (c : UInt16) :
    (∃ x, sx ≤ x ∧ x < sx + width ∧
        (if CursorMirrors lcddev then lcddev.width - 1 - x else x) = c) ↔
      AxisRange.Contains ⟨cursorFirst lcddev sx width, cursorFirst lcddev sx width + width - 1⟩
        c := by
  have hlt := lcddev.width.toNat_lt
  have hright := hfits.right_le
  have hw := hfits.width_pos
  have hsum : (sx + width).toNat = sx.toNat + width.toNat := by
    rw [UInt16.toNat_add]
    omega
  have hmirror : ∀ x : UInt16, x.toNat < lcddev.width.toNat →
      (lcddev.width - 1 - x).toNat = lcddev.width.toNat - 1 - x.toNat := by
    intro x hx
    rw [UInt16.toNat_sub, UInt16.toNat_sub, one_toNat]
    omega
  simp only [AxisRange.Contains, cursorFirst, UInt16.le_iff_toNat_le, UInt16.lt_iff_toNat_lt, hsum]
  split_ifs with hm
  · -- mirroring is its own inverse on the columns of the screen
    obtain ⟨hfirst, hlast, hval⟩ := hfits.first_toNat (.inl (Eq.refl (lcddev.width - width - sx)))
    rw [hlast, hval]
    constructor
    · rintro ⟨x, h₁, h₂, rfl⟩
      rw [hmirror x (by omega)]
      omega
    · rintro ⟨h₁, h₂⟩
      have hc : c.toNat < lcddev.width.toNat := by omega
      refine ⟨lcddev.width - 1 - c, ?_, ?_, ?_⟩
      · rw [hmirror c hc]
        omega
      · rw [hmirror c hc]
        omega
      · rw [← UInt16.toNat_inj, hmirror _ (by rw [hmirror c hc]; omega), hmirror c hc]
        omega
  · obtain ⟨-, hlast, -⟩ := hfits.first_toNat (.inr (Eq.refl sx))
    rw [hlast]
    constructor
    · rintro ⟨x, h₁, h₂, rfl⟩
      omega
    · rintro ⟨h₁, h₂⟩
      exact ⟨c, h₁, by omega, rfl⟩

/-- The rows are counted upwards on every controller. -/
theorem exists_cursor_row_iff (hfits : WindowFits lcddev sx sy width height) (r : UInt16) :
    (sy ≤ r ∧ r < sy + height) ↔ AxisRange.Contains ⟨sy, sy + height - 1⟩ r := by
  have hlt := lcddev.height.toNat_lt
  have hbottom := hfits.bottom_le
  have hh := hfits.height_pos
  simp only [AxisRange.Contains, UInt16.le_iff_toNat_le, UInt16.lt_iff_toNat_lt, UInt16.toNat_sub,
    UInt16.toNat_add, one_toNat]
  omega

/-- The first column of the window, mirrored or not. -/
theorem windowFirst_eq_or (lcddev : LcdDev) (sx width : UInt16) :
    windowFirst lcddev sx width = lcddev.width - width - sx ∨ windowFirst lcddev sx width = sx := by
  rw [windowFirst]
  split_ifs
  · exact .inl rfl
  · exact .inr rfl

/-- And that of the cursor. -/
theorem cursorFirst_eq_or (lcddev : LcdDev) (sx width : UInt16) :
    cursorFirst lcddev sx width = lcddev.width - width - sx ∨ cursorFirst lcddev sx width = sx := by
  rw [cursorFirst]
  split_ifs
  · exact .inl rfl
  · exact .inr rfl

/-- The functions disagree on mirroring for one controller and orientation only. -/
theorem windowFirst_eq_cursorFirst_iff (hfits : WindowFits lcddev sx sy width height) :
    windowFirst lcddev sx width = cursorFirst lcddev sx width ↔
      ¬(lcddev.id = 0x6804 ∧ lcddev.dir = 1) ∨
        2 * sx.toNat + width.toNat = lcddev.width.toNat := by
  have hright := hfits.right_le
  obtain ⟨-, -, hval⟩ := hfits.first_toNat (.inr (Eq.refl sx))
  by_cases h : lcddev.id = 0x6804 ∧ lcddev.dir = 1
  · have hw : windowFirst lcddev sx width = sx := by
      simp [windowFirst, WindowMirrors, OtherId, h.1]
    have hc : cursorFirst lcddev sx width = lcddev.width - width - sx := if_pos (.inl h)
    rw [hw, hc, ← UInt16.toNat_inj, hval, or_iff_right (not_not.mpr h)]
    omega
  · have hsame : CursorMirrors lcddev ↔ WindowMirrors lcddev := or_iff_right h
    refine iff_of_true ?_ (.inl h)
    rw [windowFirst, cursorFirst]
    exact if_congr hsame.symm rfl rfl

/-- The positions the cursor function programs for the pixels of the window form a rectangle. -/
theorem exists_cursor_iff (h : Configured lcddev) (hfits : WindowFits lcddev sx sy width height)
    (s : Latches) (c r : UInt16) :
    (∃ x y : UInt16, sx ≤ x ∧ x < sx + width ∧ sy ≤ y ∧ y < sy + height ∧
        decodeCursor lcddev (s.run (lcdSetCursor lcddev x y)) = (c, r)) ↔
      AxisRange.Contains ⟨cursorFirst lcddev sx width, cursorFirst lcddev sx width + width - 1⟩ c ∧
        AxisRange.Contains ⟨sy, sy + height - 1⟩ r := by
  rw [← exists_cursor_column_iff hfits, ← exists_cursor_row_iff hfits]
  simp only [decodeCursor_lcdSetCursor h, Prod.mk.injEq]
  constructor
  · rintro ⟨x, y, hx₁, hx₂, hy₁, hy₂, hc, rfl⟩
    exact ⟨⟨x, hx₁, hx₂, hc⟩, hy₁, hy₂⟩
  · rintro ⟨⟨x, hx₁, hx₂, hc⟩, hy₁, hy₂⟩
    exact ⟨x, r, hx₁, hx₂, hy₁, hy₂, hc, rfl⟩

/-- A range of columns holds its first column. -/
theorem WindowFits.contains_first (hfits : WindowFits lcddev sx sy width height) {first : UInt16}
    (h : first = lcddev.width - width - sx ∨ first = sx) :
    AxisRange.Contains ⟨first, first + width - 1⟩ first := by
  have hw := hfits.width_pos
  refine ⟨UInt16.le_refl _, ?_⟩
  rw [UInt16.le_iff_toNat_le, (hfits.first_toNat h).2.1]
  omega

/-- The rows hold the first row. -/
theorem WindowFits.contains_row (hfits : WindowFits lcddev sx sy width height) :
    AxisRange.Contains ⟨sy, sy + height - 1⟩ sy := by
  have hlt := lcddev.height.toNat_lt
  have hh := hfits.height_pos
  have hbottom := hfits.bottom_le
  refine (exists_cursor_row_iff hfits sy).mp ⟨UInt16.le_refl _, ?_⟩
  rw [UInt16.lt_iff_toNat_lt, UInt16.toNat_add]
  omega

end Fits

/-- Window and cursor agree exactly when the cursor is not mirrored without the window, or the
window is centred. -/
theorem windowMatches_iff {lcddev : LcdDev} (h : Configured lcddev) {sx sy width height : UInt16}
    (hfits : WindowFits lcddev sx sy width height) :
    WindowMatches lcddev sx sy width height ↔
      ¬(lcddev.id = 0x6804 ∧ lcddev.dir = 1) ∨
        2 * sx.toNat + width.toNat = lcddev.width.toNat := by
  rw [← windowFirst_eq_cursorFirst_iff hfits]
  simp only [WindowMatches, exists_cursor_iff h hfits, decodeRange_lcdSetWindow h]
  constructor
  · intro hiff
    have hcolumns : ∀ c,
        AxisRange.Contains ⟨windowFirst lcddev sx width, windowFirst lcddev sx width + width - 1⟩
          c ↔
        AxisRange.Contains ⟨cursorFirst lcddev sx width, cursorFirst lcddev sx width + width - 1⟩
          c := by
      intro c
      have h₀ := hiff ⟨fun _ _ => 0, 0, 0⟩ ⟨fun _ _ => 0, 0, 0⟩ c sy
      rwa [and_iff_left hfits.contains_row, and_iff_left hfits.contains_row] at h₀
    -- two ranges of one width with the same columns begin at the same column
    exact UInt16.le_antisymm
      ((hcolumns _).mpr (hfits.contains_first (cursorFirst_eq_or lcddev sx width))).1
      ((hcolumns _).mp (hfits.contains_first (windowFirst_eq_or lcddev sx width))).1
  · intro heq s s' c r
    rw [heq]

/-- A window away from the edges of an upright ILI9341. -/
theorem windowMatches_ili9341 :
    WindowMatches (lcdDisplayDir ⟨0, 0, 0x9341, 0, 0, 0, 0⟩ 0).1 10 20 30 40 :=
  (windowMatches_iff (configured_lcdDisplayDir _ (.inl rfl))
    (by constructor <;> decide)).mpr (.inl (by decide))

/-- On a 6804 turned sideways the first column of the screen is programmed as the column the cursor
uses for the last. -/
theorem not_windowMatches_6804 :
    ¬WindowMatches (lcdDisplayDir ⟨0, 0, 0x6804, 0, 0, 0, 0⟩ 1).1 0 0 1 1 := by
  have hconf : Configured (lcdDisplayDir ⟨0, 0, 0x6804, 0, 0, 0, 0⟩ 1).1 :=
    configured_lcdDisplayDir _ (.inr rfl)
  intro h
  have hcorner := (h ⟨fun _ _ => 0, 0, 0⟩ ⟨fun _ _ => 0, 0, 0⟩ 0 0).mp (by
    rw [(decodeRange_lcdSetWindow hconf _ _ _ _ _).1, (decodeRange_lcdSetWindow hconf _ _ _ _ _).2]
    unfold AxisRange.Contains
    decide)
  obtain ⟨x, y, -, hx, -, -, hpos⟩ := hcorner
  rw [decodeCursor_lcdSetCursor hconf, if_pos (.inl (by decide))] at hpos
  obtain rfl : x = 0 := by
    rw [UInt16.lt_iff_toNat_lt] at hx
    rw [← UInt16.toNat_inj]
    exact Nat.lt_one_iff.mp hx
  exact absurd (Prod.mk.inj hpos).1 (by decide)

end Stm32Board.Lcd
