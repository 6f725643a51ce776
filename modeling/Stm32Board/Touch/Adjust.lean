import Stm32Board.Lcd.Orientation
import Stm32Board.Touch.Defs

/-!
# The calibration of the touch panel

Reference: `TP_Adjust`, `TP_Get_Adjdata`, `TP_Save_Adjdata` and `TP_Init` of
`applications/TOUCH/touch.c`.

`TP_Adjust` loops until four points pass three comparisons of distances and give small enough
factors, or until nothing is pressed for ten seconds. `tpAdjustPass` is one pass of its loop. The
calibration record in the EEPROM is the value of the 14 saved bytes, present when the marker byte
is. What the loop draws is left out.
-/

namespace Stm32Board.Touch

open Common Lcd

/-! ## The check of four points -/

/-- `abs(a-b)` on two unsigned 16-bit values, stored into 32 bits. -/
def absDiff (a b : UInt16) : UInt32 := UInt32.ofNat ((a.toNat : ℤ) - b.toNat).natAbs

/-- The distance of two points, `sqrt` truncated into 16 bits. -/
def tpDistance (p q : Point) : UInt16 :=
  let tem1 := absDiff p.1 q.1
  let tem2 := absDiff p.2 q.2
  let tem1 := tem1 * tem1
  let tem2 := tem2 * tem2
  UInt16.ofNat (tem1 + tem2).toNat.sqrt

/-- `fac=(float)d1/d2`. -/
def distanceRatio (d1 d2 : UInt16) : ExactFloat :=
  (ExactFloat.ofInt d1.toNat).div (ExactFloat.ofInt d2.toNat)

/-- `fac<0.95||fac>1.05`. -/
def UnfitRatio (fac : ExactFloat) : Prop :=
  fac.lt (.fin (95 / 100)) ∨ (ExactFloat.fin (105 / 100)).lt fac

instance (fac : ExactFloat) : Decidable (UnfitRatio fac) := inferInstanceAs (Decidable (_ ∨ _))

/-- The conversion of a float stored into a `short`. -/
def toShort (f : ExactFloat) : Int16 := Int16.ofInt f.toInt32

/-- `abs` of `stdlib.h`: the smallest integer has no positive counterpart. -/
def intAbs (n : ℤ) : ℤ := if n = -2147483648 then n else |n|

/-- `fac` of one axis: the span of the targets over the span of the readings. -/
def tpFac (size lo hi : UInt16) : ExactFloat :=
  (ExactFloat.ofInt (size.toNat - 40)).div (ExactFloat.ofInt (hi.toNat - lo.toNat))

/-- `off` of one axis. -/
def tpOff (size : UInt16) (fac : ExactFloat) (lo hi : UInt16) : Int16 :=
  toShort (((ExactFloat.ofInt size.toNat).sub
    (fac.mul (ExactFloat.ofInt (hi.toNat + lo.toNat)))).div (ExactFloat.ofInt 2))

/-- The four parameters computed from four points. -/
def tpAdjustParams (scr : Screen) (posTemp : Fin 4 → Point) (touchtype : UInt8) : AdjData :=
  let xfac := tpFac scr.width (posTemp 0).1 (posTemp 1).1
  let yfac := tpFac scr.height (posTemp 0).2 (posTemp 2).2
  { xfac := xfac
    yfac := yfac
    xoff := tpOff scr.width xfac (posTemp 0).1 (posTemp 1).1
    yoff := tpOff scr.height yfac (posTemp 0).2 (posTemp 2).2
    touchtype := touchtype }

/-- `abs(tp_dev.xfac)>2||abs(tp_dev.yfac)>2`. -/
def FactorsTooLarge (adj : AdjData) : Prop :=
  intAbs adj.xfac.toInt32 > 2 ∨ intAbs adj.yfac.toInt32 > 2

instance (adj : AdjData) : Decidable (FactorsTooLarge adj) :=
  inferInstanceAs (Decidable (_ ∨ _))

/-- The three ways the four points are judged. -/
inductive Verdict where
  /-- Two distances differ too much. -/
  | unfit
  /-- The factors are too large; they stay in `tp_dev`. -/
  | reversed (adj : AdjData)
  | accepted (adj : AdjData)
deriving DecidableEq

/-- Case 4 of `TP_Adjust`. -/
def tpAdjustVerdict (scr : Screen) (posTemp : Fin 4 → Point) (touchtype : UInt8) : Verdict :=
  let d1 := tpDistance (posTemp 0) (posTemp 1)
  let d2 := tpDistance (posTemp 2) (posTemp 3)
  if UnfitRatio (distanceRatio d1 d2) ∨ d1 = 0 ∨ d2 = 0 then .unfit
  else
    let d1 := tpDistance (posTemp 0) (posTemp 2)
    let d2 := tpDistance (posTemp 1) (posTemp 3)
    if UnfitRatio (distanceRatio d1 d2) then .unfit
    else
      let d1 := tpDistance (posTemp 1) (posTemp 2)
      let d2 := tpDistance (posTemp 0) (posTemp 3)
      if UnfitRatio (distanceRatio d1 d2) then .unfit
      else
        let adj := tpAdjustParams scr posTemp touchtype
        if FactorsTooLarge adj then
          .reversed { adj with touchtype := if touchtype = 0 then 1 else 0 }
        else .accepted adj

/-- Accepted means that the computation is reached and its factors pass. -/
theorem tpAdjustVerdict_eq_accepted_iff (scr : Screen) (pos : Fin 4 → Point) (touchtype : UInt8)
    (adj : AdjData) :
    tpAdjustVerdict scr pos touchtype = .accepted adj ↔
      tpAdjustVerdict scr pos touchtype ≠ .unfit ∧
      ¬FactorsTooLarge (tpAdjustParams scr pos touchtype) ∧
      adj = tpAdjustParams scr pos touchtype := by
  rw [tpAdjustVerdict]
  dsimp only
  rcases em (FactorsTooLarge (tpAdjustParams scr pos touchtype)) with h | h
  · rw [if_pos h]
    split_ifs <;> simp [h]
  · rw [if_neg h]
    split_ifs <;> simp [h, eq_comm]

/-! ## The loop -/

/-- `tp_dev`, the two conversion commands and the calibration record in the EEPROM. -/
structure TouchState where
  dev : TpDev
  cmdRdx : UInt8
  cmdRdy : UInt8
  stored : Option AdjData

/-- The commands that go with the panel type. -/
def TouchState.selectCommands (s : TouchState) : TouchState :=
  if s.dev.touchtype ≠ 0 then { s with cmdRdx := 0x90, cmdRdy := 0xD0 }
  else { s with cmdRdx := 0xD0, cmdRdy := 0x90 }

def TouchState.setAdj (s : TouchState) (adj : AdjData) : TouchState :=
  { s with dev := { s.dev with toAdjData := adj } }

def tpSaveAdjdata (s : TouchState) : TouchState :=
  { s with stored := some s.dev.toAdjData }

def tpGetAdjdata (s : TouchState) : TouchState × UInt8 :=
  match s.stored with
  | some adj => ((s.setAdj adj).selectCommands, 1)
  | none => (s, 0)

/-- The locals of `TP_Adjust` between two passes of its loop. -/
structure AdjustState extends TouchState where
  posTemp : Fin 4 → Point
  cnt : UInt8
  outtime : UInt16

/-- What a pass of the loop leads to. -/
inductive PassResult where
  | running (a : AdjustState)
  /-- `return` after saving the calibration. -/
  | saved (s : TouchState)
  /-- `break` after restoring the calibration. -/
  | timeout (s : TouchState)

/-- `TP_Adjust` up to its loop; `pos_temp` is not initialised. -/
def tpAdjustStart (posTemp : Fin 4 → Point) (s : TouchState) : AdjustState :=
  { s with
    dev := { s.dev with sta := 0, xfac := ExactFloat.ofInt 0 }
    posTemp := posTemp
    cnt := 0
    outtime := 0 }

/-- The end of the loop body: the wait, and the timeout after 1000 passes. -/
def tpAdjustTail (a : AdjustState) : PassResult :=
  let a := { a with outtime := a.outtime + 1 }
  if a.outtime > 1000 then .timeout (tpGetAdjdata a.toTouchState).1 else .running a

/-- The switch on the number of points recorded. -/
def tpAdjustSwitch (scr : Screen) (a : AdjustState) : PassResult :=
  if a.cnt = 4 then
    match tpAdjustVerdict scr a.posTemp a.dev.touchtype with
    | .unfit => .running { a with cnt := 0 }
    | .reversed adj =>
      .running { a with toTouchState := (a.setAdj adj).selectCommands, cnt := 0 }
    | .accepted adj => .saved (tpSaveAdjdata (a.setAdj adj))
  else tpAdjustTail a

/-- `tp_dev.sta&=~(1<<6)`: the press has been dealt with. -/
def TpDev.clearCath (d : TpDev) : TpDev :=
  { d with sta := d.sta &&& ~~~((1 : UInt8) <<< 6) }

/-- One pass of the loop of `TP_Adjust` and the point it records, if any. Writing `pos_temp` past
its end is `none`. -/
def tpAdjustPass (conv : Conversion) (scr : Screen) (a : AdjustState) (s : PenSample) :
    Option (PassResult × Option Point) :=
  let dev := (tpScan conv 1 s a.dev).1
  if dev.Caught then
    let a := { a with outtime := 0, dev := dev.clearCath }
    if h : a.cnt.toNat < 4 then
      let a := { a with
        posTemp := Function.update a.posTemp ⟨a.cnt.toNat, h⟩ a.dev.point
        cnt := a.cnt + 1 }
      some (tpAdjustSwitch scr a, some a.dev.point)
    else none
  else some (tpAdjustTail { a with dev := dev }, none)

/-! ## What one pass does -/

/-- The device after a pass. -/
def PassResult.dev : PassResult → TpDev
  | .running a => a.dev
  | .saved s => s.dev
  | .timeout s => s.dev

/-- Two devices with the same pen state and point, whatever their calibration. -/
structure SameScan (d d' : TpDev) : Prop where
  sta : d'.sta = d.sta
  point : d'.point = d.point

/-- A device is in step with itself. -/
theorem SameScan.refl (d : TpDev) : SameScan d d := ⟨rfl, rfl⟩

/-- It is pressed when the other one is. -/
theorem SameScan.pressed {d d' : TpDev} (h : SameScan d d') : d'.Pressed ↔ d.Pressed := by
  rw [TpDev.Pressed, h.sta, TpDev.Pressed]

/-- Choosing the commands leaves the device alone. -/
theorem selectCommands_dev (s : TouchState) : s.selectCommands.dev = s.dev := by
  rw [TouchState.selectCommands]
  split_ifs <;> rfl

/-- Reading the record back leaves pen state and point alone. -/
theorem tpGetAdjdata_sameScan (s : TouchState) : SameScan s.dev (tpGetAdjdata s).1.dev := by
  rw [tpGetAdjdata]
  split
  · rw [selectCommands_dev]
    exact ⟨rfl, rfl⟩
  · exact SameScan.refl _

/-- So does the end of the loop body. -/
theorem tpAdjustTail_sameScan (a : AdjustState) : SameScan a.dev (tpAdjustTail a).dev := by
  rw [tpAdjustTail]
  dsimp only
  split_ifs
  · exact tpGetAdjdata_sameScan a.toTouchState
  · exact SameScan.refl _

/-- A pass that goes on has counted. -/
theorem tpAdjustTail_running {a a' : AdjustState} (h : tpAdjustTail a = .running a') :
    a' = { a with outtime := a.outtime + 1 } := by
  rw [tpAdjustTail] at h
  dsimp only at h
  split_ifs at h
  exact (PassResult.running.inj h).symm

/-- The switch leaves pen state and point alone, whatever its verdict. -/
theorem tpAdjustSwitch_sameScan (scr : Screen) (a : AdjustState) :
    SameScan a.dev (tpAdjustSwitch scr a).dev := by
  rw [tpAdjustSwitch]
  split_ifs
  · split
    · exact SameScan.refl _
    · rw [PassResult.dev, selectCommands_dev]
      exact ⟨rfl, rfl⟩
    · exact ⟨rfl, rfl⟩
  · exact tpAdjustTail_sameScan a

/-- Between two passes a caught press has been dealt with and there is room for a point. -/
structure AdjustState.Ready (a : AdjustState) : Prop where
  not_caught : ¬a.dev.Caught
  cnt_lt : a.cnt.toNat < 4

/-- The flags and the counter are cleared before the loop. -/
theorem tpAdjustStart_ready (posTemp : Fin 4 → Point) (s : TouchState) :
    (tpAdjustStart posTemp s).Ready where
  not_caught := show ¬(0 : UInt8) &&& 0xc0 = tpCathPres by decide
  cnt_lt := show (0 : UInt8).toNat < 4 by decide

/-- The end of the body records nothing. -/
theorem tpAdjustTail_ready {a a' : AdjustState} (ha : a.Ready)
    (h : tpAdjustTail a = .running a') : a'.Ready := by
  rw [tpAdjustTail_running h]
  exact ⟨ha.not_caught, ha.cnt_lt⟩

/-- After four points the loop only goes on from the first. -/
theorem tpAdjustSwitch_ready (scr : Screen) {a a' : AdjustState} (hcaught : ¬a.dev.Caught)
    (hcnt : a.cnt.toNat ≤ 4) (h : tpAdjustSwitch scr a = .running a') : a'.Ready := by
  rw [tpAdjustSwitch] at h
  split_ifs at h with h4
  · split at h
    · rw [← PassResult.running.inj h]
      exact ⟨hcaught, Nat.zero_lt_succ 3⟩
    · rw [← PassResult.running.inj h]
      refine ⟨?_, Nat.zero_lt_succ 3⟩
      rw [selectCommands_dev]
      exact hcaught
    · exact absurd h (by simp)
  · have hne : a.cnt.toNat ≠ 4 := fun he => h4 (UInt8.toNat_inj.mp he)
    exact tpAdjustTail_ready ⟨hcaught, lt_of_le_of_ne hcnt hne⟩ h

/-- A press that has been dealt with is neither pressed nor caught. -/
theorem TpDev.Caught.clearCath {d : TpDev} (h : d.Caught) :
    ¬d.clearCath.Pressed ∧ ¬d.clearCath.Caught := by
  have hpres : ~~~((1 : UInt8) <<< 6) &&& tpPresDown = tpPresDown := by decide
  have hcath : ~~~((1 : UInt8) <<< 6) &&& 0xc0 = tpPresDown := by decide
  have hclear : d.sta &&& tpPresDown = 0 := not_not.mp h.not_pressed
  rw [Pressed, not_not, Caught, TpDev.clearCath, UInt8.and_assoc, hpres, UInt8.and_assoc, hcath,
    hclear]
  decide

/-- A pass is always defined. It keeps the point and the press flag of its scan, and records the
point of the press that its scan saw end, and no other. -/
theorem tpAdjustPass_spec (conv : Conversion) (scr : Screen) {a : AdjustState} (ha : a.Ready)
    (s : PenSample) :
    ∃ r recorded, tpAdjustPass conv scr a s = some (r, recorded) ∧
      (r.dev.Pressed ↔ s.pen = false) ∧
      r.dev.point = (tpScan conv 1 s a.dev).1.point ∧
      (∀ a', r = .running a' → a'.Ready) ∧
      (∀ p, recorded = some p → s.pen = true ∧ a.dev.Pressed ∧ p = a.dev.point) := by
  rw [tpAdjustPass]
  dsimp only
  split_ifs with hcaught hcnt
  · obtain ⟨hpen, hpressed⟩ := tpScan_caught conv 1 ha.not_caught hcaught
    obtain ⟨hup, hclear⟩ := hcaught.clearCath
    refine ⟨_, _, rfl, ?_, (tpAdjustSwitch_sameScan scr _).point, fun a' ha' => ?_, fun p hp => ?_⟩
    · rw [(tpAdjustSwitch_sameScan scr _).pressed]
      exact iff_of_false hup (by simp [hpen])
    · refine tpAdjustSwitch_ready scr hclear ?_ ha'
      rw [UInt8.toNat_add]
      exact le_trans (Nat.mod_le _ _) hcnt
    · obtain rfl := Option.some.inj hp
      exact ⟨hpen, hpressed, tpScan_point_release conv 1 hpen hpressed⟩
  · exact absurd ha.cnt_lt hcnt
  · refine ⟨_, _, rfl, ?_, (tpAdjustTail_sameScan _).point, fun a' ha' => ?_, fun p hp => ?_⟩
    · rw [(tpAdjustTail_sameScan _).pressed]
      exact tpScan_pressed_iff conv 1
    · refine tpAdjustTail_ready (AdjustState.Ready.mk ?_ ?_) ha'
      · exact hcaught
      · exact ha.cnt_lt
    · exact absurd hp (by simp)

end Stm32Board.Touch
