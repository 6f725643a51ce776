import Stm32Board.Common.Mealy
import Stm32Board.Touch.Adjust
import Stm32Board.Touch.Filter
import Mathlib.Data.List.DropRight

/-!
# Where a reported point comes from

`TP_Init` runs the calibration loop when the EEPROM holds no record; afterwards `TP_Scan` is called
with any argument. Each call is logged with the level of the pen and the point its reading stood for,
and the points handed to the graphics library or recorded by the calibration are looked up in the
log of the current press (`run_pressSound_iff`).
-/

namespace Stm32Board.Touch

open Common Lcd

/-! ## Runs of the firmware -/

/-- The firmware inside `TP_Adjust`, or past `TP_Init`. -/
inductive TouchProg where
  | adjusting (a : AdjustState)
  | ready (s : TouchState)

def TouchProg.dev : TouchProg → TpDev
  | .adjusting a => a.dev
  | .ready s => s.dev

/-- `tp_dev` and the commands as they are initialised, with the EEPROM found at power-on. -/
def powerOn (stored : Option AdjData) : TouchState where
  dev :=
    { xfac := ExactFloat.ofInt 0, yfac := ExactFloat.ofInt 0, xoff := 0, yoff := 0, touchtype := 0
      x := fun _ => 0, y := fun _ => 0, sta := 0 }
  cmdRdx := 0xD0
  cmdRdy := 0x90
  stored := stored

/-- `TP_Init` up to the loop of `TP_Adjust`, if it calls it; `first` is the first `TP_Read_XY`. -/
def tpInit (posTemp : Fin 4 → Point) (first : Point) (s : TouchState) : TouchProg :=
  let s := { s with dev := s.dev.setPoint 0 first }
  let r := tpGetAdjdata s
  if r.2 ≠ 0 then .ready r.1 else .adjusting (tpAdjustStart posTemp r.1)

/-- Once `TP_Adjust` returns, `TP_Init` reads the record and returns too. -/
def PassResult.toProg : PassResult → TouchProg
  | .running a => .adjusting a
  | .saved s => .ready (tpGetAdjdata s).1
  | .timeout s => .ready (tpGetAdjdata s).1

/-- One call of `TP_Scan`: the level of the pen, and the point an accepted reading stood for. -/
structure ScanCall where
  pen : Bool
  produced : Option Point
deriving DecidableEq

def scanCall (conv : Conversion) (tp : UInt8) (s : PenSample) (d : TpDev) : ScanCall where
  pen := s.pen
  produced := if s.pen = false then s.reading.map (tpPoint conv tp d.toAdjData) else none

/-- What is observed of one call: the call, `tp_dev` after it, and the point `TP_Adjust` records. -/
structure ScanOutcome where
  call : ScanCall
  dev : TpDev
  recorded : Option Point

/-- One call of `TP_Scan`, by the calibration loop or, with any argument, by the application. -/
def TouchProg.step (conv : Conversion) (scr : Screen) :
    TouchProg → UInt8 × PenSample → Option (TouchProg × ScanOutcome)
  | .adjusting a, (_, s) =>
    (tpAdjustPass conv scr a s).map fun r =>
      (r.1.toProg, ⟨scanCall conv 1 s a.dev, (tpScan conv 1 s a.dev).1, r.2⟩)
  | .ready t, (tp, s) =>
    let dev := (tpScan conv tp s t.dev).1
    some (.ready { t with dev := dev }, ⟨scanCall conv tp s t.dev, dev, none⟩)

/-! ## The property -/

/-- The calls of the press going on at the end of a log: its last calls with the pen down. -/
def currentPress (outs : List ScanOutcome) : List ScanCall :=
  (outs.map (·.call)).rtakeWhile (·.pen = false)

/-- `p` comes from a reading accepted during the press. -/
def Produced (press : List ScanCall) (p : Point) : Prop := ∃ c ∈ press, c.produced = some p

/-- What `touchpad_read` reports after the call, and what the call made `TP_Adjust` record, comes
from the press: the one going on, and the one that just ended. -/
structure OutcomeSound (before : List ScanOutcome) (o : ScanOutcome) : Prop where
  reported : o.dev.Pressed → ∃ p, Produced (currentPress (before ++ [o])) p ∧
    ∀ last, touchpadRead last o.dev =
      ({ point := (p.1.toInt16, p.2.toInt16), state := .pr }, p)
  recorded : ∀ p, o.recorded = some p → Produced (currentPress before) p

/-- Every reported and every recorded point comes from its press. -/
def PressSound (outs : List ScanOutcome) : Prop := Mealy.AtEach OutcomeSound outs

/-- A sample with the pen down after one with the pen up, or the very first, has its reading
accepted. -/
def OpeningAccepted (before : List (UInt8 × PenSample)) (i : UInt8 × PenSample) : Prop :=
  i.2.pen = false → (∀ j ∈ before.getLast?, j.2.pen = true) → i.2.reading.isSome

/-! ## One call -/

/-- What holds between calls, in terms of the samples so far and of the log. -/
structure ProgInv (inputs : List (UInt8 × PenSample)) (outs : List ScanOutcome) (t : TouchProg) :
    Prop where
  ready : ∀ a, t = .adjusting a → a.Ready
  pressed : t.dev.Pressed ↔ ∃ j ∈ inputs.getLast?, j.2.pen = false
  idle : ¬t.dev.Pressed → currentPress outs = []

/-- A press has a reading behind its point. -/
def PointProduced (outs : List ScanOutcome) (t : TouchProg) : Prop :=
  t.dev.Pressed → Produced (currentPress outs) t.dev.point

/-- What follows a pass keeps pen state and point. -/
theorem toProg_sameScan (r : PassResult) : SameScan r.dev r.toProg.dev := by
  cases r with
  | running a => exact SameScan.refl _
  | saved s => exact tpGetAdjdata_sameScan s
  | timeout s => exact tpGetAdjdata_sameScan s

/-- A call between any two others: it is defined, it is a scan with some argument, and what it
records is the point of a press that ends with it. -/
theorem TouchProg.step_spec (conv : Conversion) (scr : Screen) {t : TouchProg}
    (ht : ∀ a, t = .adjusting a → a.Ready) (i : UInt8 × PenSample) :
    ∃ tp t' o, t.step conv scr i = some (t', o) ∧
      o.call = scanCall conv tp i.2 t.dev ∧ o.dev = (tpScan conv tp i.2 t.dev).1 ∧
      (t'.dev.Pressed ↔ i.2.pen = false) ∧ t'.dev.point = o.dev.point ∧
      (∀ a, t' = .adjusting a → a.Ready) ∧
      (∀ p, o.recorded = some p → i.2.pen = true ∧ t.dev.Pressed ∧ p = t.dev.point) := by
  cases t with
  | adjusting a =>
    obtain ⟨r, recorded, hpass, hpressed, hpoint, hready, hrec⟩ :=
      tpAdjustPass_spec conv scr (ht a rfl) i.2
    refine ⟨1, r.toProg, ⟨scanCall conv 1 i.2 a.dev, (tpScan conv 1 i.2 a.dev).1, recorded⟩, ?_,
      rfl, rfl, ?_, ?_, ?_, hrec⟩
    · rw [TouchProg.step, hpass]
      rfl
    · rw [(toProg_sameScan r).pressed, hpressed]
    · rw [(toProg_sameScan r).point, hpoint]
    · intro a' ha'
      cases r with
      | running b =>
        obtain rfl := TouchProg.adjusting.inj ha'
        exact hready b rfl
      | saved s => exact absurd ha' (by simp [PassResult.toProg])
      | timeout s => exact absurd ha' (by simp [PassResult.toProg])
  | ready s =>
    refine ⟨i.1, _, _, rfl, rfl, rfl, tpScan_pressed_iff conv i.1, rfl, ?_, ?_⟩
    · intro a' ha'
      exact absurd ha' (by simp)
    · intro p hp
      exact absurd hp (by simp)

/-! ## The log of calls -/

/-- A call with the pen down goes on with the press. -/
theorem currentPress_concat_down {outs : List ScanOutcome} {o : ScanOutcome}
    (h : o.call.pen = false) : currentPress (outs ++ [o]) = currentPress outs ++ [o.call] := by
  rw [currentPress, List.map_append, List.map_singleton, List.rtakeWhile_concat_pos]
  · rfl
  · simpa using h

/-- A call with the pen up ends it. -/
theorem currentPress_concat_up {outs : List ScanOutcome} {o : ScanOutcome}
    (h : o.call.pen = true) : currentPress (outs ++ [o]) = [] := by
  rw [currentPress, List.map_append, List.map_singleton, List.rtakeWhile_concat_neg]
  simpa using h

/-- A longer press still has the points of the shorter one. -/
theorem Produced.mono {press press' : List ScanCall} {p : Point} (h : Produced press p)
    (hsub : ∀ c ∈ press, c ∈ press') : Produced press' p := by
  obtain ⟨c, hc, hp⟩ := h
  exact ⟨c, hsub c hc, hp⟩

/-- What is reported is the point of the device. -/
theorem outcomeSound_reported_iff {before : List ScanOutcome} {o : ScanOutcome}
    (h : o.dev.Pressed) :
    (∃ p, Produced (currentPress (before ++ [o])) p ∧ ∀ last, touchpadRead last o.dev =
      ({ point := (p.1.toInt16, p.2.toInt16), state := .pr }, p)) ↔
    Produced (currentPress (before ++ [o])) o.dev.point := by
  constructor
  · rintro ⟨p, hp, hread⟩
    have hpoint : o.dev.point = p := by
      have hlast := congrArg Prod.snd (hread (0, 0))
      rwa [touchpadRead_of_pressed _ h] at hlast
    rwa [hpoint]
  · intro hp
    exact ⟨_, hp, fun last => touchpadRead_of_pressed last h⟩

/-- An opening is a sample with the pen down on a device that is not pressed. -/
theorem ProgInv.openingAccepted_iff {inputs : List (UInt8 × PenSample)}
    {outs : List ScanOutcome} {t : TouchProg} (hinv : ProgInv inputs outs t)
    (i : UInt8 × PenSample) :
    OpeningAccepted inputs i ↔ (i.2.pen = false → ¬t.dev.Pressed → i.2.reading.isSome) := by
  rw [OpeningAccepted, hinv.pressed]
  simp

/-- A call that finds the pen up reports nothing and records only the press that ended. -/
theorem outcomeSound_up (conv : Conversion) {tp : UInt8} {outs : List ScanOutcome}
    {t : TouchProg} {i : UInt8 × PenSample} {o : ScanOutcome} (hpoint : PointProduced outs t)
    (hpen : i.2.pen = true) (hdev : o.dev = (tpScan conv tp i.2 t.dev).1)
    (hrec : ∀ p, o.recorded = some p → i.2.pen = true ∧ t.dev.Pressed ∧ p = t.dev.point) :
    OutcomeSound outs o where
  reported h := by
    rw [hdev, tpScan_pressed_iff, hpen] at h
    exact absurd h (by simp)
  recorded p hp := by
    obtain ⟨-, hpressed, rfl⟩ := hrec p hp
    exact hpoint hpressed

/-- A call that finds the pen down leaves a point of the press unless it opens the press with a
rejected reading. -/
theorem produced_down_iff (conv : Conversion) {tp : UInt8} {outs : List ScanOutcome}
    {t : TouchProg} {i : UInt8 × PenSample} {o : ScanOutcome} (hpoint : PointProduced outs t)
    (hidle : ¬t.dev.Pressed → currentPress outs = []) (hpen : i.2.pen = false)
    (hcall : o.call = scanCall conv tp i.2 t.dev) (hdev : o.dev = (tpScan conv tp i.2 t.dev).1) :
    Produced (currentPress (outs ++ [o])) o.dev.point ↔ (¬t.dev.Pressed → i.2.reading.isSome) := by
  have hdown : o.call.pen = false := by rw [hcall]; exact hpen
  have hproduced : o.call.produced = i.2.reading.map (tpPoint conv tp t.dev.toAdjData) := by
    rw [hcall]
    exact if_pos hpen
  rw [currentPress_concat_down hdown, hdev, tpScan_point_down conv tp hpen]
  -- a rejected reading leaves the old point, which only a press that goes on vouches for
  rcases hread : i.2.reading with _ | raw
  · rw [hread] at hproduced
    by_cases hpressed : t.dev.Pressed
    · exact iff_of_true ((hpoint hpressed).mono fun c hc => List.mem_append_left _ hc)
        fun h => absurd hpressed h
    · refine iff_of_false ?_ fun h => absurd (h hpressed) (by simp)
      rw [hidle hpressed]
      rintro ⟨c, hc, hp⟩
      obtain rfl := List.mem_singleton.mp hc
      rw [hproduced] at hp
      exact absurd hp (by simp)
  · rw [hread] at hproduced
    exact iff_of_true ⟨o.call, by simp, hproduced⟩ fun _ => rfl

/-- One more call: if the calls so far left a produced point whenever the pen is down, the outcome
of the next one is sound exactly when its sample does not open a press with a rejected reading, and
then it leaves a produced point in turn. -/
theorem step_sound_iff (conv : Conversion) (scr : Screen) {inputs : List (UInt8 × PenSample)}
    {outs : List ScanOutcome} {t t' : TouchProg} {o : ScanOutcome} {i : UInt8 × PenSample}
    (hinv : ProgInv inputs outs t) (hpoint : PointProduced outs t)
    (hstep : t.step conv scr i = some (t', o)) :
    (OutcomeSound outs o ↔ OpeningAccepted inputs i) ∧
      (OpeningAccepted inputs i → PointProduced (outs ++ [o]) t') := by
  obtain ⟨tp, t₁, o₁, hstep₁, hcall, hdev, hpressed, hpt, -, hrec⟩ :=
    t.step_spec conv scr hinv.ready i
  obtain ⟨rfl, rfl⟩ := Prod.mk.inj (Option.some.inj (hstep₁.symm.trans hstep))
  rw [hinv.openingAccepted_iff]
  cases hpen : i.2.pen with
  | true =>
    refine ⟨iff_of_true (outcomeSound_up conv hpoint hpen hdev hrec) (by simp), fun _ h => ?_⟩
    rw [hpressed, hpen] at h
    exact absurd h (by simp)
  | false =>
    have hdown := produced_down_iff conv hpoint hinv.idle hpen hcall hdev
    have hop : o₁.dev.Pressed := by rw [hdev, tpScan_pressed_iff, hpen]
    refine ⟨⟨fun h _ => ?_, fun h => ⟨fun _ => ?_, fun p hp => ?_⟩⟩, fun h _ => ?_⟩
    · exact hdown.mp ((outcomeSound_reported_iff hop).mp (h.reported hop))
    · exact (outcomeSound_reported_iff hop).mpr (hdown.mpr (h rfl))
    · exact absurd (hrec p hp).1 (by simp [hpen])
    · rw [hpt]
      exact hdown.mpr (h rfl)

/-- The state and the log stay in step, whatever is sampled. -/
theorem ProgInv.step (conv : Conversion) (scr : Screen) {inputs : List (UInt8 × PenSample)}
    {outs : List ScanOutcome} {t : TouchProg} (hinv : ProgInv inputs outs t)
    (i : UInt8 × PenSample) :
    ∃ t' o, t.step conv scr i = some (t', o) ∧ ProgInv (inputs ++ [i]) (outs ++ [o]) t' := by
  obtain ⟨tp, t', o, hstep, hcall, -, hpressed, -, hready, -⟩ := t.step_spec conv scr hinv.ready i
  refine ⟨t', o, hstep, hready, ?_, fun h => currentPress_concat_up ?_⟩
  · rw [List.getLast?_concat]
    simpa using hpressed
  · rw [hpressed, Bool.not_eq_false] at h
    rw [hcall]
    exact h

/-! ## Whole runs -/

/-- `TP_Init` starts with nothing pressed. -/
theorem tpInit_inv (posTemp : Fin 4 → Point) (first : Point) (stored : Option AdjData) :
    ProgInv [] [] (tpInit posTemp first (powerOn stored)) ∧
      ¬(tpInit posTemp first (powerOn stored)).dev.Pressed := by
  have hup : ¬(tpInit posTemp first (powerOn stored)).dev.Pressed := by
    have hclear : (0 : UInt8) &&& tpPresDown = 0 := by decide
    rw [TpDev.Pressed, not_not]
    cases stored with
    | none => exact hclear
    | some adj =>
      show (tpGetAdjdata _).1.dev.sta &&& tpPresDown = 0
      rw [(tpGetAdjdata_sameScan _).sta]
      exact hclear
  refine ⟨⟨fun a ha => ?_, iff_of_false hup (by simp), fun _ => rfl⟩, hup⟩
  cases stored with
  | none =>
    obtain rfl := TouchProg.adjusting.inj ha
    exact tpAdjustStart_ready posTemp _
  | some adj => exact absurd ha (by simp [tpInit, tpGetAdjdata, powerOn])

/-- From power-on, whatever the EEPROM holds and whatever is sampled, the firmware runs. The induction
is on the samples; it also carries the state reached and the point it stands on. -/
theorem run_pressSound (conv : Conversion) (scr : Screen) (posTemp : Fin 4 → Point)
    (first : Point) (stored : Option AdjData) (inputs : List (UInt8 × PenSample)) :
    ∃ t outs,
      Mealy.run (TouchProg.step conv scr) (tpInit posTemp first (powerOn stored)) inputs =
        some (t, outs) ∧ ProgInv inputs outs t ∧
      (PressSound outs ↔ Mealy.AtEach OpeningAccepted inputs) ∧
      (Mealy.AtEach OpeningAccepted inputs → PointProduced outs t) := by
  induction inputs using List.reverseRecOn with
  | nil =>
    obtain ⟨hinv, hup⟩ := tpInit_inv posTemp first stored
    exact ⟨_, [], rfl, hinv, iff_of_true (Mealy.atEach_nil _) (Mealy.atEach_nil _),
      fun _ h => absurd h hup⟩
  | append_singleton inputs i ih =>
    obtain ⟨t, outs, hrun, hinv, hiff, hpoint⟩ := ih
    obtain ⟨t', o, hstep, hinv'⟩ := hinv.step conv scr i
    refine ⟨t', outs ++ [o], Mealy.run_concat_eq_some.mpr ⟨t, outs, o, hrun, hstep, rfl⟩, hinv',
      ?_, ?_⟩
    · rw [PressSound, Mealy.atEach_concat, Mealy.atEach_concat, ← hiff]
      exact and_congr_right fun hs => (step_sound_iff conv scr hinv (hpoint (hiff.mp hs)) hstep).1
    · rw [Mealy.atEach_concat]
      rintro ⟨hfront, hlast⟩
      exact (step_sound_iff conv scr hinv (hpoint hfront) hstep).2 hlast

/-- The points the firmware reports and records all come from their press exactly when no press opens
with a rejected reading. -/
theorem run_pressSound_iff (conv : Conversion) (scr : Screen) (posTemp : Fin 4 → Point)
    (first : Point) (stored : Option AdjData) (inputs : List (UInt8 × PenSample)) :
    ∃ t outs,
      Mealy.run (TouchProg.step conv scr) (tpInit posTemp first (powerOn stored)) inputs =
        some (t, outs) ∧
      (PressSound outs ↔ Mealy.AtEach OpeningAccepted inputs) := by
  obtain ⟨t, outs, hrun, -, hiff, -⟩ := run_pressSound conv scr posTemp first stored inputs
  exact ⟨t, outs, hrun, hiff⟩

/-- A calibrated board, one scan with the pen up, then a press whose first reading is rejected: the
idle marker is reported as a pressed point. -/
theorem not_pressSound_rejected_opening :
    ∃ t o₁ o₂,
      Mealy.run (TouchProg.step tpConvert portraitScreen)
        (tpInit (fun _ => (0, 0)) (0, 0) (powerOn (some (powerOn none).dev.toAdjData)))
        [(0, { pen := true, reading := none }), (0, { pen := false, reading := none })] =
          some (t, [o₁, o₂]) ∧
      (touchpadRead (0, 0) o₂.dev).1 = { point := (-1, -1), state := .pr } ∧
      o₂.dev.point = (0xffff, 0xffff) ∧ ¬PressSound [o₁, o₂] := by
  refine ⟨_, _, _, rfl, by decide, by decide, fun h => ?_⟩
  obtain ⟨p, ⟨c, hc, hp⟩, -⟩ := (h [_] _ [] rfl).reported (by decide)
  obtain rfl := List.mem_singleton.mp hc
  exact Option.some_ne_none p (hp.symm.trans rfl)

/-! ## Presses that open with a pen that lies still -/

end Stm32Board.Touch
