import Stm32Board.Common.Mealy
import Stm32Board.Touch.Adjust
import Mathlib.Data.List.DropRight

/-!
# Whole runs of the calibration loop

Reference: `TP_Adjust` of `applications/TOUCH/touch.c`.

`tpAdjustLoop` feeds a trace of samples to the loop of `TP_Adjust` until it leaves, and logs one entry
for each pass. The log shows which passes recorded a point and how long the loop has gone without one;
`AdjustInv` ties the flag bits, the point counter and the timeout counter to it. `pressPoints` tells
the points from the samples alone, and `tpAdjustLoop_points` says that the loop records these.
-/

namespace Stm32Board.Touch

open Common Lcd

/-! ## Runs of the loop -/

/-- One pass of the loop: the sample it took and the point it recorded. -/
structure AdjustPass where
  sample : PenSample
  recorded : Option Point
deriving DecidableEq

/-- The loop of `TP_Adjust` on a trace of samples, until it returns or the trace ends. -/
def tpAdjustLoop (conv : Conversion) (scr : Screen) :
    AdjustState → List PenSample → Option (PassResult × List AdjustPass)
  | a, [] => some (.running a, [])
  | a, s :: ss =>
    match tpAdjustPass conv scr a s with
    | none => none
    | some (.running a', recorded) =>
      (tpAdjustLoop conv scr a' ss).map fun r => (r.1, ⟨s, recorded⟩ :: r.2)
    | some (r, recorded) => some (r, [⟨s, recorded⟩])

/-- The points recorded, oldest first. -/
def recordedPoints (log : List AdjustPass) : List Point := log.filterMap (·.recorded)

/-- The points of the presses that end in a trace, told from its samples alone: for each press the last
reading that was accepted. A press is going on at `p` when `held` is set. -/
def pressPoints : Bool → Point → List PenSample → List Point
  | _, _, [] => []
  | held, p, s :: ss =>
    match s.pen, held with
    | false, _ => pressPoints true (s.reading.getD p) ss
    | true, true => p :: pressPoints false p ss
    -- nobody at the panel: the scan writes the point over
    | true, false => pressPoints false (0xffff, 0xffff) ss

/-- While the pen is down the last accepted reading counts. -/
theorem pressPoints_down {s : PenSample} (hpen : s.pen = false) (held : Bool) (p : Point)
    (ss : List PenSample) :
    pressPoints held p (s :: ss) = pressPoints true (s.reading.getD p) ss := by
  simp only [pressPoints, hpen]

/-- The point of a press is that of its last reading. -/
theorem pressPoints_release {s : PenSample} (hpen : s.pen = true) (p : Point)
    (ss : List PenSample) : pressPoints true p (s :: ss) = p :: pressPoints false p ss := by
  simp only [pressPoints, hpen]

/-- A scan that finds nobody writes the point over. -/
theorem pressPoints_idle {s : PenSample} (hpen : s.pen = true) (p : Point) (ss : List PenSample) :
    pressPoints false p (s :: ss) = pressPoints false (0xffff, 0xffff) ss := by
  simp only [pressPoints, hpen]

/-- A longer trace has the same points in front. -/
theorem pressPoints_isPrefix (held : Bool) (p : Point) (xs ys : List PenSample) :
    pressPoints held p xs <+: pressPoints held p (xs ++ ys) := by
  induction xs generalizing held p with
  | nil => exact List.nil_prefix
  | cons s ss ih =>
    rw [List.cons_append]
    by_cases hpen : s.pen = false
    · rw [pressPoints_down hpen, pressPoints_down hpen]
      exact ih true _
    · have hup : s.pen = true := Bool.not_eq_false _ ▸ hpen
      cases held with
      | true =>
        rw [pressPoints_release hup, pressPoints_release hup]
        exact (List.prefix_cons_inj p).mpr (ih false p)
      | false =>
        rw [pressPoints_idle hup, pressPoints_idle hup]
        exact ih false _

/-- The sampled pen goes from down to up. -/
def CompletesPress (before : List AdjustPass) (p : AdjustPass) : Prop :=
  p.sample.pen = true ∧ ∃ q ∈ before.getLast?, q.sample.pen = false

/-- A point is recorded by each pass that completes a press and by no other. -/
def RecordsPresses (log : List AdjustPass) : Prop :=
  Mealy.AtEach (fun before p => p.recorded.isSome ↔ CompletesPress before p) log

/-- The passes since a point was last recorded. -/
def quietPasses (log : List AdjustPass) : ℕ := (log.rtakeWhile (·.recorded.isNone)).length

/-- A pass without a point is one more quiet pass. -/
theorem quietPasses_concat_none {log : List AdjustPass} {p : AdjustPass} (h : p.recorded = none) :
    quietPasses (log ++ [p]) = quietPasses log + 1 := by
  rw [quietPasses, List.rtakeWhile_concat_pos _ _ _ (by rw [h]; rfl), List.length_append]
  rfl

/-- A pass with a point starts the count again. -/
theorem quietPasses_concat_some {log : List AdjustPass} {p : AdjustPass} {q : Point}
    (h : p.recorded = some q) : quietPasses (log ++ [p]) = 0 := by
  rw [quietPasses, List.rtakeWhile_concat_neg _ _ _ (by rw [h]; simp)]
  rfl

/-- The point of the last pass comes last. -/
theorem recordedPoints_concat (log : List AdjustPass) (p : AdjustPass) :
    recordedPoints (log ++ [p]) = recordedPoints log ++ p.recorded.toList := by
  rw [recordedPoints, List.filterMap_append]
  cases h : p.recorded <;> simp [recordedPoints, h]

/-- A pass with a point adds it. -/
theorem recordedPoints_concat_some (log : List AdjustPass) (s : PenSample) (p : Point) :
    recordedPoints (log ++ [⟨s, some p⟩]) = recordedPoints log ++ [p] :=
  recordedPoints_concat log _

/-- A pass without one adds nothing. -/
theorem recordedPoints_concat_none (log : List AdjustPass) (s : PenSample) :
    recordedPoints (log ++ [⟨s, none⟩]) = recordedPoints log := by
  rw [recordedPoints_concat]
  exact List.append_nil _

/-! ## One pass -/

/-- The flag byte of a press that is going on. -/
def heldSta : UInt8 := tpPresDown ||| tpCathPres

/-- A press that is going on has the press flag set. -/
theorem pressed_of_held {d : TpDev} (h : d.sta = heldSta) : d.Pressed := by
  rw [TpDev.Pressed, h]
  decide

/-- Without flags nothing is pressed. -/
theorem not_pressed_of_idle {d : TpDev} (h : d.sta = 0) : ¬d.Pressed := by
  rw [TpDev.Pressed, h]
  decide

/-- A scan leaves the calibration alone. -/
theorem tpScan_toAdjData (conv : Conversion) (tp : UInt8) (s : PenSample) (d : TpDev) :
    (tpScan conv tp s d).1.toAdjData = d.toAdjData := by
  simp only [tpScan]
  split_ifs
  · exact (tpReadPoint_eq conv tp s.reading d).1
  · exact (tpReadPoint_eq conv tp s.reading d).1
  · rfl
  · rfl

variable (conv : Conversion) (scr : Screen)

/-- The pass that sees the pen come up clears the flags, stores the point at the place of the counter
and starts the timeout over. -/
theorem tpAdjustPass_release {a : AdjustState} {s : PenSample} (hheld : a.dev.sta = heldSta)
    (hpen : s.pen = true) (hcnt : a.cnt.toNat < 4) :
    ∃ dev : TpDev, dev.sta = 0 ∧ dev.toAdjData = a.dev.toAdjData ∧
      tpAdjustPass conv scr a s =
        some (tpAdjustSwitch scr
          { a with
            outtime := 0
            dev := dev
            posTemp := Function.update a.posTemp ⟨a.cnt.toNat, hcnt⟩ a.dev.point
            cnt := a.cnt + 1 }, some a.dev.point) := by
  have hpressed := pressed_of_held hheld
  have hsta : (tpScan conv 1 s a.dev).1.sta = tpCathPres := by
    rw [tpScan_sta_up conv 1 hpen, if_pos hpressed, hheld]
    decide
  -- the scan takes the press flag away and leaves the caught flag
  have hcaught : (tpScan conv 1 s a.dev).1.Caught := by
    rw [TpDev.Caught, hsta]
    decide
  have hpoint : (tpScan conv 1 s a.dev).1.clearCath.point = a.dev.point :=
    tpScan_point_release conv 1 hpen hpressed
  refine ⟨(tpScan conv 1 s a.dev).1.clearCath, ?_, tpScan_toAdjData conv 1 s a.dev, ?_⟩
  · show (tpScan conv 1 s a.dev).1.sta &&& ~~~((1 : UInt8) <<< 6) = 0
    rw [hsta]
    decide
  · simp only [tpAdjustPass, if_pos hcaught, dif_pos hcnt, hpoint]

/-- Every other pass only counts towards the timeout. -/
theorem tpAdjustPass_quiet {a : AdjustState} {s : PenSample}
    (hflags : a.dev.sta = 0 ∨ a.dev.sta = heldSta ∧ s.pen = false) :
    ∃ dev : TpDev, dev.sta = (if s.pen = false then heldSta else 0) ∧
      dev.toAdjData = a.dev.toAdjData ∧
      tpAdjustPass conv scr a s = some (tpAdjustTail { a with dev := dev }, none) := by
  have hsta : (tpScan conv 1 s a.dev).1.sta = if s.pen = false then heldSta else 0 := by
    -- an idle panel may be pressed now; a held one stays held
    rcases hflags with hidle | ⟨hheld, hpen⟩
    · cases hpen : s.pen with
      | false =>
        rw [tpScan_sta_down conv 1 hpen, if_neg (not_pressed_of_idle hidle)]
        rfl
      | true =>
        rw [tpScan_sta_up conv 1 hpen, if_neg (not_pressed_of_idle hidle), hidle]
        rfl
    · rw [tpScan_sta_down conv 1 hpen, if_pos (pressed_of_held hheld), if_pos hpen, hheld]
  have hcaught : ¬(tpScan conv 1 s a.dev).1.Caught := by
    rw [TpDev.Caught, hsta]
    split_ifs <;> decide
  refine ⟨(tpScan conv 1 s a.dev).1, hsta, tpScan_toAdjData conv 1 s a.dev, ?_⟩
  simp only [tpAdjustPass, if_neg hcaught]

/-! ## The flags and counters against the log -/

/-- The pen is down in the last pass. -/
def PenHeld (log : List AdjustPass) : Prop := ∃ q ∈ log.getLast?, q.sample.pen = false

/-- Whether the pen is held is told by the last pass. -/
theorem penHeld_concat (log : List AdjustPass) (p : AdjustPass) :
    PenHeld (log ++ [p]) ↔ p.sample.pen = false := by
  rw [PenHeld, List.getLast?_concat]
  simp

/-- The last four points recorded are in `pos_temp`: the points fill its places over and over. -/
def LastFour (log : List AdjustPass) (posTemp : Fin 4 → Point) : Prop :=
  ∀ i p, (recordedPoints log)[i]? = some p → (recordedPoints log).length ≤ i + 4 →
    posTemp (Fin.ofNat 4 i) = p

/-- The flags and the recorded points during a pass. -/
structure AdjustSlots (log : List AdjustPass) (a : AdjustState) : Prop where
  flags : a.dev.sta = 0 ∧ ¬PenHeld log ∨ a.dev.sta = heldSta ∧ PenHeld log
  cnt_eq : a.cnt.toNat = (recordedPoints log).length % 4
  slots : LastFour log a.posTemp

/-- What holds between two passes. The timeout counter is one ahead of the quiet passes when the last
press was counted by the end of the loop body as well. -/
structure AdjustInv (log : List AdjustPass) (a : AdjustState) : Prop extends AdjustSlots log a where
  outtime_ge : quietPasses log ≤ a.outtime.toNat
  outtime_le : a.outtime.toNat ≤ quietPasses log + 1
  outtime_lt : a.outtime.toNat ≤ 1000

/-- There is room for the next point. -/
theorem AdjustSlots.cnt_lt {log : List AdjustPass} {a : AdjustState} (h : AdjustSlots log a) :
    a.cnt.toNat < 4 := by
  rw [h.cnt_eq]
  exact Nat.mod_lt _ (Nat.zero_lt_succ 3)

/-- The press flag says whether the pen is held. -/
theorem AdjustSlots.pressed_iff {log : List AdjustPass} {a : AdjustState} (h : AdjustSlots log a) :
    a.dev.Pressed ↔ PenHeld log := by
  rcases h.flags with ⟨hsta, hup⟩ | ⟨hsta, hheld⟩
  · exact iff_of_false (not_pressed_of_idle hsta) hup
  · exact iff_of_true (pressed_of_held hsta) hheld

/-- A pass may begin: no press is left to be dealt with. -/
theorem AdjustSlots.ready {log : List AdjustPass} {a : AdjustState} (h : AdjustSlots log a) :
    a.Ready := by
  refine ⟨?_, h.cnt_lt⟩
  rw [TpDev.Caught]
  rcases h.flags with ⟨hsta, -⟩ | ⟨hsta, -⟩
  · rw [hsta]
    decide
  · rw [hsta]
    decide

/-- While the pen is held the flags say so. -/
theorem AdjustSlots.sta_of_held {log : List AdjustPass} {a : AdjustState} (h : AdjustSlots log a)
    (hheld : PenHeld log) : a.dev.sta = heldSta := by
  rcases h.flags with ⟨-, hup⟩ | ⟨hsta, -⟩
  · exact absurd hheld hup
  · exact hsta

/-- At the start nothing is recorded and the flags are clear. -/
theorem tpAdjustStart_inv (posTemp : Fin 4 → Point) (s : TouchState) :
    AdjustInv [] (tpAdjustStart posTemp s) where
  flags := .inl ⟨rfl, by simp [PenHeld]⟩
  cnt_eq := rfl
  slots := fun i p hp => absurd hp (by simp [recordedPoints])
  outtime_ge := Nat.le_refl 0
  outtime_le := Nat.zero_le _
  outtime_lt := Nat.zero_le _

/-- The calibration that is saved is the one computed from the last four points: the pass that recorded
the fourth point of an attempt leaves at once, and the verdict on the attempt is to accept it. -/
structure SavesAttempt (log : List AdjustPass) (t : TouchState) : Prop where
  quiet_eq : quietPasses log = 0
  attempt : ∃ old pos, recordedPoints log = old ++ List.ofFn pos ∧ old.length % 4 = 0 ∧
    tpAdjustVerdict scr pos t.dev.touchtype = .accepted t.dev.toAdjData
  stored : t.stored = some t.dev.toAdjData

/-- What is known of the result of a pass, given the log with the pass in it. -/
structure AdjustOutcome (log : List AdjustPass) (r : PassResult) : Prop where
  running : ∀ a, r = .running a → AdjustInv log a
  saved : ∀ t, r = .saved t → SavesAttempt scr log t
  timeout : ∀ t, r = .timeout t → 1000 ≤ quietPasses log
  quiet_le : quietPasses log ≤ 1001

/-- The end of the body goes on with the counter one up, or leaves through the timeout. -/
theorem tpAdjustTail_cases (a : AdjustState) :
    tpAdjustTail a = .running { a with outtime := a.outtime + 1 } ∧ ¬a.outtime + 1 > 1000 ∨
      tpAdjustTail a = .timeout (tpGetAdjdata a.toTouchState).1 ∧ a.outtime + 1 > 1000 := by
  by_cases h : a.outtime + 1 > 1000
  · exact .inr ⟨if_pos h, h⟩
  · exact .inl ⟨if_neg h, h⟩

/-- The timeout counter after one more pass. -/
theorem outtime_succ_toNat {t : UInt16} (h : t.toNat ≤ 1000) : (t + 1).toNat = t.toNat + 1 := by
  rw [UInt16.toNat_add, UInt16.toNat_one]
  omega

/-- The end of the body after a pass: the timeout counter goes up with the quiet passes, or the
1000 passes are over. -/
theorem AdjustSlots.tail {log : List AdjustPass} {a : AdjustState} (hslots : AdjustSlots log a)
    (hge : quietPasses log ≤ a.outtime.toNat + 1) (hle : a.outtime.toNat ≤ quietPasses log)
    (hlt : a.outtime.toNat ≤ 1000) : AdjustOutcome scr log (tpAdjustTail a) := by
  have hsucc := outtime_succ_toNat hlt
  have hbound : a.outtime + 1 > 1000 ↔ 1000 < (a.outtime + 1).toNat := UInt16.lt_iff_toNat_lt
  rcases tpAdjustTail_cases a with ⟨htail, hno⟩ | ⟨htail, hyes⟩
  · rw [htail]
    rw [hbound, hsucc] at hno
    refine ⟨fun b hb => ?_, fun t ht => absurd ht (by simp), fun t ht => absurd ht (by simp),
      by omega⟩
    obtain rfl := PassResult.running.inj hb
    refine ⟨⟨hslots.flags, hslots.cnt_eq, hslots.slots⟩, ?_, ?_, ?_⟩
    all_goals
      show _ ≤ _
      simp only [hsucc]
      omega
  · rw [htail]
    rw [hbound, hsucc] at hyes
    exact ⟨fun b hb => absurd hb (by simp), fun t ht => absurd ht (by simp), fun t _ => by omega,
      by omega⟩

/-- A quiet pass. -/
theorem AdjustInv.quiet {log : List AdjustPass} {a : AdjustState} (hinv : AdjustInv log a)
    {s : PenSample} (hquiet : ¬CompletesPress log ⟨s, none⟩) :
    ∃ r, tpAdjustPass conv scr a s = some (r, none) ∧
      AdjustOutcome scr (log ++ [⟨s, none⟩]) r := by
  have hflags : a.dev.sta = 0 ∨ a.dev.sta = heldSta ∧ s.pen = false := by
    refine hinv.flags.imp And.left fun h => ⟨h.1, ?_⟩
    by_contra hpen
    exact hquiet ⟨by simpa using hpen, h.2⟩
  obtain ⟨dev, hsta, -, hpass⟩ := tpAdjustPass_quiet conv scr hflags
  have hpoints := recordedPoints_concat_none log s
  have hcount : quietPasses (log ++ [⟨s, none⟩]) = quietPasses log + 1 :=
    quietPasses_concat_none rfl
  have hge := hinv.outtime_ge
  have hle := hinv.outtime_le
  refine ⟨_, hpass, AdjustSlots.tail scr ⟨?_, ?_, ?_⟩ ?_ ?_ hinv.outtime_lt⟩
  · rw [penHeld_concat]
    show dev.sta = 0 ∧ _ ∨ dev.sta = heldSta ∧ _
    rw [hsta]
    split_ifs with hpen
    · exact .inr ⟨rfl, hpen⟩
    · exact .inl ⟨rfl, hpen⟩
  · rw [hpoints]
    exact hinv.cnt_eq
  · rw [LastFour, hpoints]
    exact hinv.slots
  · show _ ≤ a.outtime.toNat + 1
    omega
  · show a.outtime.toNat ≤ _
    omega

/-- After the fourth point the loop starts over with the first or has saved the calibration. -/
theorem tpAdjustSwitch_four {a : AdjustState} (h : a.cnt = 4) :
    (∃ t : TouchState, t.dev.sta = a.dev.sta ∧
      tpAdjustSwitch scr a = .running { a with toTouchState := t, cnt := 0 }) ∨
    ∃ t : TouchState, tpAdjustSwitch scr a = .saved t ∧
      tpAdjustVerdict scr a.posTemp t.dev.touchtype = .accepted t.dev.toAdjData ∧
      t.stored = some t.dev.toAdjData := by
  rw [tpAdjustSwitch, if_pos h]
  split
  · exact .inl ⟨a.toTouchState, rfl, rfl⟩
  · refine .inl ⟨_, ?_, rfl⟩
    rw [selectCommands_dev]
    rfl
  · rename_i adj hverdict
    refine .inr ⟨_, rfl, ?_, rfl⟩
    -- the touch type is no part of what an accepted attempt changes
    have hadj := ((tpAdjustVerdict_eq_accepted_iff scr a.posTemp a.dev.touchtype adj).mp hverdict).2.2
    have htype : adj.touchtype = a.dev.touchtype := by
      rw [hadj]
      rfl
    show tpAdjustVerdict scr a.posTemp adj.touchtype = .accepted adj
    rw [htype, hverdict]

/-- One more point replaces the oldest of the last four. -/
theorem LastFour.record {log : List AdjustPass} {posTemp : Fin 4 → Point} (h : LastFour log posTemp)
    {cnt : Fin 4} (hcnt : cnt.1 = (recordedPoints log).length % 4) (s : PenSample) (p : Point) :
    LastFour (log ++ [⟨s, some p⟩]) (Function.update posTemp cnt p) := by
  intro i q hq hlast
  rw [recordedPoints_concat_some] at hq hlast
  rw [List.length_append, List.length_singleton] at hlast
  rcases Nat.lt_trichotomy i (recordedPoints log).length with hlt | heq | hgt
  · -- an earlier point, in another place
    have hne : Fin.ofNat 4 i ≠ cnt := by
      intro he
      have hval : i % 4 = cnt.1 := congrArg Fin.val he
      omega
    rw [List.getElem?_append_left hlt] at hq
    rw [Function.update_of_ne hne]
    exact h i q hq (by omega)
  · have he : Fin.ofNat 4 i = cnt := Fin.ext (by rw [hcnt, ← heq]; rfl)
    rw [heq, List.getElem?_append_right le_rfl, Nat.sub_self] at hq
    rw [he, Function.update_self]
    exact Option.some.inj hq
  · rw [List.getElem?_append_right hgt.le, List.getElem?_eq_none (by
      rw [List.length_singleton]
      omega)] at hq
    exact absurd hq (by simp)

/-- After a whole number of attempts the places hold the last one in order. -/
theorem LastFour.attempt {log : List AdjustPass} {posTemp : Fin 4 → Point} (h : LastFour log posTemp)
    (hlen : (recordedPoints log).length % 4 = 0) (hne : recordedPoints log ≠ []) :
    ∃ old, recordedPoints log = old ++ List.ofFn posTemp ∧ old.length % 4 = 0 := by
  have hpos := List.length_pos_iff.mpr hne
  have hdrop : (recordedPoints log).drop ((recordedPoints log).length - 4) = List.ofFn posTemp := by
    refine List.ext_getElem (by rw [List.length_drop, List.length_ofFn]; omega) fun k hk hk' => ?_
    rw [List.length_ofFn] at hk'
    rw [List.getElem_drop, List.getElem_ofFn]
    have hplace := h ((recordedPoints log).length - 4 + k) _
      (List.getElem?_eq_getElem (by omega)) (by omega)
    have hfin : Fin.ofNat 4 ((recordedPoints log).length - 4 + k) = ⟨k, hk'⟩ := by
      refine Fin.ext ?_
      show ((recordedPoints log).length - 4 + k) % 4 = k
      omega
    rw [← hplace, hfin]
  refine ⟨(recordedPoints log).take ((recordedPoints log).length - 4), ?_, ?_⟩
  · rw [← hdrop, List.take_append_drop]
  · rw [List.length_take]
    omega

/-- The flags and the places after one more point. -/
theorem AdjustSlots.record {log : List AdjustPass} {a a' : AdjustState} (h : AdjustSlots log a)
    {s : PenSample} {p : Point} (hpen : s.pen = true) (hsta : a'.dev.sta = 0)
    (hcnt : a'.cnt.toNat = (a.cnt.toNat + 1) % 4)
    (hpos : a'.posTemp = Function.update a.posTemp ⟨a.cnt.toNat, h.cnt_lt⟩ p) :
    AdjustSlots (log ++ [⟨s, some p⟩]) a' := by
  refine ⟨.inl ⟨hsta, ?_⟩, ?_, ?_⟩
  · rw [penHeld_concat]
    simp [hpen]
  · rw [recordedPoints_concat_some, hcnt, h.cnt_eq, List.length_append, List.length_singleton]
    omega
  · rw [hpos]
    exact h.slots.record h.cnt_eq s p

/-- The fourth point ends the attempt, whatever the verdict. -/
theorem tpAdjustSwitch_outcome {log : List AdjustPass} {a : AdjustState} (h4 : a.cnt = 4)
    (hslots : AdjustSlots log { a with cnt := 0 }) (hne : recordedPoints log ≠ [])
    (hquiet : quietPasses log = 0) (hout : a.outtime = 0) :
    AdjustOutcome scr log (tpAdjustSwitch scr a) := by
  rcases tpAdjustSwitch_four scr h4 with ⟨t, ht, hrun⟩ | ⟨t, hsave, hverdict, hstored⟩
  · rw [hrun]
    refine ⟨fun b hb => ?_, fun t ht => absurd ht (by simp), fun t ht => absurd ht (by simp),
      by omega⟩
    obtain rfl := PassResult.running.inj hb
    have houttime : a.outtime.toNat = 0 := by
      rw [hout]
      rfl
    refine ⟨⟨?_, hslots.cnt_eq, hslots.slots⟩, hquiet.le.trans (Nat.zero_le _),
      houttime.le.trans (Nat.zero_le _), houttime.le.trans (Nat.zero_le _)⟩
    show t.dev.sta = 0 ∧ _ ∨ t.dev.sta = heldSta ∧ _
    rw [ht]
    exact hslots.flags
  · rw [hsave]
    refine ⟨fun b hb => absurd hb (by simp), fun t' ht' => ?_, fun t ht => absurd ht (by simp),
      by omega⟩
    obtain rfl := PassResult.saved.inj ht'
    obtain ⟨old, hold, hlen⟩ := hslots.slots.attempt hslots.cnt_eq.symm hne
    exact ⟨hquiet, ⟨old, a.posTemp, hold, hlen, hverdict⟩, hstored⟩

/-- A pass that completes a press. -/
theorem AdjustInv.release {log : List AdjustPass} {a : AdjustState} (hinv : AdjustInv log a)
    {s : PenSample} (hpen : s.pen = true) (hheld : PenHeld log) :
    ∃ r, tpAdjustPass conv scr a s = some (r, some a.dev.point) ∧
      AdjustOutcome scr (log ++ [⟨s, some a.dev.point⟩]) r := by
  obtain ⟨dev, hdev, -, hpass⟩ :=
    tpAdjustPass_release conv scr (hinv.sta_of_held hheld) hpen hinv.cnt_lt
  have hcnt := hinv.cnt_lt
  have hsucc : (a.cnt + 1).toNat = a.cnt.toNat + 1 := by
    rw [UInt8.toNat_add, UInt8.toNat_one]
    omega
  have hquiet : quietPasses (log ++ [⟨s, some a.dev.point⟩]) = 0 := quietPasses_concat_some rfl
  -- the fourth point skips the end of the body, the others do not
  refine ⟨_, hpass, ?_⟩
  by_cases h4 : a.cnt + 1 = 4
  · have hfour : a.cnt.toNat + 1 = 4 := by
      rw [← hsucc, h4]
      rfl
    refine tpAdjustSwitch_outcome scr h4 (hinv.toAdjustSlots.record hpen hdev ?_ rfl) ?_ hquiet rfl
    · rw [hfour]
      rfl
    · rw [recordedPoints_concat_some]
      exact List.append_ne_nil_of_right_ne_nil _ (List.cons_ne_nil _ _)
  · have hroom : a.cnt.toNat + 1 < 4 := by
      have hne : (a.cnt + 1).toNat ≠ (4 : UInt8).toNat := fun he => h4 (UInt8.toNat_inj.mp he)
      have hfour : (4 : UInt8).toNat = 4 := rfl
      omega
    rw [tpAdjustSwitch, if_neg h4]
    exact AdjustSlots.tail scr
      (hinv.toAdjustSlots.record hpen hdev (hsucc.trans (Nat.mod_eq_of_lt hroom).symm) rfl)
      (hquiet.le.trans (Nat.zero_le _)) (Nat.zero_le _) (Nat.zero_le _)

/-- Every pass from a state between two passes is defined, records the point of the press it completes
and nothing else, and leads to another such state or out of the loop. -/
theorem AdjustInv.step {log : List AdjustPass} {a : AdjustState} (hinv : AdjustInv log a)
    (s : PenSample) :
    ∃ r recorded, tpAdjustPass conv scr a s = some (r, recorded) ∧
      recorded = (if s.pen = true ∧ a.dev.Pressed then some a.dev.point else none) ∧
      (recorded.isSome ↔ CompletesPress log ⟨s, recorded⟩) ∧
      AdjustOutcome scr (log ++ [⟨s, recorded⟩]) r := by
  by_cases hdone : s.pen = true ∧ a.dev.Pressed
  · have hheld : PenHeld log := hinv.pressed_iff.mp hdone.2
    obtain ⟨r, hpass, hout⟩ := hinv.release conv scr hdone.1 hheld
    exact ⟨r, some a.dev.point, hpass, (if_pos hdone).symm, iff_of_true rfl ⟨hdone.1, hheld⟩, hout⟩
  · have hquiet : ¬CompletesPress log ⟨s, none⟩ := fun h =>
      hdone ⟨h.1, hinv.pressed_iff.mpr h.2⟩
    obtain ⟨r, hpass, hout⟩ := hinv.quiet conv scr hquiet
    exact ⟨r, none, hpass, (if_neg hdone).symm, iff_of_false (by simp) hquiet, hout⟩

/-! ## Whole runs -/

/-- The loop is its first pass, and the rest if that goes on. -/
theorem tpAdjustLoop_cons (ss : List PenSample) {a : AdjustState} {s : PenSample} {r : PassResult}
    {recorded : Option Point} (hpass : tpAdjustPass conv scr a s = some (r, recorded)) :
    (∀ b, r = .running b → tpAdjustLoop conv scr a (s :: ss) =
        (tpAdjustLoop conv scr b ss).map fun t => (t.1, ⟨s, recorded⟩ :: t.2)) ∧
      ((∀ b, r ≠ .running b) → tpAdjustLoop conv scr a (s :: ss) = some (r, [⟨s, recorded⟩])) := by
  constructor
  · rintro b rfl
    rw [tpAdjustLoop, hpass]
  · intro hleft
    rw [tpAdjustLoop, hpass]
    cases r with
    | running b => exact absurd rfl (hleft b)
    | saved t => rfl
    | timeout t => rfl

/-- What a run shows, given the passes before it. -/
structure AdjustRun (before : List AdjustPass) (samples : List PenSample) (r : PassResult)
    (log : List AdjustPass) : Prop where
  recordsPresses : RecordsPresses (before ++ log)
  outcome : AdjustOutcome scr (before ++ log) r
  samples_eq : ∃ rest, samples = log.map (·.sample) ++ rest ∧ (∀ a, r = .running a → rest = [])

/-- From a state between two passes the loop is defined on every trace, and every pass it makes
shows what a pass shows. The induction is on the trace. -/
theorem tpAdjustLoop_run {before : List AdjustPass} {a : AdjustState} (hinv : AdjustInv before a)
    (hbefore : RecordsPresses before) (hquiet : quietPasses before ≤ 1001)
    (samples : List PenSample) :
    ∃ r log, tpAdjustLoop conv scr a samples = some (r, log) ∧
      AdjustRun scr before samples r log := by
  induction samples generalizing before a with
  | nil =>
    refine ⟨.running a, [], rfl, ?_, ⟨fun b hb => ?_, fun t ht => absurd ht (by simp),
      fun t ht => absurd ht (by simp), ?_⟩, [], rfl, fun _ _ => rfl⟩
    · rwa [List.append_nil]
    · obtain rfl := PassResult.running.inj hb
      rwa [List.append_nil]
    · rwa [List.append_nil]
  | cons s ss ih =>
    obtain ⟨r, recorded, hpass, -, hrec, hout⟩ := hinv.step conv scr s
    have hlog : RecordsPresses (before ++ [⟨s, recorded⟩]) :=
      Mealy.atEach_concat.mpr ⟨hbefore, hrec⟩
    obtain ⟨hrunning, hleft⟩ := tpAdjustLoop_cons conv scr ss hpass
    -- the pass goes on, or it is the last one
    by_cases hr : ∃ b, r = .running b
    · obtain ⟨b, rfl⟩ := hr
      obtain ⟨r', log, hloop, hrun⟩ := ih (hout.running b rfl) hlog hout.quiet_le
      refine ⟨r', ⟨s, recorded⟩ :: log, ?_, ?_, ?_, ?_⟩
      · rw [hrunning b rfl, hloop]
        rfl
      · rw [List.append_cons]
        exact hrun.recordsPresses
      · rw [List.append_cons]
        exact hrun.outcome
      · obtain ⟨rest, hrest, hend⟩ := hrun.samples_eq
        exact ⟨rest, by rw [hrest]; rfl, hend⟩
    · rw [not_exists] at hr
      exact ⟨r, [⟨s, recorded⟩], hleft hr, hlog, hout, ss, rfl, fun a ha => absurd ha (hr a)⟩

/-- The points recorded are the points of the presses, whatever the loop does with them. -/
theorem tpAdjustLoop_points {before : List AdjustPass} {a : AdjustState}
    (hinv : AdjustInv before a) {samples : List PenSample} {r : PassResult} {log : List AdjustPass}
    (hloop : tpAdjustLoop conv scr a samples = some (r, log)) :
    recordedPoints log = pressPoints (decide a.dev.Pressed) a.dev.point (log.map (·.sample)) := by
  induction samples generalizing before a log with
  | nil =>
    obtain ⟨-, rfl⟩ := Prod.mk.inj (Option.some.inj hloop)
    rfl
  | cons s ss ih =>
    obtain ⟨r₁, recorded, hpass, hrec, -, hout⟩ := hinv.step conv scr s
    obtain ⟨r₂, recorded₂, hpass₂, hpressed, hpoint, -, -⟩ :=
      tpAdjustPass_spec conv scr hinv.ready s
    obtain ⟨rfl, rfl⟩ := Prod.mk.inj (Option.some.inj (hpass.symm.trans hpass₂))
    -- the pass, and what it leaves for the samples behind it
    have hcons : ∀ rest : List AdjustPass,
        recordedPoints rest =
            pressPoints (decide r₁.dev.Pressed) r₁.dev.point (rest.map (·.sample)) →
          recordedPoints (⟨s, recorded⟩ :: rest) =
            pressPoints (decide a.dev.Pressed) a.dev.point
              ((⟨s, recorded⟩ :: rest).map (·.sample)) := by
      intro rest hrest
      have hpoints : recordedPoints (⟨s, recorded⟩ :: rest) = recorded.toList ++ recordedPoints rest := by
        cases recorded <;> rfl
      rw [hpoints, hrest, hrec, hpoint, List.map_cons, decide_eq_decide.mpr hpressed]
      by_cases hpen : s.pen = false
      · have hread : s.reading.map (tpPoint conv 1 a.dev.toAdjData) = s.reading := Option.map_id'
        rw [tpScan_point_down conv 1 hpen, hread, pressPoints_down hpen, decide_eq_true hpen,
          if_neg (by simp [hpen])]
        rfl
      · have hup : s.pen = true := Bool.not_eq_false _ ▸ hpen
        by_cases hdown : a.dev.Pressed
        · rw [tpScan_point_release conv 1 hup hdown, decide_eq_true hdown, pressPoints_release hup,
            decide_eq_false hpen, if_pos ⟨hup, hdown⟩]
          rfl
        · rw [tpScan_point_idle conv 1 hup hdown, decide_eq_false hdown, pressPoints_idle hup,
            decide_eq_false hpen, if_neg fun h => hdown h.2]
          rfl
    obtain ⟨hrunning, hleft⟩ := tpAdjustLoop_cons conv scr ss hpass
    by_cases hr : ∃ b, r₁ = .running b
    · obtain ⟨b, rfl⟩ := hr
      rw [hrunning b rfl, Option.map_eq_some_iff] at hloop
      obtain ⟨⟨r₃, rest⟩, hrest, heq⟩ := hloop
      obtain ⟨rfl, rfl⟩ := Prod.mk.inj heq
      exact hcons rest (ih (hout.running b rfl) hrest)
    · rw [not_exists] at hr
      rw [hleft hr] at hloop
      obtain ⟨rfl, rfl⟩ := Prod.mk.inj (Option.some.inj hloop)
      exact hcons [] rfl

/-- `TP_Adjust` forgets a press that was going on when it is entered. -/
theorem tpAdjustStart_points (posTemp : Fin 4 → Point) (s : TouchState) {samples : List PenSample}
    {r : PassResult} {log : List AdjustPass}
    (hloop : tpAdjustLoop conv scr (tpAdjustStart posTemp s) samples = some (r, log)) :
    recordedPoints log = pressPoints false s.dev.point (log.map (·.sample)) := by
  have hpoints := tpAdjustLoop_points conv scr (tpAdjustStart_inv posTemp s) hloop
  rw [decide_eq_false (not_pressed_of_idle rfl)] at hpoints
  exact hpoints

/-- The loop of `TP_Adjust`, entered in any state and sampling any trace. Each pass that sees the pen
come up records one point and no other pass does; the points are those of the presses, in order. The
index of the next point is below 4 and counts them modulo 4, and `pos_temp` holds the last four, each in
its place. The loop saves a calibration only with the fourth point of an attempt that is accepted, times
out only after 1000 passes without a completed press, and never goes through more than 1001 of them. -/
theorem tpAdjustLoop_contract (posTemp : Fin 4 → Point) (s : TouchState)
    (samples : List PenSample) :
    ∃ r log, tpAdjustLoop conv scr (tpAdjustStart posTemp s) samples = some (r, log) ∧
      (∃ rest, samples = log.map (·.sample) ++ rest ∧ (∀ a, r = .running a → rest = [])) ∧
      RecordsPresses log ∧
      recordedPoints log = pressPoints false s.dev.point (log.map (·.sample)) ∧
      (∀ a, r = .running a → a.cnt.toNat < 4 ∧
        a.cnt.toNat = (recordedPoints log).length % 4 ∧ LastFour log a.posTemp) ∧
      (∀ t, r = .saved t → SavesAttempt scr log t) ∧
      (∀ t, r = .timeout t → 1000 ≤ quietPasses log) ∧
      (∀ a, r = .running a → quietPasses log ≤ 1000) ∧ quietPasses log ≤ 1001 := by
  obtain ⟨r, log, hloop, hrec, hout, hsamples⟩ :=
    tpAdjustLoop_run conv scr (tpAdjustStart_inv posTemp s) (Mealy.atEach_nil _) (Nat.zero_le _)
      samples
  rw [List.nil_append] at hrec hout
  refine ⟨r, log, hloop, hsamples, hrec, tpAdjustStart_points conv scr posTemp s hloop, fun a ha => ?_,
    hout.saved, hout.timeout, fun a ha => ?_, hout.quiet_le⟩
  · have hinv := hout.running a ha
    exact ⟨hinv.cnt_lt, hinv.cnt_eq, hinv.slots⟩
  · have hinv := hout.running a ha
    exact hinv.outtime_ge.trans hinv.outtime_lt

end Stm32Board.Touch
