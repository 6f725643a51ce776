import Stm32Board.Touch.AdjustLoop
import Stm32Board.Touch.Calibration
import Stm32Board.Touch.Press
import Mathlib.Data.List.OfFn

/-!
# Leaving the calibration through its timeout

Reference: `TP_Adjust`, `TP_Get_Adjdata` and `TP_Init` of `applications/TOUCH/touch.c`.

`TP_Adjust` clears `xfac` when it is entered, and an attempt whose factors are too large leaves its
parameters in `tp_dev`, flips the touch type and exchanges the read commands. At the timeout
`TP_Get_Adjdata` puts the record of the EEPROM back, if there is one (`timeout_restored`).
-/

namespace Stm32Board.Touch

open Common Lcd

/-! ## Attempts -/

/-- The complete attempts among the points recorded, four points each. -/
def attempts : List Point → List (Fin 4 → Point)
  | p₁ :: p₂ :: p₃ :: p₄ :: ps => ![p₁, p₂, p₃, p₄] :: attempts ps
  | _ => []

/-- Behind whole attempts a new one begins. -/
theorem attempts_append {old : List Point} (h : old.length % 4 = 0) (ps : List Point) :
    attempts (old ++ ps) = attempts old ++ attempts ps := by
  induction old using attempts.induct with
  | case1 p₁ p₂ p₃ p₄ old ih =>
    simp only [List.length_cons] at h
    simp only [List.cons_append, attempts, ih (by omega)]
  | case2 old hshort =>
    have hnil : old = [] := by
      match old, hshort with
      | [], _ => rfl
      | [_], _ => simp at h
      | [_, _], _ => simp at h
      | [_, _, _], _ => simp at h
      | p₁ :: p₂ :: p₃ :: p₄ :: ps, hshort => exact absurd rfl (hshort p₁ p₂ p₃ p₄ ps)
    rw [hnil]
    rfl

/-- An earlier point completes no attempt. -/
theorem attempts_concat_earlier {ps : List Point} (p : Point) (hlen : ps.length % 4 ≠ 3) :
    attempts (ps ++ [p]) = attempts ps := by
  have hshort : ∀ {qs : List Point}, qs.length < 4 → attempts qs = [] := by
    intro qs hqs
    match qs with
    | [] | [_] | [_, _] | [_, _, _] => rfl
    | _ :: _ :: _ :: _ :: _ =>
      simp only [List.length_cons] at hqs
      omega
  -- whole attempts in front, and at most two points behind them
  have hold : (ps.take (ps.length / 4 * 4)).length % 4 = 0 := by
    rw [List.length_take]
    omega
  have hrest : attempts (ps.drop (ps.length / 4 * 4)) = [] := hshort (by
    rw [List.length_drop]
    omega)
  have hnew : attempts (ps.drop (ps.length / 4 * 4) ++ [p]) = [] := hshort (by
    rw [List.length_append, List.length_drop, List.length_singleton]
    omega)
  have hsplit := List.take_append_drop (ps.length / 4 * 4) ps
  calc attempts (ps ++ [p])
      = attempts (ps.take (ps.length / 4 * 4) ++ (ps.drop (ps.length / 4 * 4) ++ [p])) := by
        rw [← List.append_assoc, hsplit]
    _ = attempts (ps.take (ps.length / 4 * 4) ++ ps.drop (ps.length / 4 * 4)) := by
        rw [attempts_append hold, attempts_append hold, hrest, hnew]
    _ = attempts ps := by rw [hsplit]

/-- The fourth point completes an attempt of the points in `pos_temp`. -/
theorem attempts_concat_fourth {ps : List Point} {pos : Fin 4 → Point} (p : Point)
    (hlen : ps.length % 4 = 3)
    (hslots : ∀ k : Fin 4, k.1 < 3 → ps[ps.length - 3 + k.1]? = some (pos k)) :
    attempts (ps ++ [p]) = attempts ps ++ [Function.update pos 3 p] := by
  obtain ⟨old, q₁, q₂, q₃, rfl⟩ : ∃ old q₁ q₂ q₃, ps = old ++ [q₁, q₂, q₃] := by
    have hdrop : (ps.drop (ps.length - 3)).length = 3 := by
      rw [List.length_drop]
      omega
    obtain ⟨q₁, q₂, q₃, h⟩ := List.length_eq_three.mp hdrop
    exact ⟨ps.take (ps.length - 3), q₁, q₂, q₃, by rw [← h, List.take_append_drop]⟩
  have hold : old.length % 4 = 0 := by
    rw [List.length_append] at hlen
    simp only [List.length_cons, List.length_nil] at hlen
    omega
  have hpos : Function.update pos 3 p = ![q₁, q₂, q₃, p] := by
    have h₀ := hslots 0 (by decide)
    have h₁ := hslots 1 (by decide)
    have h₂ := hslots 2 (by decide)
    simp at h₀ h₁ h₂
    funext k
    match k with
    | 0 => exact h₀.symm
    | 1 => exact h₁.symm
    | 2 => exact h₂.symm
    | 3 => rfl
  have hshort : attempts [q₁, q₂, q₃] = [] := rfl
  rw [List.append_assoc, attempts_append hold, attempts_append hold, hshort, List.append_nil, hpos]
  rfl

/-- Four points that pass the comparisons and give a factor that is too large: the panel is taken to
be mounted the other way. -/
def Reversed (scr : Screen) (pos : Fin 4 → Point) : Prop :=
  tpAdjustVerdict scr pos 0 ≠ .unfit ∧ FactorsTooLarge (tpAdjustParams scr pos 0)

instance (scr : Screen) (pos : Fin 4 → Point) : Decidable (Reversed scr pos) :=
  inferInstanceAs (Decidable (_ ∧ _))

/-- The verdict on four points, whatever the touch type. -/
theorem tpAdjustVerdict_reversed_iff (scr : Screen) (pos : Fin 4 → Point) (touchtype : UInt8)
    (adj : AdjData) :
    tpAdjustVerdict scr pos touchtype = .reversed adj ↔
      Reversed scr pos ∧
      adj = { tpAdjustParams scr pos touchtype with
        touchtype := if touchtype = 0 then 1 else 0 } := by
  rw [Reversed, tpAdjustVerdict, tpAdjustVerdict]
  dsimp only
  -- the touch type is no part of the factors
  by_cases h : FactorsTooLarge (tpAdjustParams scr pos touchtype)
  · have h₀ : FactorsTooLarge (tpAdjustParams scr pos 0) := h
    simp only [if_pos h, if_pos h₀]
    split_ifs <;> simp [h₀, eq_comm]
  · have h₀ : ¬FactorsTooLarge (tpAdjustParams scr pos 0) := h
    simp only [if_neg h, if_neg h₀]
    split_ifs <;> simp [h₀]

/-! ## What the loop changes -/

/-- The read commands are those of the touch type. -/
def CommandsFit (s : TouchState) : Prop := s.selectCommands = s

/-- Commands that were selected fit. -/
theorem selectCommands_fit (s : TouchState) : CommandsFit s.selectCommands := by
  by_cases h : s.dev.touchtype ≠ 0
  · simp only [CommandsFit, TouchState.selectCommands, if_pos h]
  · simp only [CommandsFit, TouchState.selectCommands, if_neg h]

/-- The two commands that fit a touch type. -/
theorem commandsFit_iff (s : TouchState) :
    CommandsFit s ↔ s.cmdRdx = (if s.dev.touchtype ≠ 0 then 0x90 else 0xD0) ∧
      s.cmdRdy = (if s.dev.touchtype ≠ 0 then 0xD0 else 0x90) := by
  obtain ⟨dev, rdx, rdy, stored⟩ := s
  simp only [CommandsFit, TouchState.selectCommands]
  split_ifs <;> simp [eq_comm]

/-- What a run must give back: the calibration and the two read commands. -/
structure Restored (s t : TouchState) : Prop where
  adj_eq : t.dev.toAdjData = s.dev.toAdjData
  cmdRdx_eq : t.cmdRdx = s.cmdRdx
  cmdRdy_eq : t.cmdRdy = s.cmdRdy

/-- Commands that fit are given back with the touch type. -/
theorem restored_of_adj {s t : TouchState} (hs : CommandsFit s) (ht : CommandsFit t)
    (h : t.dev.toAdjData = s.dev.toAdjData) : Restored s t := by
  have htype : t.dev.touchtype = s.dev.touchtype := congrArg AdjData.touchtype h
  obtain ⟨hx, hy⟩ := (commandsFit_iff s).mp hs
  obtain ⟨hx', hy'⟩ := (commandsFit_iff t).mp ht
  exact ⟨h, by rw [hx, hx', htype], by rw [hy, hy', htype]⟩

variable (conv : Conversion) (scr : Screen)

/-- The number of attempts whose factors were too large. -/
def reversals (log : List AdjustPass) : ℕ :=
  (attempts (recordedPoints log)).countP fun pos => decide (Reversed scr pos)

/-- What the loop, entered in state `s`, has changed. -/
structure Changed (s : TouchState) (log : List AdjustPass) (t : TouchState) : Prop where
  stored_eq : t.stored = s.stored
  fit : CommandsFit t
  kept : reversals scr log = 0 →
    t.dev.toAdjData = { s.dev.toAdjData with xfac := ExactFloat.ofInt 0 }
  type_iff : t.dev.touchtype = 0 ↔ (s.dev.touchtype = 0 ↔ reversals scr log % 2 = 0)

/-- At the start only `xfac` is cleared. -/
theorem tpAdjustStart_changed (posTemp : Fin 4 → Point) {s : TouchState} (hs : CommandsFit s) :
    Changed scr s [] (tpAdjustStart posTemp s).toTouchState where
  stored_eq := rfl
  fit := by
    rw [commandsFit_iff] at hs ⊢
    exact hs
  kept := fun _ => rfl
  type_iff := (iff_true_right rfl).symm

/-- The changes only concern the calibration, the commands and the record. -/
theorem Changed.congr {s t t' : TouchState} {log log' : List AdjustPass} (h : Changed scr s log t)
    (hdev : t'.dev.toAdjData = t.dev.toAdjData) (hx : t'.cmdRdx = t.cmdRdx)
    (hy : t'.cmdRdy = t.cmdRdy) (hstored : t'.stored = t.stored)
    (hlog : reversals scr log' = reversals scr log) : Changed scr s log' t' := by
  have htype : t'.dev.touchtype = t.dev.touchtype := congrArg AdjData.touchtype hdev
  refine ⟨hstored.trans h.stored_eq, ?_, ?_, ?_⟩
  · have hfit := h.fit
    rw [commandsFit_iff] at hfit ⊢
    rw [htype, hx, hy]
    exact hfit
  · rw [hlog, hdev]
    exact h.kept
  · rw [hlog, htype]
    exact h.type_iff

/-- What a pass leads to. -/
structure ChangedOutcome (s : TouchState) (log : List AdjustPass) (r : PassResult) : Prop where
  running : ∀ b, r = .running b → Changed scr s log b.toTouchState
  timeout : ∀ t, r = .timeout t → ∃ b, Changed scr s log b ∧ t = (tpGetAdjdata b).1
  saved : ∀ t, r = .saved t → t.stored = some t.dev.toAdjData ∧ CommandsFit t

/-- The end of the body changes nothing more, unless it reads the record back. -/
theorem Changed.tail {s : TouchState} {log : List AdjustPass} {a : AdjustState}
    (h : Changed scr s log a.toTouchState) : ChangedOutcome scr s log (tpAdjustTail a) := by
  rcases tpAdjustTail_cases a with ⟨htail, -⟩ | ⟨htail, -⟩
  · rw [htail]
    refine ⟨fun b hb => ?_, fun t ht => absurd ht (by simp), fun t ht => absurd ht (by simp)⟩
    obtain rfl := PassResult.running.inj hb
    exact h
  · rw [htail]
    refine ⟨fun b hb => absurd hb (by simp), fun t ht => ?_, fun t ht => absurd ht (by simp)⟩
    obtain rfl := PassResult.timeout.inj ht
    exact ⟨a.toTouchState, h, rfl⟩

/-- The verdict on the fourth point. A reversal replaces the parameters and flips the type. -/
theorem Changed.switch {s : TouchState} {log log' : List AdjustPass} {a : AdjustState}
    (h : Changed scr s log a.toTouchState) (h4 : a.cnt = 4)
    (hlog : reversals scr log' = reversals scr log + if Reversed scr a.posTemp then 1 else 0) :
    ChangedOutcome scr s log' (tpAdjustSwitch scr a) := by
  have hiff := tpAdjustVerdict_reversed_iff scr a.posTemp a.dev.touchtype
  rw [tpAdjustSwitch, if_pos h4]
  cases hverdict : tpAdjustVerdict scr a.posTemp a.dev.touchtype with
  | unfit =>
    have hrev : ¬Reversed scr a.posTemp := fun hrev =>
      absurd (hverdict.symm.trans ((hiff _).mpr ⟨hrev, rfl⟩)) (by simp)
    rw [if_neg hrev, Nat.add_zero] at hlog
    refine ⟨fun b hb => ?_, fun t ht => absurd ht (by simp), fun t ht => absurd ht (by simp)⟩
    obtain rfl := PassResult.running.inj hb
    exact h.congr scr rfl rfl rfl rfl hlog
  | reversed adj =>
    obtain ⟨hrev, hadj⟩ := (hiff adj).mp hverdict
    rw [if_pos hrev] at hlog
    refine ⟨fun b hb => ?_, fun t ht => absurd ht (by simp), fun t ht => absurd ht (by simp)⟩
    obtain rfl := PassResult.running.inj hb
    have hstored : (a.toTouchState.setAdj adj).selectCommands.stored = a.stored := by
      rw [TouchState.selectCommands]
      split_ifs <;> rfl
    have htype : (a.toTouchState.setAdj adj).selectCommands.dev.touchtype =
        if a.dev.touchtype = 0 then 1 else 0 := by
      rw [selectCommands_dev]
      exact congrArg AdjData.touchtype hadj
    have hflip : (if a.dev.touchtype = 0 then (1 : UInt8) else 0) = 0 ↔ ¬a.dev.touchtype = 0 := by
      split_ifs with hzero
      · exact iff_of_false (by decide) (not_not.mpr hzero)
      · exact iff_of_true rfl hzero
    refine ⟨hstored.trans h.stored_eq, selectCommands_fit _, fun hnone => ?_, ?_⟩
    · omega
    · have hparity : (reversals scr log + 1) % 2 = 0 ↔ ¬reversals scr log % 2 = 0 := by omega
      -- the type is flipped and the count goes up by one, so both sides change
      calc (a.toTouchState.setAdj adj).selectCommands.dev.touchtype = 0
          ↔ ¬a.dev.touchtype = 0 := by rw [htype, hflip]
        _ ↔ ¬(s.dev.touchtype = 0 ↔ reversals scr log % 2 = 0) := not_congr h.type_iff
        _ ↔ (s.dev.touchtype = 0 ↔ ¬reversals scr log % 2 = 0) :=
          not_iff.trans (not_iff_comm.trans iff_comm)
        _ ↔ (s.dev.touchtype = 0 ↔ reversals scr log' % 2 = 0) := by rw [hlog, hparity]
  | accepted adj =>
    refine ⟨fun b hb => absurd hb (by simp), fun t ht => absurd ht (by simp), fun t ht => ?_⟩
    obtain rfl := PassResult.saved.inj ht
    have hadj := ((tpAdjustVerdict_eq_accepted_iff scr a.posTemp a.dev.touchtype adj).mp hverdict).2.2
    refine ⟨rfl, ?_⟩
    have hfit := h.fit
    rw [commandsFit_iff] at hfit ⊢
    rw [hadj]
    exact hfit

/-- The fourth point adds an attempt. -/
theorem reversals_concat_fourth {log : List AdjustPass} {a : AdjustState} (h : AdjustSlots log a)
    (h3 : a.cnt.toNat = 3) (sample : PenSample) (p : Point) :
    reversals scr (log ++ [⟨sample, some p⟩]) = reversals scr log +
      if Reversed scr (Function.update a.posTemp ⟨a.cnt.toNat, h.cnt_lt⟩ p) then 1 else 0 := by
  have hpoints := recordedPoints_concat_some log sample p
  have hfin : (⟨a.cnt.toNat, h.cnt_lt⟩ : Fin 4) = 3 := Fin.ext h3
  have hlen : (recordedPoints log).length % 4 = 3 := h.cnt_eq.symm.trans h3
  have hslots : ∀ k : Fin 4, k.1 < 3 →
      (recordedPoints log)[(recordedPoints log).length - 3 + k.1]? = some (a.posTemp k) := by
    intro k hk
    have hlt : (recordedPoints log).length - 3 + k.1 < (recordedPoints log).length := by omega
    have hplace : Fin.ofNat 4 ((recordedPoints log).length - 3 + k.1) = k := by
      refine Fin.ext ?_
      show ((recordedPoints log).length - 3 + k.1) % 4 = k.1
      omega
    have hslot := h.slots _ _ (List.getElem?_eq_getElem hlt) (by omega)
    rw [List.getElem?_eq_getElem hlt, ← hslot, hplace]
  rw [reversals, reversals, hpoints, hfin, attempts_concat_fourth p hlen hslots,
    List.countP_append, List.countP_singleton]
  simp only [decide_eq_true_eq]

/-- An earlier point than the fourth adds none. -/
theorem reversals_concat_earlier {log : List AdjustPass} {a : AdjustState} (h : AdjustSlots log a)
    (h3 : a.cnt.toNat ≠ 3) (sample : PenSample) (p : Point) :
    reversals scr (log ++ [⟨sample, some p⟩]) = reversals scr log := by
  have hpoints := recordedPoints_concat_some log sample p
  rw [reversals, reversals, hpoints, attempts_concat_earlier p (h.cnt_eq ▸ h3)]

/-- A pass without a point adds no attempt. -/
theorem reversals_concat_none (log : List AdjustPass) (sample : PenSample) :
    reversals scr (log ++ [⟨sample, none⟩]) = reversals scr log := by
  rw [reversals, reversals, recordedPoints_concat_none]

/-- One pass, whatever it samples. -/
theorem Changed.step {s : TouchState} {log : List AdjustPass} {a : AdjustState}
    (h : Changed scr s log a.toTouchState) (hinv : AdjustInv log a) {sample : PenSample}
    {r : PassResult} {recorded : Option Point}
    (hpass : tpAdjustPass conv scr a sample = some (r, recorded)) :
    ChangedOutcome scr s (log ++ [⟨sample, recorded⟩]) r := by
  by_cases hdone : sample.pen = true ∧ PenHeld log
  · obtain ⟨hpen, hheld⟩ := hdone
    obtain ⟨dev, -, hdev, hpass'⟩ :=
      tpAdjustPass_release conv scr (hinv.sta_of_held hheld) hpen hinv.cnt_lt
    obtain ⟨rfl, rfl⟩ := Prod.mk.inj (Option.some.inj (hpass'.symm.trans hpass))
    -- the fourth point of an attempt is judged, an earlier one only stored
    by_cases h3 : a.cnt = 3
    · have hfour : a.cnt + 1 = 4 := by
        rw [h3]
        rfl
      exact Changed.switch scr (h.congr scr hdev rfl rfl rfl rfl) hfour
        (reversals_concat_fourth scr hinv.toAdjustSlots (congrArg UInt8.toNat h3) sample _)
    · have hne : a.cnt + 1 ≠ 4 := fun he => h3 (by
        rw [← UInt8.add_sub_cancel a.cnt 1, he]
        rfl)
      have hne' : a.cnt.toNat ≠ 3 := fun he => h3 (UInt8.toNat_inj.mp he)
      rw [tpAdjustSwitch, if_neg hne]
      exact Changed.tail scr (h.congr scr hdev rfl rfl rfl
        (reversals_concat_earlier scr hinv.toAdjustSlots hne' sample _))
  · have hflags : a.dev.sta = 0 ∨ a.dev.sta = heldSta ∧ sample.pen = false := by
      refine hinv.flags.imp And.left fun hheld => ⟨hheld.1, ?_⟩
      by_contra hpen
      exact hdone ⟨by simpa using hpen, hheld.2⟩
    obtain ⟨dev, -, hdev, hpass'⟩ := tpAdjustPass_quiet conv scr hflags
    obtain ⟨rfl, rfl⟩ := Prod.mk.inj (Option.some.inj (hpass'.symm.trans hpass))
    exact Changed.tail scr (h.congr scr hdev rfl rfl rfl (reversals_concat_none scr log sample))

/-- A run of the loop, given the passes before it. -/
theorem tpAdjustLoop_changed {s : TouchState} {before : List AdjustPass} {a : AdjustState}
    (hinv : AdjustInv before a) (h : Changed scr s before a.toTouchState)
    {samples : List PenSample} {r : PassResult} {log : List AdjustPass}
    (hloop : tpAdjustLoop conv scr a samples = some (r, log)) :
    ChangedOutcome scr s (before ++ log) r := by
  induction samples generalizing before a log with
  | nil =>
    obtain ⟨rfl, rfl⟩ := Prod.mk.inj (Option.some.inj hloop)
    rw [List.append_nil]
    refine ⟨fun b hb => ?_, fun t ht => absurd ht (by simp), fun t ht => absurd ht (by simp)⟩
    obtain rfl := PassResult.running.inj hb
    exact h
  | cons sample samples ih =>
    obtain ⟨r₁, recorded, hpass, -, -, hout⟩ := hinv.step conv scr sample
    have hchanged := h.step conv scr hinv hpass
    obtain ⟨hrunning, hleft⟩ := tpAdjustLoop_cons conv scr samples hpass
    by_cases hr : ∃ b, r₁ = .running b
    · obtain ⟨b, rfl⟩ := hr
      rw [hrunning b rfl, Option.map_eq_some_iff] at hloop
      obtain ⟨⟨r₂, log₂⟩, hloop₂, heq⟩ := hloop
      obtain ⟨rfl, rfl⟩ := Prod.mk.inj heq
      rw [List.append_cons]
      exact ih (hout.running b rfl) (hchanged.running b rfl) hloop₂
    · rw [not_exists] at hr
      rw [hleft hr] at hloop
      obtain ⟨rfl, rfl⟩ := Prod.mk.inj (Option.some.inj hloop)
      exact hchanged

/-! ## Where `TP_Adjust` is entered -/

/-- The EEPROM holds no record or the record of the parameters in use, and the commands fit. -/
structure InUse (s : TouchState) : Prop where
  stored : s.stored = none ∨ s.stored = some s.dev.toAdjData
  fit : CommandsFit s

/-- The states `TP_Adjust` is entered in: by `TP_Init` when there is no record, and later, after
scans, reads of the record and runs of `TP_Adjust`. -/
inductive AdjustEntry : TouchState → Prop
  | uncalibrated (first : Point) :
    AdjustEntry { powerOn none with dev := (powerOn none).dev.setPoint 0 first }
  | calibrated {posTemp : Fin 4 → Point} {first : Point} {stored : Option AdjData} {s : TouchState}
    (hinit : tpInit posTemp first (powerOn stored) = .ready s) : AdjustEntry s
  | scan {s : TouchState} (hs : AdjustEntry s) (tp : UInt8) (sample : PenSample) :
    AdjustEntry { s with dev := (tpScan conv tp sample s.dev).1 }
  | reread {s : TouchState} (hs : AdjustEntry s) : AdjustEntry (tpGetAdjdata s).1
  | adjust {s t : TouchState} (hs : AdjustEntry s) (posTemp : Fin 4 → Point)
    (samples : List PenSample) {r : PassResult} {log : List AdjustPass}
    (hloop : tpAdjustLoop conv scr (tpAdjustStart posTemp s) samples = some (r, log))
    (hr : r = .saved t ∨ r = .timeout t) : AdjustEntry t

/-- Reading the record back puts it in use. -/
theorem tpGetAdjdata_some {s : TouchState} {adj : AdjData} (h : s.stored = some adj) :
    (tpGetAdjdata s).1.dev.toAdjData = adj ∧ (tpGetAdjdata s).1.stored = some adj ∧
      CommandsFit (tpGetAdjdata s).1 := by
  simp only [tpGetAdjdata, h]
  refine ⟨?_, ?_, selectCommands_fit _⟩
  · rw [selectCommands_dev]
    rfl
  · rw [← h, TouchState.selectCommands]
    split_ifs <;> rfl

/-- Without a record nothing is read back. -/
theorem tpGetAdjdata_none {s : TouchState} (h : s.stored = none) : (tpGetAdjdata s).1 = s := by
  simp only [tpGetAdjdata, h]

/-- After `TP_Get_Adjdata` the record, if there is one, is in use. -/
theorem tpGetAdjdata_inUse {s : TouchState} (h : CommandsFit s) : InUse (tpGetAdjdata s).1 := by
  cases hstored : s.stored with
  | none =>
    rw [tpGetAdjdata_none hstored]
    exact ⟨.inl hstored, h⟩
  | some adj =>
    obtain ⟨hadj, hst, hfit⟩ := tpGetAdjdata_some hstored
    exact ⟨.inr (by rw [hst, hadj]), hfit⟩

variable {conv scr}

/-- `TP_Adjust` is entered with the record in use. The induction is on how the state was reached. -/
theorem AdjustEntry.inUse {s : TouchState} (hs : AdjustEntry conv scr s) : InUse s := by
  induction hs with
  | uncalibrated first => exact ⟨.inl rfl, (commandsFit_iff _).mpr ⟨rfl, rfl⟩⟩
  | @calibrated posTemp first stored s hinit =>
    have hfit : CommandsFit { powerOn stored with dev := (powerOn stored).dev.setPoint 0 first } :=
      (commandsFit_iff _).mpr ⟨rfl, rfl⟩
    rw [tpInit] at hinit
    split_ifs at hinit
    obtain rfl := TouchProg.ready.inj hinit
    exact tpGetAdjdata_inUse hfit
  | scan _ tp sample ih =>
    have hadj := tpScan_toAdjData conv tp sample
    refine ⟨?_, ?_⟩
    · rw [hadj]
      exact ih.stored
    · have hfit := ih.fit
      rw [commandsFit_iff] at hfit ⊢
      rw [show ∀ d, (tpScan conv tp sample d).1.touchtype = d.touchtype from
        fun d => congrArg AdjData.touchtype (hadj d)]
      exact hfit
  | reread _ ih => exact tpGetAdjdata_inUse ih.fit
  | @adjust s t _ posTemp samples r log hloop hr ih =>
    have hout := tpAdjustLoop_changed conv scr (tpAdjustStart_inv posTemp s)
      (tpAdjustStart_changed scr posTemp ih.fit) hloop
    rcases hr with rfl | rfl
    · obtain ⟨hstored, hfit⟩ := hout.saved t rfl
      exact ⟨.inr hstored, hfit⟩
    · obtain ⟨b, hb, rfl⟩ := hout.timeout t rfl
      exact tpGetAdjdata_inUse hb.fit

/-- Every exit through the timeout reads the record back over what the loop has changed. -/
theorem AdjustEntry.timeout {s t : TouchState} (hs : AdjustEntry conv scr s)
    {posTemp : Fin 4 → Point} {samples : List PenSample} {log : List AdjustPass}
    (hloop : tpAdjustLoop conv scr (tpAdjustStart posTemp s) samples = some (.timeout t, log)) :
    ∃ b, Changed scr s log b ∧ t = (tpGetAdjdata b).1 :=
  (tpAdjustLoop_changed conv scr (tpAdjustStart_inv posTemp s)
    (tpAdjustStart_changed scr posTemp hs.inUse.fit) hloop).timeout t rfl

/-- With a record in the EEPROM the timeout gives back what the loop was entered with: the record is
that of the parameters in use. -/
theorem AdjustEntry.timeout_restored_of_stored {s t : TouchState} (hs : AdjustEntry conv scr s)
    {posTemp : Fin 4 → Point} {samples : List PenSample} {log : List AdjustPass}
    (hloop : tpAdjustLoop conv scr (tpAdjustStart posTemp s) samples = some (.timeout t, log))
    {adj : AdjData} (hstored : s.stored = some adj) : Restored s t := by
  obtain ⟨b, hb, rfl⟩ := hs.timeout hloop
  obtain ⟨hadj, -, hfit⟩ := tpGetAdjdata_some (hb.stored_eq.trans hstored)
  have hsame : s.dev.toAdjData = adj := by
    rcases hs.inUse.stored with hnone | hsome
    · exact absurd (hstored.symm.trans hnone) (by simp)
    · exact Option.some.inj (hsome.symm.trans hstored)
  exact restored_of_adj hs.inUse.fit hfit (hadj.trans hsame.symm)

/-- Without a record nothing is put back: a cleared factor stays cleared. -/
theorem not_restored_of_xfac {s t : TouchState} (hs : AdjustEntry conv scr s)
    {posTemp : Fin 4 → Point} {samples : List PenSample} {log : List AdjustPass}
    (hloop : tpAdjustLoop conv scr (tpAdjustStart posTemp s) samples = some (.timeout t, log))
    (hstored : s.stored = none) (hxfac : s.dev.xfac ≠ ExactFloat.ofInt 0)
    (hzero : reversals scr log = 0) : ¬Restored s t := by
  obtain ⟨b, hb, rfl⟩ := hs.timeout hloop
  rw [tpGetAdjdata_none (hb.stored_eq.trans hstored)]
  intro h
  have hadj := h.adj_eq.symm.trans (hb.kept hzero)
  exact hxfac (congrArg AdjData.xfac hadj)

/-- A trace is run in parts. -/
theorem tpAdjustLoop_append (ys : List PenSample) {a b : AdjustState} {xs : List PenSample}
    {log : List AdjustPass}
    (h : tpAdjustLoop conv scr a xs = some (.running b, log)) :
    tpAdjustLoop conv scr a (xs ++ ys) =
      (tpAdjustLoop conv scr b ys).map fun r => (r.1, log ++ r.2) := by
  induction xs generalizing a log with
  | nil =>
    obtain ⟨hrun, rfl⟩ := Prod.mk.inj (Option.some.inj h)
    obtain rfl := PassResult.running.inj hrun
    exact Option.map_id'.symm
  | cons x xs ih =>
    rw [tpAdjustLoop] at h
    rw [List.cons_append, tpAdjustLoop]
    split at h
    · exact absurd h (by simp)
    · rename_i c recorded hpass
      obtain ⟨⟨r, log'⟩, hrest, heq⟩ := Option.map_eq_some_iff.mp h
      obtain ⟨rfl, rfl⟩ := Prod.mk.inj heq
      rw [ih hrest, Option.map_map]
      rfl
    · rename_i hleft hpass
      obtain ⟨rfl, -⟩ := Prod.mk.inj (Option.some.inj h)
      exact absurd rfl (hleft b)

/-- A sample with the pen up. -/
def penUp : PenSample where
  pen := true
  reading := none

/-- With the pen up for long enough the loop times out, and the waiting records nothing. -/
theorem tpAdjustLoop_penUp (conv : Conversion) (scr : Screen) {a : AdjustState} {n : ℕ}
    (hsta : a.dev.sta = 0) (hlt : a.outtime.toNat ≤ 1000) (hout : 1001 ≤ a.outtime.toNat + n) :
    ∃ t log, tpAdjustLoop conv scr a (List.replicate n penUp) = some (.timeout t, log) ∧
      recordedPoints log = [] := by
  induction n generalizing a with
  | zero => omega
  | succ n ih =>
    obtain ⟨dev, hdev, -, hpass⟩ := tpAdjustPass_quiet conv scr (s := penUp) (.inl hsta)
    obtain ⟨hrunning, hleft⟩ := tpAdjustLoop_cons conv scr (List.replicate n penUp) hpass
    have hsucc := outtime_succ_toNat (t := a.outtime) hlt
    have hbound : a.outtime + 1 > 1000 ↔ 1000 < (a.outtime + 1).toNat := UInt16.lt_iff_toNat_lt
    rw [List.replicate_succ]
    rcases tpAdjustTail_cases { a with dev := dev } with ⟨htail, hno⟩ | ⟨htail, hyes⟩
    · rw [hbound, hsucc] at hno
      have hle : (a.outtime + 1).toNat ≤ 1000 := by omega
      have hout' : 1001 ≤ (a.outtime + 1).toNat + n := by omega
      obtain ⟨t, log, hloop, hlog⟩ :=
        ih (a := { a with dev := dev, outtime := a.outtime + 1 }) hdev hle hout'
      refine ⟨t, ⟨penUp, none⟩ :: log, ?_, hlog⟩
      rw [hrunning _ htail, hloop, Option.map_some]
    · have hquit := hleft fun b hb => absurd (htail.symm.trans hb) (by simp)
      rw [htail] at hquit
      exact ⟨_, _, hquit, rfl⟩

/-- A sample with the pen down at a point. -/
def penDownAt (p : Point) : PenSample where
  pen := false
  reading := some p

/-- Four points touched one after the other. -/
def fourPresses (pos : Fin 4 → Point) : List PenSample :=
  [penDownAt (pos 0), penUp, penDownAt (pos 1), penUp, penDownAt (pos 2), penUp, penDownAt (pos 3),
    penUp]

/-- One attempt, and then nobody until the timeout. -/
def oneAttempt (pos : Fin 4 → Point) : List PenSample :=
  fourPresses pos ++ List.replicate 1001 penUp

/-- Four presses that are not accepted leave the loop running, with the pen up. -/
theorem fourPresses_run (conv : Conversion) {scr : Screen} {pos : Fin 4 → Point}
    (hpos : ∀ touchtype adj, tpAdjustVerdict scr pos touchtype ≠ .accepted adj)
    (posTemp : Fin 4 → Point) (s : TouchState) :
    ∃ a log, tpAdjustLoop conv scr (tpAdjustStart posTemp s) (fourPresses pos) =
        some (.running a, log) ∧
      a.dev.sta = 0 ∧ a.outtime.toNat ≤ 1000 ∧ recordedPoints log = List.ofFn pos := by
  obtain ⟨r, log, hloop, -, hout, rest, hsamples, hrest⟩ :=
    tpAdjustLoop_run conv scr (tpAdjustStart_inv posTemp s) (Mealy.atEach_nil _) (Nat.zero_le _)
      (fourPresses pos)
  rw [List.nil_append] at hout
  have hpoints := tpAdjustStart_points conv scr posTemp s hloop
  have hall : pressPoints false s.dev.point (fourPresses pos) = List.ofFn pos := rfl
  cases r with
  | running a =>
    rw [hrest a rfl, List.append_nil] at hsamples
    have hinv := hout.running a rfl
    have hup : ¬PenHeld log := by
      rintro ⟨q, hq, hpen⟩
      have hlast : (log.map (·.sample)).getLast? = some q.sample := by
        rw [List.getLast?_map, Option.mem_def.mp hq]
        rfl
      rw [← hsamples] at hlast
      have hlast' : (fourPresses pos).getLast? = some penUp := rfl
      rw [← Option.some.inj (hlast'.symm.trans hlast)] at hpen
      exact absurd hpen (by decide)
    refine ⟨a, log, hloop, ?_, hinv.outtime_lt, ?_⟩
    · rcases hinv.flags with ⟨hsta, -⟩ | ⟨-, hheld⟩
      · exact hsta
      · exact absurd hheld hup
    · rw [hpoints, ← hsamples, hall]
  | saved t =>
    -- four points at most are recorded, so it would be these that are accepted
    obtain ⟨old, pos', hold, -, hverdict⟩ := (hout.saved t rfl).attempt
    have hprefix : recordedPoints log <+: List.ofFn pos := by
      rw [hpoints, ← hall, hsamples]
      exact pressPoints_isPrefix _ _ _ _
    rw [hold] at hprefix
    have hnil : old = [] := by
      have hlen := hprefix.length_le
      rw [List.length_append, List.length_ofFn, List.length_ofFn] at hlen
      exact List.eq_nil_of_length_eq_zero (by omega)
    rw [hnil, List.nil_append] at hprefix
    have heq := hprefix.eq_of_length (by rw [List.length_ofFn, List.length_ofFn])
    rw [List.ofFn_injective heq] at hverdict
    exact absurd hverdict (hpos _ _)
  | timeout t =>
    have hlong := hout.timeout t rfl
    have hquiet : quietPasses log ≤ log.length := (List.rtakeWhile_suffix _ log).length_le
    have hlen := congrArg List.length hsamples
    rw [List.length_append, List.length_map] at hlen
    have height : (fourPresses pos).length = 8 := rfl
    omega

/-- An attempt that is not accepted, and then nobody: the loop ends in the timeout. -/
theorem oneAttempt_run (conv : Conversion) (scr : Screen) {pos : Fin 4 → Point}
    (hpos : ∀ touchtype adj, tpAdjustVerdict scr pos touchtype ≠ .accepted adj)
    (posTemp : Fin 4 → Point) (s : TouchState) :
    ∃ t log, tpAdjustLoop conv scr (tpAdjustStart posTemp s) (oneAttempt pos) =
        some (.timeout t, log) ∧ recordedPoints log = List.ofFn pos := by
  obtain ⟨a, log, hloop, hsta, hlt, hpoints⟩ := fourPresses_run conv hpos posTemp s
  obtain ⟨t, log', hwait, hlog'⟩ := tpAdjustLoop_penUp conv scr (n := 1001) hsta hlt (by omega)
  have hrun := tpAdjustLoop_append (List.replicate 1001 penUp) hloop
  rw [hwait] at hrun
  refine ⟨t, _, hrun, ?_⟩
  rw [recordedPoints, List.filterMap_append, ← recordedPoints, ← recordedPoints, hpoints, hlog',
    List.append_nil]

/-- A square of ten steps. -/
def tinySquare : Fin 4 → Point := ![(1000, 1000), (1010, 1000), (1000, 1010), (1010, 1010)]

/-- The span of ten steps is far too small, so the factors are too large. -/
theorem reversed_tinySquare : Reversed portraitScreen tinySquare := by
  have hadc : ∀ i, AdcRange (tinySquare i) := by
    unfold AdcRange
    decide
  refine ⟨(tpAdjustVerdict_ne_unfit_iff portraitScreen hadc 0).mpr
    (.inl (regularPoints_rectangle (by decide) (by decide))), ?_⟩
  by_contra h
  exact absurd ((not_factorsTooLarge_iff _ _ _).mp h).1 (by decide)

/-- Four points whose factors are too large are never accepted. -/
theorem Reversed.not_accepted {scr : Screen} {pos : Fin 4 → Point} (h : Reversed scr pos)
    (touchtype : UInt8) (adj : AdjData) : tpAdjustVerdict scr pos touchtype ≠ .accepted adj := by
  rw [(tpAdjustVerdict_reversed_iff scr pos touchtype _).mpr ⟨h, rfl⟩]
  simp

end Stm32Board.Touch
