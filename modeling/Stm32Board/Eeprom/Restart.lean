import Stm32Board.Eeprom.Record
import Stm32Board.Touch.Restore

/-!
# Restarting on the bytes of the EEPROM

Reference: `TP_Init`, `TP_Adjust`, `TP_Save_Adjdata` and `TP_Get_Adjdata` of
`applications/TOUCH/touch.c`.

The calibration model keeps the record as a value. Here it is what `storedAt` reads off the bytes: a
first save that loses power is either made again by `TP_Init` or complete, and a calibration that is
complete outlives every timeout of `TP_Adjust` (`firstSave_restart`).
-/

namespace Stm32Board.Eeprom

open Common Lcd Touch

variable {conv : Conversion} {scr : Screen}

/-- `TP_Init` calibrates when the EEPROM holds no record. -/
theorem tpInit_none (posTemp : Fin 4 → Point) (first : Point) :
    ∃ a, tpInit posTemp first (powerOn none) = .adjusting a :=
  ⟨_, rfl⟩

/-- With a record `TP_Init` puts it in use and returns. -/
theorem tpInit_some (posTemp : Fin 4 → Point) (first : Point) (adj : AdjData) :
    ∃ s, tpInit posTemp first (powerOn (some adj)) = .ready s ∧ s.dev.toAdjData = adj ∧
      s.stored = some adj ∧ CommandsFit s := by
  obtain ⟨hadj, hstored, hfit⟩ := tpGetAdjdata_some
    (s := { powerOn (some adj) with dev := (powerOn (some adj)).dev.setPoint 0 first }) rfl
  exact ⟨_, rfl, hadj, hstored, hfit⟩

/-- A timeout over a record gives back what was in use, and it is what the bytes stand for, whatever
was in RAM. -/
theorem timeout_restored_bytes {e : Contents} {s t : TouchState} (hs : AdjustEntry conv scr s)
    (hrec : HoldsRecord e) (hstored : s.stored = storedAt e) {posTemp : Fin 4 → Point}
    {samples : List PenSample} {log : List AdjustPass}
    (hloop : tpAdjustLoop conv scr (tpAdjustStart posTemp s) samples = some (.timeout t, log)) :
    Restored s t ∧ ∀ m, StandsFor (tpGetAdjdata e m).1 t := by
  have hsome : s.stored = some (imageAt e).decode := by
    rw [hstored, storedAt, if_pos hrec]
  refine ⟨hs.timeout_restored_of_stored hloop hsome, fun m => ?_⟩
  obtain ⟨b, hb, rfl⟩ := hs.timeout hloop
  exact (tpGetAdjdata_refines (hb.stored_eq.trans hstored) (.inl hrec)).2

/-- **A first calibration and a loss of power.** The save of a new calibration over an EEPROM without
a record is cut after some of its stores. Cut before the marker, `TP_Init` calibrates again. Else it
returns with the new calibration in use, and every later `TP_Adjust` that ends in its timeout gives
it back, the bytes of the EEPROM standing for it. -/
theorem firstSave_restart (conv : Conversion) (scr : Screen) {e : Contents} (hnone : ¬HoldsRecord e)
    (new : AdjImage) (k : ℕ) (posTemp : Fin 4 → Point) (first : Point) :
    let e' := applyWrites e ((tpSaveAdjdata new).take k)
    (k ≤ 14 → ∃ a, tpInit posTemp first (powerOn (storedAt e')) = .adjusting a) ∧
    (14 < k → ∃ s, tpInit posTemp first (powerOn (storedAt e')) = .ready s ∧
      s.dev.toAdjData = new.decode ∧ CommandsFit s ∧
      ∀ (posTemp : Fin 4 → Point) (samples : List PenSample) (t : TouchState)
        (log : List AdjustPass),
        tpAdjustLoop conv scr (tpAdjustStart posTemp s) samples = some (.timeout t, log) →
          Restored s t ∧ ∀ m, StandsFor (tpGetAdjdata e' m).1 t) := by
  dsimp only
  constructor
  · intro hk
    rw [storedAt_cut_early hnone new hk]
    exact tpInit_none posTemp first
  · intro hk
    have hrec := (record_cut_late e new hk).2
    have hsome := storedAt_cut_late e new hk
    obtain ⟨s, hinit, hadj, hstored, hfit⟩ := tpInit_some posTemp first new.decode
    rw [hsome]
    refine ⟨s, hinit, hadj, hfit, fun posTemp' samples t log hloop => ?_⟩
    exact timeout_restored_bytes (.calibrated hinit) hrec (hstored.trans hsome.symm) hloop

/-- A blank EEPROM, a save that is complete, and an attempt on the tiny square after the restart. -/
theorem firstSave_restart_blank :
    let new : AdjImage := ⟨List.replicate 14 1, rfl⟩
    let e' := applyWrites (fun _ => 0xFF) ((tpSaveAdjdata new).take 15)
    ∃ s t log, tpInit (fun _ => (0, 0)) (0, 0) (powerOn (storedAt e')) = .ready s ∧
      tpAdjustLoop tpConvert portraitScreen (tpAdjustStart (fun _ => (0, 0)) s)
        (oneAttempt tinySquare) = some (.timeout t, log) ∧
      Restored s t ∧ t.dev.touchtype = 1 := by
  dsimp only
  obtain ⟨s, hinit, hadj, -, hlater⟩ := (firstSave_restart tpConvert portraitScreen
    (e := fun _ => 0xFF) (by decide) ⟨List.replicate 14 1, rfl⟩ 15 (fun _ => (0, 0)) (0, 0)).2
    (by decide)
  obtain ⟨t, log, hloop, -⟩ := oneAttempt_run tpConvert portraitScreen
    reversed_tinySquare.not_accepted (fun _ => (0, 0)) s
  obtain ⟨hrestored, -⟩ := hlater _ _ t log hloop
  refine ⟨s, t, log, hinit, hloop, hrestored, ?_⟩
  rw [hrestored.adj_eq, hadj]
  rfl

end Stm32Board.Eeprom
