import Stm32Board.Button.Defs
import Mathlib.Data.List.ReduceOption

/-!
# One press of one button

The callbacks of `my_button_scan` are a function of the press counter after the pass
(`scanEvent`) or, at a release, before it (`releaseEvent`). `run_pressed` follows the counter through
a press that does not reach `2 ^ 16` passes; `press_events_iff` says when the callbacks of a whole
press are the specified ones.
-/

namespace Stm32Board.Button

open Common

/-! ## The two cases of a pass, over the mathematical counter -/

/-- `D`: the passes after which a press counts as a click. -/
def downScans : ℕ := (myButtonDownMs / myButtonScanSpaceMs).toNat

/-- `H`: the passes after which a press counts as a hold. -/
def holdScans : ℕ := (myButtonHoldMs / myButtonScanSpaceMs).toNat

/-- A press is noticed at its second scan. -/
theorem downScans_eq : downScans = 2 := by decide

/-- It is held from its 35th scan on. -/
theorem holdScans_eq : holdScans = 35 := by decide

/-- The pin of `b` is at the level that means pressed. -/
def Pressed (b : MyButton) (levels : PinLevels) : Prop :=
  levels b.pin = (b.pressLogicLevel.toNat : ℤ)

instance (b : MyButton) (levels : PinLevels) : Decidable (Pressed b levels) :=
  inferInstanceAs (Decidable (_ = _))

/-- The hold period selects a nonzero number of passes, or no cyclic callback at all. -/
def PeriodOk (b : MyButton) : Prop :=
  b.holdCycPeriod.toNat = 0 ∨ 20 ≤ b.holdCycPeriod.toNat

instance (b : MyButton) : Decidable (PeriodOk b) := inferInstanceAs (Decidable (_ ∨ _))

/-- The event raised by a pressed pass that leaves the counter at `j`, for hold period `p`. -/
def scanEvent (p j : ℕ) : Option MyButtonEvent :=
  if j = 2 then some .clickDown
  else if j = 35 then some .hold
  else if 35 < j ∧ p ≠ 0 ∧ j % (p / 20) = 0 then some .holdCyc
  else none

/-- The event raised by a released pass that finds the counter at `j`. -/
def releaseEvent (j : ℕ) : Option MyButtonEvent :=
  if 2 ≤ j ∧ j < 35 then some .clickUp
  else if 35 ≤ j then some .holdUp
  else none

/-- A raised event reaches the callback only when there is one. -/
def gated (b : MyButton) (e : Option MyButtonEvent) : Option MyButtonEvent :=
  if b.cb ≠ none then e else none

theorem gated_none (b : MyButton) : gated b none = none := by
  rw [gated, ite_self]

/-- `my_button_scan` never changes how a button is wired and configured. -/
structure SameWiring (b b' : MyButton) : Prop where
  level : b'.pressLogicLevel = b.pressLogicLevel
  period : b'.holdCycPeriod = b.holdCycPeriod
  pin : b'.pin = b.pin
  cb : b'.cb = b.cb

/-- A button is wired as it is. -/
theorem SameWiring.refl (b : MyButton) : SameWiring b b := ⟨rfl, rfl, rfl, rfl⟩

/-- Wiring that stays the same twice stays the same. -/
theorem SameWiring.trans {a b c : MyButton} (h : SameWiring a b) (h' : SameWiring b c) :
    SameWiring a c :=
  ⟨h'.level.trans h.level, h'.period.trans h.period, h'.pin.trans h.pin, h'.cb.trans h.cb⟩

/-- Whether a button is pressed is a matter of its wiring. -/
theorem SameWiring.pressed_iff {b b' : MyButton} (h : SameWiring b b') (levels : PinLevels) :
    Pressed b' levels ↔ Pressed b levels := by
  rw [Pressed, Pressed, h.pin, h.level]

/-- So is whether there is a period to divide by. -/
theorem SameWiring.periodOk_iff {b b' : MyButton} (h : SameWiring b b') :
    PeriodOk b' ↔ PeriodOk b := by
  rw [PeriodOk, PeriodOk, h.period]

/-- So is which events are called back. -/
theorem SameWiring.gated_eq {b b' : MyButton} (h : SameWiring b b') : gated b' = gated b := by
  funext e
  rw [gated, gated, h.cb]

/-- What a pressed pass does: the counter advances modulo `2 ^ 16` and the event is `scanEvent` of
the new count. It is undefined only when a cyclic callback is due with a period below the scan
interval. -/
theorem buttonStep_pressed (id : ButtonId) {b : MyButton} {levels : PinLevels}
    (hp : Pressed b levels) {j : ℕ} (hj : j = (b.cnt.toNat + 1) % 65536)
    (hok : PeriodOk b ∨ j ≤ 35) :
    ∃ b', buttonStep id b levels =
        some (b', gated b (scanEvent b.holdCycPeriod.toNat j)) ∧
      b'.cnt.toNat = j ∧ SameWiring b b' := by
  have hcnt : (b.cnt + 1).toNat = j := by
    rw [UInt16.toNat_add, hj]; rfl
  have h2 : b.cnt + 1 = myButtonDownMs / myButtonScanSpaceMs ↔ j = 2 := by
    rw [← UInt16.toNat_inj, hcnt]; rfl
  have h35 : b.cnt + 1 = myButtonHoldMs / myButtonScanSpaceMs ↔ j = 35 := by
    rw [← UInt16.toNat_inj, hcnt]; rfl
  have hgt : b.cnt + 1 > myButtonHoldMs / myButtonScanSpaceMs ↔ 35 < j := by
    rw [gt_iff_lt, UInt16.lt_iff_toNat_lt, hcnt]; rfl
  have hper : b.holdCycPeriod = 0 ↔ b.holdCycPeriod.toNat = 0 := by
    rw [← UInt16.toNat_inj]; rfl
  have hquot : b.holdCycPeriod / myButtonScanSpaceMs = 0 ↔ b.holdCycPeriod.toNat / 20 = 0 := by
    rw [← UInt16.toNat_inj, UInt16.toNat_div]; rfl
  have hrem : (b.cnt + 1) % (b.holdCycPeriod / myButtonScanSpaceMs) = 0 ↔
      j % (b.holdCycPeriod.toNat / 20) = 0 := by
    rw [← UInt16.toNat_inj, UInt16.toNat_mod, UInt16.toNat_div, hcnt]; rfl
  rw [Pressed] at hp
  simp only [buttonStep, scanButton, if_pos hp, h2, h35, hgt, hper, hquot, hrem, scanEvent]
  -- the thresholds are tested in the order of the source
  by_cases c2 : j = 2
  · simp only [if_pos c2]
    exact ⟨_, rfl, hcnt, ⟨rfl, rfl, rfl, rfl⟩⟩
  by_cases c35 : j = 35
  · simp only [if_neg c2, if_pos c35]
    exact ⟨_, rfl, hcnt, ⟨rfl, rfl, rfl, rfl⟩⟩
  by_cases cgt : 35 < j
  · simp only [if_neg c2, if_neg c35, cgt, true_and]
    by_cases c0 : b.holdCycPeriod.toNat = 0
    · simp only [c0, if_true, ne_eq, not_true_eq_false, false_and, if_false]
      rw [gated_none]
      exact ⟨_, rfl, hcnt, ⟨rfl, rfl, rfl, rfl⟩⟩
    · -- the only division of the scan; a period below 20 ms would make the divisor zero
      have hq : b.holdCycPeriod.toNat / 20 ≠ 0 := by
        rcases hok with h | h
        · rcases h with h | h
          · exact absurd h c0
          · omega
        · omega
      simp only [if_neg hq, ne_eq, c0, not_false_eq_true, true_and]
      by_cases cr : j % (b.holdCycPeriod.toNat / 20) = 0
      · simp only [if_pos cr]
        exact ⟨_, rfl, hcnt, ⟨rfl, rfl, rfl, rfl⟩⟩
      · simp only [if_neg cr]
        rw [gated_none]
        exact ⟨_, rfl, hcnt, ⟨rfl, rfl, rfl, rfl⟩⟩
  · simp only [if_neg c2, if_neg c35, cgt, false_and, if_false]
    rw [gated_none]
    exact ⟨_, rfl, hcnt, ⟨rfl, rfl, rfl, rfl⟩⟩

/-- With a period below the scan interval, a pressed pass beyond the hold threshold is undefined. -/
theorem buttonStep_pressed_undefined (id : ButtonId) {b : MyButton} {levels : PinLevels}
    (hp : Pressed b levels) (hbad : ¬ PeriodOk b) (hlt : 35 ≤ b.cnt.toNat)
    (hmax : b.cnt.toNat + 1 < 65536) : buttonStep id b levels = none := by
  have hcnt : (b.cnt + 1).toNat = b.cnt.toNat + 1 := by
    rw [UInt16.toNat_add]
    exact Nat.mod_eq_of_lt hmax
  have h2 : ¬ b.cnt + 1 = myButtonDownMs / myButtonScanSpaceMs := by
    rw [← UInt16.toNat_inj, hcnt]
    show b.cnt.toNat + 1 ≠ 2
    omega
  have h35 : ¬ b.cnt + 1 = myButtonHoldMs / myButtonScanSpaceMs := by
    rw [← UInt16.toNat_inj, hcnt]
    show b.cnt.toNat + 1 ≠ 35
    omega
  have hgt : b.cnt + 1 > myButtonHoldMs / myButtonScanSpaceMs := by
    rw [gt_iff_lt, UInt16.lt_iff_toNat_lt, hcnt]
    show 35 < b.cnt.toNat + 1
    omega
  rw [PeriodOk, not_or] at hbad
  have hper : ¬ b.holdCycPeriod = 0 := by
    rw [← UInt16.toNat_inj]
    exact hbad.1
  have hquot : b.holdCycPeriod / myButtonScanSpaceMs = 0 := by
    rw [← UInt16.toNat_inj, UInt16.toNat_div]
    show b.holdCycPeriod.toNat / 20 = 0
    omega
  rw [Pressed] at hp
  simp only [buttonStep, scanButton, if_pos hp, if_neg h2, if_neg h35, if_pos hgt, if_neg hper,
    if_pos hquot]

/-- What a released pass does: the counter is cleared and the event is `releaseEvent` of the old
count. -/
theorem buttonStep_released (id : ButtonId) {b : MyButton} {levels : PinLevels}
    (hp : ¬ Pressed b levels) :
    ∃ b', buttonStep id b levels = some (b', gated b (releaseEvent b.cnt.toNat)) ∧
      b'.cnt.toNat = 0 ∧ SameWiring b b' := by
  have hge2 : b.cnt ≥ myButtonDownMs / myButtonScanSpaceMs ↔ 2 ≤ b.cnt.toNat := by
    rw [ge_iff_le, UInt16.le_iff_toNat_le]; rfl
  have hlt : b.cnt < myButtonHoldMs / myButtonScanSpaceMs ↔ b.cnt.toNat < 35 := by
    rw [UInt16.lt_iff_toNat_lt]; rfl
  have hge35 : b.cnt ≥ myButtonHoldMs / myButtonScanSpaceMs ↔ 35 ≤ b.cnt.toNat := by
    rw [ge_iff_le, UInt16.le_iff_toNat_le]; rfl
  rw [Pressed] at hp
  simp only [buttonStep, scanButton, if_neg hp, hge2, hlt, hge35, releaseEvent]
  by_cases c1 : 2 ≤ b.cnt.toNat ∧ b.cnt.toNat < 35
  · simp only [if_pos c1]
    exact ⟨_, rfl, rfl, ⟨rfl, rfl, rfl, rfl⟩⟩
  by_cases c2 : 35 ≤ b.cnt.toNat
  · simp only [if_neg c1, if_pos c2]
    exact ⟨_, rfl, rfl, ⟨rfl, rfl, rfl, rfl⟩⟩
  · simp only [if_neg c1, if_neg c2]
    rw [gated_none]
    exact ⟨_, rfl, rfl, ⟨rfl, rfl, rfl, rfl⟩⟩

/-- What a pressed pass does, if it is defined at all. -/
theorem buttonStep_pressed_eq_some {id : ButtonId} {b b' : MyButton} {levels : PinLevels}
    {o : Option MyButtonEvent} (hp : Pressed b levels)
    (h : buttonStep id b levels = some (b', o)) :
    o = gated b (scanEvent b.holdCycPeriod.toNat ((b.cnt.toNat + 1) % 65536)) ∧
      b'.cnt.toNat = (b.cnt.toNat + 1) % 65536 ∧ SameWiring b b' := by
  by_cases hok : PeriodOk b ∨ (b.cnt.toNat + 1) % 65536 ≤ 35
  · obtain ⟨c, hc, hcnt, hw⟩ := buttonStep_pressed id hp rfl hok
    obtain ⟨rfl, rfl⟩ := Prod.mk.inj (Option.some.inj (h.symm.trans hc))
    exact ⟨rfl, hcnt, hw⟩
  · have hlt := b.cnt.toNat_lt
    rw [not_or] at hok
    rw [buttonStep_pressed_undefined id hp hok.1 (by omega) (by omega)] at h
    exact absurd h (by simp)

/-- Any defined pass keeps the wiring, and hands the callback an event only if there is one; in a
pressed pass that event is a `scanEvent`. -/
theorem buttonStep_output {id : ButtonId} {b b' : MyButton} {levels : PinLevels}
    {o : Option MyButtonEvent} (h : buttonStep id b levels = some (b', o)) :
    SameWiring b b' ∧ ∃ e, o = gated b e ∧
      (Pressed b levels → ∃ j, e = scanEvent b.holdCycPeriod.toNat j) := by
  by_cases hp : Pressed b levels
  · obtain ⟨ho, -, hw⟩ := buttonStep_pressed_eq_some hp h
    exact ⟨hw, _, ho, fun _ => ⟨_, rfl⟩⟩
  · obtain ⟨c, hc, -, hw⟩ := buttonStep_released id hp
    obtain ⟨rfl, rfl⟩ := Prod.mk.inj (Option.some.inj (h.symm.trans hc))
    exact ⟨hw, _, rfl, fun hp' => absurd hp' hp⟩

/-! ## Pressed passes in a row -/

/-- The callbacks of pressed passes in a row, as long as the counter does not wrap: one `scanEvent`
for each count passed. -/
theorem run_pressed (id : ButtonId) {b : MyButton} {ls : List PinLevels}
    (hls : ∀ l ∈ ls, Pressed b l) (hlt : b.cnt.toNat + ls.length < 65536)
    (hok : PeriodOk b ∨ b.cnt.toNat + ls.length ≤ 35) :
    ∃ b', Mealy.run (buttonStep id) b ls =
        some (b', (List.range' (b.cnt.toNat + 1) ls.length).map
          fun j => gated b (scanEvent b.holdCycPeriod.toNat j)) ∧
      b'.cnt.toNat = b.cnt.toNat + ls.length ∧ SameWiring b b' := by
  induction ls generalizing b with
  | nil => exact ⟨b, rfl, rfl, SameWiring.refl b⟩
  | cons l ls ih =>
    rw [List.length_cons] at hlt hok
    obtain ⟨b₁, hstep, hcnt, hw⟩ := buttonStep_pressed id (hls l List.mem_cons_self)
      (j := b.cnt.toNat + 1) (by omega) (hok.imp_right fun h => by omega)
    have hls' : ∀ l' ∈ ls, Pressed b₁ l' := fun l' hl' =>
      (hw.pressed_iff l').mpr (hls l' (List.mem_cons_of_mem _ hl'))
    obtain ⟨b₂, hrun, hcnt₂, hw₂⟩ := ih hls' (by omega)
      (hok.imp hw.periodOk_iff.mpr fun h => by omega)
    refine ⟨b₂, ?_, by rw [hcnt₂, hcnt, List.length_cons]; omega, hw.trans hw₂⟩
    refine Mealy.run_cons_eq_some.mpr ⟨b₁, _, _, hstep, hrun, ?_⟩
    rw [hcnt, hw.gated_eq, hw.period, List.length_cons, List.range'_succ, List.map_cons]

/-- With a period below the scan interval, defined pressed passes never take the counter past the
hold threshold. -/
theorem run_pressed_le (id : ButtonId) {b b' : MyButton} {ls : List PinLevels}
    {os : List (Option MyButtonEvent)} (hls : ∀ l ∈ ls, Pressed b l) (hbad : ¬ PeriodOk b)
    (hcnt : b.cnt.toNat ≤ 35) (h : Mealy.run (buttonStep id) b ls = some (b', os)) :
    b.cnt.toNat + ls.length ≤ 35 := by
  induction ls generalizing b os with
  | nil => exact hcnt
  | cons l ls ih =>
    obtain ⟨b₁, o, os', hstep, hrun, -⟩ := Mealy.run_cons_eq_some.mp h
    have hp := hls l List.mem_cons_self
    by_cases hlt : b.cnt.toNat < 35
    · obtain ⟨b₂, hstep₂, hcnt₂, hw⟩ := buttonStep_pressed id hp (j := b.cnt.toNat + 1)
        (by omega) (by omega)
      obtain rfl : b₁ = b₂ := (Prod.mk.inj (Option.some.inj (hstep.symm.trans hstep₂))).1
      have hls' : ∀ l' ∈ ls, Pressed b₁ l' := fun l' hl' =>
        (hw.pressed_iff l').mpr (hls l' (List.mem_cons_of_mem _ hl'))
      have := ih hls' (by rwa [hw.periodOk_iff]) (by omega) hrun
      rw [List.length_cons]
      omega
    · rw [buttonStep_pressed_undefined id hp hbad (by omega) (by omega)] at hstep
      exact absurd hstep (by simp)

/-! ## The events of a whole press -/

/-- The callbacks specified for a press of `n` passes and its release. -/
def PressEvents (n : ℕ) (evs : List MyButtonEvent) : Prop :=
  if n < downScans then evs = []
  else if n < holdScans then evs = [.clickDown, .clickUp]
  else ∃ k, evs = .clickDown :: .hold :: (List.replicate k .holdCyc ++ [.holdUp])

/-- A press of one scan is none. -/
theorem PressEvents.of_short {n : ℕ} (hn : n < 2) {evs : List MyButtonEvent} :
    PressEvents n evs ↔ evs = [] := by
  rw [PressEvents, downScans_eq, if_pos hn]

/-- A short press is a click. -/
theorem PressEvents.of_click {n : ℕ} (h2 : 2 ≤ n) (h35 : n < 35) {evs : List MyButtonEvent} :
    PressEvents n evs ↔ evs = [.clickDown, .clickUp] := by
  rw [PressEvents, downScans_eq, holdScans_eq, if_neg (by omega), if_pos h35]

/-- A long press goes down, is held, and comes up, with cyclic events in between. -/
theorem PressEvents.of_hold {n : ℕ} (h35 : 35 ≤ n) {evs : List MyButtonEvent} :
    PressEvents n evs ↔
      ∃ k, evs = .clickDown :: .hold :: (List.replicate k .holdCyc ++ [.holdUp]) := by
  rw [PressEvents, downScans_eq, holdScans_eq, if_neg (by omega), if_neg (by omega)]

/-- Up to the hold threshold the period plays no part. -/
theorem scanEvent_of_le {p j : ℕ} (hj : j ≤ 35) : scanEvent p j = scanEvent 0 j := by
  have hgt : ¬ 35 < j := by omega
  simp only [scanEvent, hgt, false_and]

/-- Up to the hold the period does not matter. -/
theorem scanEvents_of_le (p : ℕ) {n : ℕ} (hn : n ≤ 35) :
    (List.range' 1 n).map (scanEvent p) = (List.range' 1 n).map (scanEvent 0) := by
  refine List.map_congr_left fun j hj => scanEvent_of_le ?_
  rw [List.mem_range'_1] at hj
  omega

/-- Beyond the hold threshold every event is a cyclic one. -/
theorem scanEvents_beyond_hold (p m : ℕ) :
    ∃ k, ((List.range' 36 m).map (scanEvent p)).reduceOption = List.replicate k .holdCyc := by
  refine ⟨_, List.eq_replicate_iff.mpr ⟨rfl, fun e he => ?_⟩⟩
  rw [List.reduceOption_mem_iff, List.mem_map] at he
  obtain ⟨j, hj, hje⟩ := he
  rw [List.mem_range'_1] at hj
  rw [scanEvent, if_neg (by omega), if_neg (by omega)] at hje
  split at hje
  · exact (Option.some.inj hje).symm
  · exact absurd hje (by simp)

/-- The events of `n` counts from `1`, in the three ranges of `n`. -/
theorem scanEvents_short (p : ℕ) {n : ℕ} (hn : n < 2) :
    ((List.range' 1 n).map (scanEvent p)).reduceOption = [] := by
  rw [scanEvents_of_le p (by omega)]
  revert n
  decide

/-- The scans of a short press have one event. -/
theorem scanEvents_click (p : ℕ) {n : ℕ} (h2 : 2 ≤ n) (h35 : n < 35) :
    ((List.range' 1 n).map (scanEvent p)).reduceOption = [.clickDown] := by
  rw [scanEvents_of_le p (by omega)]
  have hall : ∀ m < 35, 2 ≤ m →
      ((List.range' 1 m).map (scanEvent 0)).reduceOption = [.clickDown] := by decide
  exact hall n h35 h2

/-- Those of a long one have the hold behind it, and cyclic events only behind the hold. -/
theorem scanEvents_hold (p : ℕ) {n : ℕ} (h35 : 35 ≤ n) :
    ∃ k, ((List.range' 1 n).map (scanEvent p)).reduceOption =
      .clickDown :: .hold :: List.replicate k .holdCyc := by
  obtain ⟨m, rfl⟩ : ∃ m, n = 35 + m := ⟨n - 35, by omega⟩
  obtain ⟨k, hk⟩ := scanEvents_beyond_hold p m
  refine ⟨k, ?_⟩
  have hfirst : ((List.range' 1 35).map (scanEvent 0)).reduceOption = [.clickDown, .hold] := by
    decide
  rw [← List.range'_append_1, List.map_append, List.reduceOption_append,
    scanEvents_of_le p (Nat.le_refl 35), hfirst, hk]
  rfl

/-- A pressed pass never raises a release event. -/
theorem scanEvent_ne_holdUp (p j : ℕ) : scanEvent p j ≠ some .holdUp := by
  rw [scanEvent]
  split
  · simp
  · split
    · simp
    · split <;> simp

/-- The events of a press that stays below the counter's range are the specified ones. -/
theorem pressEvents_of_lt (p : ℕ) {n : ℕ} :
    PressEvents n ((List.range' 1 n).map (scanEvent p) ++ [releaseEvent n]).reduceOption := by
  rw [List.reduceOption_append]
  rcases Nat.lt_or_ge n 2 with h2 | h2
  · rw [PressEvents.of_short h2, scanEvents_short p h2, releaseEvent, if_neg (by omega),
      if_neg (by omega)]
    rfl
  rcases Nat.lt_or_ge n 35 with h35 | h35
  · rw [PressEvents.of_click h2 h35, scanEvents_click p h2 h35, releaseEvent, if_pos ⟨h2, h35⟩]
    rfl
  · obtain ⟨k, hk⟩ := scanEvents_hold p h35
    rw [PressEvents.of_hold h35, hk, releaseEvent, if_neg (by omega), if_pos h35]
    exact ⟨k, rfl⟩

/-- The passes of a press that is later released, seen by a button whose counter is clear. -/
theorem run_press (id : ButtonId) {b : MyButton} {ls : List PinLevels} {r : PinLevels}
    (hls : ∀ l ∈ ls, Pressed b l) (hr : ¬ Pressed b r) (hb : b.cnt.toNat = 0)
    (hlt : ls.length < 65536) (hok : PeriodOk b ∨ ls.length ≤ 35) :
    ∃ b', Mealy.run (buttonStep id) b (ls ++ [r]) =
        some (b', ((List.range' 1 ls.length).map (scanEvent b.holdCycPeriod.toNat) ++
          [releaseEvent ls.length]).map (gated b)) ∧
      b'.cnt.toNat = 0 ∧ SameWiring b b' := by
  obtain ⟨b₁, hrun, hcnt, hw⟩ := run_pressed id hls (by omega)
    (hok.imp_right fun h => by omega)
  obtain ⟨b₂, hstep, hcnt₂, hw₂⟩ := buttonStep_released id
    ((hw.pressed_iff r).not.mpr hr)
  refine ⟨b₂, Mealy.run_append_eq_some.mpr ⟨b₁, _, [gated b₁ (releaseEvent b₁.cnt.toNat)], hrun, ?_, ?_⟩,
    hcnt₂, hw.trans hw₂⟩
  · exact Mealy.run_cons_eq_some.mpr ⟨b₂, _, [], hstep, rfl, rfl⟩
  · rw [List.map_append, List.map_map, hb, hcnt, hb, Nat.zero_add, Nat.zero_add, hw.gated_eq]
    rfl

/-- The condition under which a press of `n` passes raises the specified events. -/
def PressOk (b : MyButton) (n : ℕ) : Prop :=
  n < 2 ∨ (b.cb ≠ none ∧ n < 65536)

/-- Without a callback there are no events. -/
theorem run_reduceOption_of_cb_none (id : ButtonId) {b b' : MyButton} {ls : List PinLevels}
    {os : List (Option MyButtonEvent)} (hcb : b.cb = none)
    (h : Mealy.run (buttonStep id) b ls = some (b', os)) : os.reduceOption = [] := by
  induction ls generalizing b os with
  | nil =>
    simp only [Mealy.run, Option.some.injEq, Prod.mk.injEq] at h
    rw [← h.2]
    rfl
  | cons l ls ih =>
    obtain ⟨b₁, o, os', hstep, hrun, rfl⟩ := Mealy.run_cons_eq_some.mp h
    obtain ⟨hw, e, rfl, -⟩ := buttonStep_output hstep
    rw [gated, if_neg (by simp [hcb]), List.reduceOption_cons_of_none]
    exact ih (hw.cb.trans hcb) hrun

/-- With a callback every event is called back. -/
theorem map_gated_of_some {b : MyButton} (hcb : b.cb ≠ none) (es : List (Option MyButtonEvent)) :
    es.map (gated b) = es := by
  have hid : gated b = id := by
    funext e
    rw [gated, if_pos hcb, id]
  rw [hid, List.map_id]

/-- A press that is noticed has events. -/
theorem PressEvents.ne_nil {n : ℕ} (h : PressEvents n []) (hn : 2 ≤ n) : False := by
  revert h
  rcases Nat.lt_or_ge n 35 with h35 | h35
  · rw [PressEvents.of_click hn h35]
    simp
  · rw [PressEvents.of_hold h35]
    simp

/-- A hold contains exactly one press event and the release event. -/
theorem PressEvents.hold_counts {n : ℕ} (h35 : 35 ≤ n) {evs : List MyButtonEvent}
    (h : PressEvents n evs) : evs.count .clickDown = 1 ∧ .holdUp ∈ evs := by
  obtain ⟨k, rfl⟩ := (PressEvents.of_hold h35).mp h
  refine ⟨?_, by simp⟩
  simp [List.count_append, List.count_replicate]

/-- Pressed passes raise no release event. -/
theorem holdUp_notMem_run_pressed (id : ButtonId) {b b' : MyButton} {ls : List PinLevels}
    {os : List (Option MyButtonEvent)} (hls : ∀ l ∈ ls, Pressed b l)
    (h : Mealy.run (buttonStep id) b ls = some (b', os)) : .holdUp ∉ os.reduceOption := by
  induction ls generalizing b os with
  | nil =>
    simp only [Mealy.run, Option.some.injEq, Prod.mk.injEq] at h
    rw [← h.2]
    simp
  | cons l ls ih =>
    obtain ⟨b₁, o, os', hstep, hrun, rfl⟩ := Mealy.run_cons_eq_some.mp h
    obtain ⟨hw, e, rfl, hscan⟩ := buttonStep_output hstep
    obtain ⟨j, rfl⟩ := hscan (hls l List.mem_cons_self)
    have hls' : ∀ l' ∈ ls, Pressed b₁ l' := fun l' hl' =>
      (hw.pressed_iff l').mpr (hls l' (List.mem_cons_of_mem _ hl'))
    have ho : gated b (scanEvent b.holdCycPeriod.toNat j) ≠ some .holdUp := by
      rw [gated]
      split
      · exact scanEvent_ne_holdUp _ _
      · simp
    have hrest := ih hls' hrun
    rw [List.reduceOption_mem_iff] at hrest ⊢
    rw [List.mem_cons, not_or]
    exact ⟨fun he => ho he.symm, hrest⟩

/-- Two pressed passes from a cleared counter on report a click. -/
theorem clickDown_mem_pressed {b : MyButton} (hcb : b.cb ≠ none) (hcnt : b.cnt.toNat = 0) {n : ℕ}
    (hn : 2 ≤ n) : .clickDown ∈ ((List.range' (b.cnt.toNat + 1) n).map
      fun j => gated b (scanEvent b.holdCycPeriod.toNat j)).reduceOption := by
  rw [List.reduceOption_mem_iff, List.mem_map]
  refine ⟨2, by rw [List.mem_range'_1, hcnt]; omega, ?_⟩
  rw [gated, if_pos hcb]
  rfl

/-- A press of `2 ^ 16` passes or more goes round the counter: either the click is reported a second
time or the end of the hold is not reported. -/
theorem not_pressEvents_of_long (id : ButtonId) {b b' : MyButton} {ls : List PinLevels}
    {r : PinLevels} {os : List (Option MyButtonEvent)} (hls : ∀ l ∈ ls, Pressed b l)
    (hr : ¬ Pressed b r) (hb : b.cnt.toNat = 0) (hper : PeriodOk b) (hcb : b.cb ≠ none)
    (hlong : 65536 ≤ ls.length)
    (h : Mealy.run (buttonStep id) b (ls ++ [r]) = some (b', os)) :
    ¬ PressEvents ls.length os.reduceOption := by
  intro hev
  obtain ⟨hcount, hup⟩ := hev.hold_counts (by omega)
  -- the press, cut after the pass that takes the counter round to zero
  obtain ⟨l₁, l₂, rfl, hlen⟩ : ∃ l₁ l₂, ls = l₁ ++ l₂ ∧ l₁.length = 65535 :=
    ⟨ls.take 65535, ls.drop 65535, (List.take_append_drop _ _).symm, by
      rw [List.length_take]; omega⟩
  obtain ⟨x, l₃, rfl⟩ : ∃ x l₃, l₂ = x :: l₃ := by
    cases l₂ with
    | nil => rw [List.append_nil] at hlong; omega
    | cons x l₃ => exact ⟨x, l₃, rfl⟩
  have hmem₁ : ∀ l ∈ l₁, Pressed b l := fun l hl => hls l (by simp [hl])
  obtain ⟨b₁, hrun₁, hcnt₁, hw₁⟩ := run_pressed id hmem₁ (by omega) (Or.inl hper)
  obtain ⟨b₂, hstep₂, hcnt₂, hw₂⟩ := buttonStep_pressed id
    (b := b₁) ((hw₁.pressed_iff x).mpr (hls x (by simp))) (j := 0) (by omega)
    (Or.inl (hw₁.periodOk_iff.mpr hper))
  have hw := hw₁.trans hw₂
  have hmem₃ : ∀ l ∈ l₃, Pressed b₂ l := fun l hl => (hw.pressed_iff l).mpr (hls l (by simp [hl]))
  rw [List.append_assoc, List.cons_append, Mealy.run_append_eq_some] at h
  obtain ⟨m, os₁, os₂, hm, hround, rfl⟩ := h
  obtain ⟨rfl, rfl⟩ := Prod.mk.inj (Option.some.inj (hrun₁.symm.trans hm))
  obtain ⟨m, o, os₃, hm, hrest, rfl⟩ := Mealy.run_cons_eq_some.mp hround
  obtain ⟨rfl, rfl⟩ := Prod.mk.inj (Option.some.inj (hstep₂.symm.trans hm))
  have hdown₁ := clickDown_mem_pressed hcb hb (n := l₁.length) (by omega)
  have hup₁ := holdUp_notMem_run_pressed id hmem₁ hrun₁
  -- the pass at which the counter is zero again raises no event
  have ho : gated b₁ (scanEvent b₁.holdCycPeriod.toNat 0) = none := by
    rw [show scanEvent b₁.holdCycPeriod.toNat 0 = none from rfl, gated_none]
  rw [ho, List.reduceOption_append, List.reduceOption_cons_of_none] at hcount hup
  rcases Nat.lt_or_ge l₃.length 2 with hshort | htwo
  · -- the release comes before the counter reaches the click threshold again
    obtain ⟨b₃, hrun₃, -, -⟩ := run_press id hmem₃ ((hw.pressed_iff r).not.mpr hr) hcnt₂
      (by omega) (Or.inr (by omega))
    obtain ⟨-, rfl⟩ := Prod.mk.inj (Option.some.inj (hrest.symm.trans hrun₃))
    rw [map_gated_of_some (by rw [hw.cb]; exact hcb)] at hup
    have hnil := (PressEvents.of_short hshort).mp
      (pressEvents_of_lt b₂.holdCycPeriod.toNat (n := l₃.length))
    rw [hnil, List.append_nil] at hup
    exact hup₁ hup
  · -- the click threshold is met a second time
    obtain ⟨y₁, y₂, l₄, rfl⟩ : ∃ y₁ y₂ l₄, l₃ = y₁ :: y₂ :: l₄ := by
      match l₃, htwo with
      | y₁ :: y₂ :: l₄, _ => exact ⟨y₁, y₂, l₄, rfl⟩
    rw [show y₁ :: y₂ :: l₄ ++ [r] = [y₁, y₂] ++ (l₄ ++ [r]) from rfl,
      Mealy.run_append_eq_some] at hrest
    obtain ⟨m, os₄, os₅, hm, -, rfl⟩ := hrest
    have hmem₄ : ∀ l ∈ [y₁, y₂], Pressed b₂ l := fun l hl =>
      hmem₃ l (List.mem_append_left l₄ hl)
    obtain ⟨b₃, hrun₃, -, -⟩ := run_pressed id hmem₄
      (by rw [hcnt₂]; simp) (Or.inr (by rw [hcnt₂]; simp))
    obtain ⟨-, rfl⟩ := Prod.mk.inj (Option.some.inj (hm.symm.trans hrun₃))
    have hdown₂ := clickDown_mem_pressed (by rw [hw.cb]; exact hcb) hcnt₂
      (n := [y₁, y₂].length) (by simp)
    have hc₁ := List.count_pos_iff.mpr hdown₁
    have hc₂ := List.count_pos_iff.mpr hdown₂
    rw [List.reduceOption_append, List.count_append, List.count_append] at hcount
    omega

/-- **One press.** When the passes of a press are defined at all, its callbacks are the specified
ones exactly under `PressOk`. -/
theorem press_events_iff (id : ButtonId) {b b' : MyButton} {ls : List PinLevels} {r : PinLevels}
    {os : List (Option MyButtonEvent)} (hls : ∀ l ∈ ls, Pressed b l) (hr : ¬ Pressed b r)
    (hb : b.cnt.toNat = 0) (h : Mealy.run (buttonStep id) b (ls ++ [r]) = some (b', os)) :
    PressEvents ls.length os.reduceOption ↔ PressOk b ls.length := by
  by_cases hcb : b.cb = none
  · rw [run_reduceOption_of_cb_none id hcb h, PressOk]
    constructor
    · intro hev
      exact Or.inl (Nat.lt_of_not_le fun h2 => hev.ne_nil h2)
    · rintro (h2 | ⟨hne, -⟩)
      · exact (PressEvents.of_short h2).mpr rfl
      · exact absurd hcb hne
  have hok : PeriodOk b ∨ ls.length ≤ 35 := by
    by_cases hper : PeriodOk b
    · exact Or.inl hper
    · obtain ⟨m, os₁, -, hm, -, -⟩ := Mealy.run_append_eq_some.mp h
      have := run_pressed_le id hls hper (by omega) hm
      exact Or.inr (by omega)
  by_cases hlt : ls.length < 65536
  · obtain ⟨b₁, hrun, -, -⟩ := run_press id hls hr hb hlt hok
    obtain ⟨-, rfl⟩ := Prod.mk.inj (Option.some.inj (h.symm.trans hrun))
    rw [map_gated_of_some hcb]
    exact iff_of_true (pressEvents_of_lt _) (Or.inr ⟨hcb, hlt⟩)
  · have hper : PeriodOk b := hok.resolve_right (by omega)
    exact iff_of_false (not_pressEvents_of_long id hls hr hb hper hcb (by omega) h)
      (by rw [PressOk]; omega)

end Stm32Board.Button
