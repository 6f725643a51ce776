import Stm32Board.Button.Scan
import Mathlib.Order.Nat

/-!
# The cyclic callback of a hold

Reference: the `HOLD_CYC` branch of `my_button_scan` in `componet_library/button/button.c`.

After the hold threshold a button with period `p` is to report `HOLD_CYC` every `p/20` scans until it
is released. The scan tests the 16-bit count of the press for a multiple of `p/20`: with a period below
20 the remainder is one by zero, and a count that goes round misses the multiples after it
(`myButtonScan_cyclic_iff`).
-/

namespace Stm32Board.Button

open Common

/-! ## Multiples on a 16-bit count -/

/-- The count `c` of a press is one at which a cyclic callback is due. -/
def CycleDue (q c : ℕ) : Prop := 35 < c ∧ c % q = 0

/-- Beyond scan 35, the scans up to `n` with `S` are `first`, `first + q`, `first + 2 * q` and so on,
the first of them at most `q` scans later. -/
def EveryAfterHold (q n : ℕ) (S : ℕ → Prop) : Prop :=
  ∃ first, 35 < first ∧ first ≤ 35 + q ∧
    ∀ j, 35 < j → j ≤ n → (S j ↔ first ≤ j ∧ q ∣ j - first)

/-- Only the scans behind the hold matter. -/
theorem everyAfterHold_congr {q n : ℕ} {S T : ℕ → Prop}
    (h : ∀ j, 35 < j → j ≤ n → (S j ↔ T j)) : EveryAfterHold q n S ↔ EveryAfterHold q n T := by
  refine exists_congr fun first => and_congr_right fun _ => and_congr_right fun _ => ?_
  refine forall_congr' fun j => forall_congr' fun hj => forall_congr' fun hn => ?_
  rw [h j hj hn]

/-- The first multiple of `q` that a 16-bit count does not reach. -/
def firstMissed (q : ℕ) : ℕ := q * (65535 / q + 1)

/-- The first one missed lies within a period of the wrap. -/
theorem firstMissed_bounds {q : ℕ} (hq : 0 < q) :
    65536 ≤ firstMissed q ∧ firstMissed q < 65536 + q := by
  have hdiv := Nat.div_add_mod 65535 q
  have hmod := Nat.mod_lt 65535 hq
  rw [firstMissed, Nat.mul_add, Nat.mul_one]
  omega

/-- Before the first multiple that is missed, a callback is due at the multiples of `q`: the scans
beyond the round have counts below `q`, and none of them is a multiple. -/
theorem cycleDue_count_iff {q j : ℕ} (hq : 0 < q) (hmax : q < 65500) (hj : 35 < j)
    (hlt : j < firstMissed q) : CycleDue q (j % 65536) ↔ q ∣ j := by
  obtain ⟨hlow, hhigh⟩ := firstMissed_bounds hq
  rw [CycleDue]
  by_cases hround : j < 65536
  · rw [Nat.mod_eq_of_lt hround, and_iff_right hj, Nat.dvd_iff_mod_eq_zero]
  · have hcount : j % 65536 = j - 65536 := by omega
    rw [hcount, Nat.mod_eq_of_lt (show j - 65536 < q by omega)]
    refine iff_of_false (fun h => ?_) ?_
    · have hpos := h.1
      have hzero := h.2
      omega
    · rintro ⟨k, rfl⟩
      have hk : k < 65535 / q + 1 := Nat.lt_of_mul_lt_mul_left hlt
      have hle := Nat.mul_le_mul_left q (Nat.le_of_lt_succ hk)
      have hdiv := Nat.mul_div_le 65535 q
      omega

/-- The first multiple that is missed has a count below `q`. -/
theorem not_cycleDue_firstMissed {q : ℕ} (hq : 0 < q) (hmax : q < 65500) :
    ¬CycleDue q (firstMissed q % 65536) := by
  obtain ⟨hlow, hhigh⟩ := firstMissed_bounds hq
  have hcount : firstMissed q % 65536 = firstMissed q - 65536 := by omega
  rw [CycleDue, hcount, Nat.mod_eq_of_lt (show firstMissed q - 65536 < q by omega)]
  rintro ⟨hpos, hzero⟩
  omega

/-- A count that goes round at `2 ^ 16` meets the multiples of `q` up to the first one beyond. -/
theorem everyAfterHold_iff {q : ℕ} (hq : 0 < q) (hmax : q < 65500) (n : ℕ) :
    EveryAfterHold q n (fun j => CycleDue q (j % 65536)) ↔ n < firstMissed q := by
  obtain ⟨hlow, hhigh⟩ := firstMissed_bounds hq
  constructor
  · rintro ⟨first, hfirst, hle, hS⟩
    by_contra hn
    have hdue : CycleDue q (first % 65536) := (hS first hfirst (by omega)).mpr
      ⟨le_rfl, by rw [Nat.sub_self]; exact Nat.dvd_zero q⟩
    have hdvd : q ∣ first := (cycleDue_count_iff hq hmax hfirst (by omega)).mp hdue
    refine not_cycleDue_firstMissed hq hmax ((hS (firstMissed q) (by omega) (by omega)).mpr
      ⟨by omega, Nat.dvd_sub (Nat.dvd_mul_right q _) hdvd⟩)
  · intro hn
    have hdiv := Nat.div_add_mod 35 q
    have hmod := Nat.mod_lt 35 hq
    refine ⟨q * (35 / q + 1), ?_, ?_, fun j hj hjn => ?_⟩
    · rw [Nat.mul_add, Nat.mul_one]
      omega
    · rw [Nat.mul_add, Nat.mul_one]
      omega
    · have hcount := cycleDue_count_iff hq hmax hj (hjn.trans_lt hn)
      constructor
      · intro hdue
        obtain ⟨k, rfl⟩ := hcount.mp hdue
        have hk : 35 / q < k := by
          rw [Nat.div_lt_iff_lt_mul hq, Nat.mul_comm]
          exact hj
        exact ⟨Nat.mul_le_mul_left q hk, by rw [← Nat.mul_sub]; exact Nat.dvd_mul_right q _⟩
      · rintro ⟨hge, hdvd⟩
        exact hcount.mpr ((Nat.dvd_sub_iff_left hge (Nat.dvd_mul_right q _)).mp hdvd)

/-! ## The callbacks of a press -/

/-- The passes `ls` from the start of a press of `b` on, whether or not the press ends with them. -/
structure HeldAt (b : MyButton) (scans pre ls post : List PinLevels) : Prop where
  split : scans = pre ++ ls ++ post
  pressed : ∀ l ∈ ls, Pressed b l
  maximal : ∀ l ∈ pre.getLast?, ¬ Pressed b l

/-- Pass `j` of a press, counted from 1, made the cyclic callback. -/
def CycCalled (evs : List (List MyButtonEvent)) (j : ℕ) : Prop := .holdCyc ∈ evs.getD (j - 1) []

/-- The cyclic callbacks in `n` passes of a press are those of the period `p`. -/
structure CyclicCalls (p n : ℕ) (evs : List (List MyButtonEvent)) : Prop where
  without : p = 0 → ∀ j, ¬CycCalled evs j
  every : myButtonScanSpaceMs.toNat ≤ p →
    EveryAfterHold (p / myButtonScanSpaceMs.toNat) n (CycCalled evs)

/-- A cyclic event is due at the multiples of the period. -/
theorem scanEvent_eq_holdCyc_iff (p j : ℕ) :
    scanEvent p j = some .holdCyc ↔ p ≠ 0 ∧ CycleDue (p / 20) j := by
  rw [scanEvent, CycleDue]
  by_cases h2 : j = 2
  · simp [h2]
  by_cases h35 : j = 35
  · simp [h35]
  rw [if_neg h2, if_neg h35]
  constructor
  · intro h
    split at h
    · rename_i hdue
      exact ⟨hdue.2.1, hdue.1, hdue.2.2⟩
    · exact absurd h (by simp)
  · rintro ⟨hp, hpos, hzero⟩
    rw [if_pos ⟨hpos, hp, hzero⟩]

/-- The callbacks of pressed passes in a row, on a count that goes round. -/
theorem run_pressed_outputs (id : ButtonId) {b b' : MyButton} {ls : List PinLevels}
    {os : List (Option MyButtonEvent)} (hls : ∀ l ∈ ls, Pressed b l)
    (h : Mealy.run (buttonStep id) b ls = some (b', os)) :
    os = (List.range ls.length).map fun k =>
      gated b (scanEvent b.holdCycPeriod.toNat ((b.cnt.toNat + (k + 1)) % 65536)) := by
  induction ls generalizing b os with
  | nil =>
    simp only [Mealy.run, Option.some.injEq, Prod.mk.injEq] at h
    exact h.2.symm
  | cons l ls ih =>
    obtain ⟨b₁, o, os', hstep, hrun, rfl⟩ := Mealy.run_cons_eq_some.mp h
    obtain ⟨ho, hcnt, hw⟩ := buttonStep_pressed_eq_some (hls l List.mem_cons_self) hstep
    have hrest := ih (fun l' hl' => (hw.pressed_iff l').mpr (hls l' (List.mem_cons_of_mem _ hl')))
      hrun
    rw [List.length_cons, List.range_succ_eq_map, List.map_cons, List.map_map, ho, hrest]
    refine congrArg _ (List.map_congr_left fun k _ => ?_)
    have hcount : (b₁.cnt.toNat + (k + 1)) % 65536 = (b.cnt.toNat + (k + 1 + 1)) % 65536 := by
      rw [hcnt]
      omega
    rw [hw.gated_eq, hw.period, hcount]
    rfl

/-- The callbacks of a press inside a trace. -/
theorem callbacks_held {m m' : ButtonManage} {scans : List PinLevels}
    {outs : List (List (ButtonId × Option MyButtonEvent))} (hnodup : m.buttonList.Nodup)
    (h : Mealy.run myButtonScan m scans = some (m', outs)) {id : ButtonId}
    (hid : id ∈ m.buttonList) (hb : (m.objects id).cnt = 0) {pre ls post : List PinLevels}
    (hheld : HeldAt (m.objects id) scans pre ls post) :
    ((outs.drop pre.length).take ls.length).map (callbacksOf id) =
      (List.range ls.length).map fun k => [gated (m.objects id)
        (scanEvent (m.objects id).holdCycPeriod.toNat ((k + 1) % 65536))].reduceOption := by
  obtain ⟨os, hos, houts⟩ := run_button hnodup h hid
  rw [hheld.split, List.append_assoc] at hos
  obtain ⟨b₁, os₁, os₂, hpre, hrest, rfl⟩ := Mealy.run_append_eq_some.mp hos
  obtain ⟨b₂, os₃, os₄, hpress, -, rfl⟩ := Mealy.run_append_eq_some.mp hrest
  have hw := run_button_sameWiring id hpre
  have hzero := cnt_eq_zero_of_getLast id hb hheld.maximal hpre
  have hlen₁ := Mealy.length_of_run hpre
  have hlen₃ := Mealy.length_of_run hpress
  have hpressed := run_pressed_outputs id
    (fun l hl => (hw.pressed_iff l).mpr (hheld.pressed l hl)) hpress
  have hseg : ((os₁ ++ (os₃ ++ os₄)).drop pre.length).take ls.length = os₃ := by
    rw [← hlen₁, List.drop_left, ← hlen₃, List.take_left]
  rw [List.map_take, List.map_drop, houts, ← List.map_drop, ← List.map_take, hseg, hpressed,
    List.map_map]
  refine List.map_congr_left fun k _ => ?_
  rw [Function.comp_apply, hw.gated_eq, hw.period, hzero, Nat.zero_add]

/-- A press with a callback has the cyclic callbacks of its period exactly when it ends before the
first multiple that the count misses. -/
theorem cyclicCalls_iff {b : MyButton} (hcb : b.cb ≠ none) (n : ℕ) :
    CyclicCalls b.holdCycPeriod.toNat n ((List.range n).map fun k =>
        [gated b (scanEvent b.holdCycPeriod.toNat ((k + 1) % 65536))].reduceOption) ↔
      (20 ≤ b.holdCycPeriod.toNat → n < firstMissed (b.holdCycPeriod.toNat / 20)) := by
  have hmax := b.holdCycPeriod.toNat_lt
  generalize b.holdCycPeriod.toNat = p at hmax ⊢
  -- a scan calls back exactly when the count it has reached, modulo its 16 bits, is due
  have hcalled : ∀ j, CycCalled ((List.range n).map fun k =>
      [gated b (scanEvent p ((k + 1) % 65536))].reduceOption) j ↔
        j - 1 < n ∧ p ≠ 0 ∧ CycleDue (p / 20) ((j - 1 + 1) % 65536) := by
    intro j
    rw [CycCalled, List.getD_eq_getElem?_getD, List.getElem?_map]
    by_cases hj : j - 1 < n
    · rw [List.getElem?_range hj, ← scanEvent_eq_holdCyc_iff, and_iff_right hj]
      show _ ∈ [gated b (scanEvent p ((j - 1 + 1) % 65536))].reduceOption ↔ _
      rw [gated, if_pos hcb, List.reduceOption_mem_iff, List.mem_singleton, eq_comm]
    · rw [List.getElem?_eq_none (by rw [List.length_range]; omega)]
      exact iff_of_false List.not_mem_nil fun h => hj h.1
  constructor
  · intro h hp
    rw [← everyAfterHold_iff (by omega) (by omega)]
    refine (everyAfterHold_congr fun j hj hn => ?_).mp (h.every hp)
    rw [hcalled, show j - 1 + 1 = j by omega]
    exact ⟨fun h => h.2.2, fun h => ⟨by omega, by omega, h⟩⟩
  · intro h
    refine ⟨fun hp j hcall => ((hcalled j).mp hcall).2.1 hp, fun hp => ?_⟩
    have hq : 0 < p / 20 := by
      have hp' : 20 ≤ p := hp
      omega
    refine (everyAfterHold_congr fun j hj hn => ?_).mpr
      ((everyAfterHold_iff hq (by omega) n).mpr (h hp))
    rw [hcalled, show j - 1 + 1 = j by omega]
    exact ⟨fun h => h.2.2, fun h => ⟨by omega, fun h₀ => by rw [h₀] at hq; omega, h⟩⟩

/-! ## The contract of the cyclic callback -/

/-- A trace is defined, and every press of a button with a callback has its cyclic callbacks. -/
def CyclicContract (m : ButtonManage) (scans : List PinLevels) : Prop :=
  ∃ m' outs, Mealy.run myButtonScan m scans = some (m', outs) ∧
    ∀ id ∈ m.buttonList, (m.objects id).cb ≠ none →
      ∀ pre ls post, HeldAt (m.objects id) scans pre ls post →
        CyclicCalls (m.objects id).holdCycPeriod.toNat ls.length
          (((outs.drop pre.length).take ls.length).map (callbacksOf id))

/-- No press is held past the hold threshold with a period below the scan interval, and with another
period none lasts until a multiple that the count misses. -/
structure HoldsFit (b : MyButton) (scans : List PinLevels) : Prop where
  noShortPeriodHold : NoShortPeriodHold b scans
  holds : b.cb ≠ none → 20 ≤ b.holdCycPeriod.toNat →
    ∀ pre ls post, HeldAt b scans pre ls post → ls.length < firstMissed (b.holdCycPeriod.toNat / 20)

/-- The contract is one for each button. -/
theorem cyclicContract_iff {m : ButtonManage} (hnodup : m.buttonList.Nodup)
    (hcnt : ∀ id ∈ m.buttonList, (m.objects id).cnt = 0) (scans : List PinLevels) :
    CyclicContract m scans ↔ ∀ id ∈ m.buttonList, HoldsFit (m.objects id) scans := by
  constructor
  · rintro ⟨m', outs, hrun, hcalls⟩ id hid
    refine ⟨(run_myButtonScan_isSome_iff hnodup hcnt scans).mp (by rw [hrun]; rfl) id hid, ?_⟩
    intro hcb hp pre ls post hheld
    have hcyclic := hcalls id hid hcb pre ls post hheld
    rw [callbacks_held hnodup hrun hid (hcnt id hid) hheld] at hcyclic
    exact (cyclicCalls_iff hcb ls.length).mp hcyclic hp
  · intro hfit
    obtain ⟨⟨m', outs⟩, hrun⟩ := Option.isSome_iff_exists.mp
      ((run_myButtonScan_isSome_iff hnodup hcnt scans).mpr fun id hid =>
        (hfit id hid).noShortPeriodHold)
    refine ⟨m', outs, hrun, fun id hid hcb pre ls post hheld => ?_⟩
    rw [callbacks_held hnodup hrun hid (hcnt id hid) hheld]
    exact (cyclicCalls_iff hcb ls.length).mpr fun hp => (hfit id hid).holds hcb hp pre ls post hheld

/-- **The cyclic callback.** For buttons registered once each, with any periods, a trace of any length
and with any pin levels never divides by zero and has the cyclic callbacks of every press exactly when
no button with a period of 1 to 19 is held past the hold threshold and no other press lasts until the
first multiple of its `p/20` that a 16-bit count does not reach. -/
theorem myButtonScan_cyclic_iff {m₀ m : ButtonManage} {ids : List ButtonId}
    (hempty : m₀.buttonList = []) (hnodup : ids.Nodup) (hreg : registerAll m₀ ids = some m)
    (scans : List PinLevels) :
    CyclicContract m scans ↔ ∀ id ∈ ids, HoldsFit (m.objects id) scans := by
  obtain ⟨hlist, hcnt, -⟩ := registerAll_eq_some hnodup hreg
  rw [hempty, List.nil_append] at hlist
  rw [← hlist] at hnodup hcnt ⊢
  exact cyclicContract_iff hnodup hcnt scans

/-- The keys of `key_fun`, with a period of 100 ms, are held for 60 passes and let go: past the hold
threshold a callback is due every fifth pass. -/
theorem myButtonScan_cyclic_keyFun :
    CyclicContract keyFunRegistered (List.replicate 60 (fun _ => 0) ++ [fun _ => 1]) ↔
      ∀ id ∈ [1, 2], HoldsFit (keyFunRegistered.objects id)
        (List.replicate 60 (fun _ => 0) ++ [fun _ => 1]) :=
  myButtonScan_cyclic_iff (show keyFunManage.buttonList = [] from rfl) (by decide) rfl _

/-- One button with a period of 10 ms. -/
def shortPeriodManage : ButtonManage where
  objects _ :=
    { pressLogicLevel := 0, cnt := 0, holdCycPeriod := 10, pin := 19, event := .none, cb := some 1 }
  pinMode _ := none
  buttonList := [1]

/-- The button with a period of 10 ms held for 36 passes, and the keys of `key_fun`, with a period of
100 ms, held for 65540. -/
theorem not_cyclicContract_long_holds :
    ¬CyclicContract shortPeriodManage (List.replicate 36 fun _ => 0) ∧
      ¬CyclicContract keyFunRegistered (List.replicate 65540 fun _ => 0) := by
  constructor
  · rw [cyclicContract_iff (by decide) (by decide)]
    intro h
    rcases (h 1 (by decide)).noShortPeriodHold with hper | hshort
    · exact absurd hper (by decide)
    · have hlen := hshort [] (List.replicate 36 fun _ => 0) []
        (by rw [List.nil_append, List.append_nil])
        fun l hl => by rw [List.eq_of_mem_replicate hl]; decide
      rw [List.length_replicate] at hlen
      omega
  · rw [cyclicContract_iff (by decide) (by decide)]
    intro h
    have hlen := (h 1 (by decide)).holds (by decide) (by decide) []
      (List.replicate 65540 fun _ => 0) []
      { split := by rw [List.nil_append, List.append_nil]
        pressed := fun l hl => by rw [List.eq_of_mem_replicate hl]; decide
        maximal := by simp }
    rw [List.length_replicate] at hlen
    exact absurd hlen (by decide)

end Stm32Board.Button
