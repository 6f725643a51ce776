import Stm32Board.Button.Press

/-!
# Traces of `my_button_scan`

A trace is a list of pin levels, one for each run of the scan timer. The system of registered buttons
is a sweep of independent one-button machines, so a trace is analysed button by button: the trace is
cut at the releases of one button, and between two of them the press lemmas apply.
-/

namespace Stm32Board.Button

open Common

/-! ## Registration -/

/-- Register the given objects one after the other. -/
def registerAll (m : ButtonManage) (ids : List ButtonId) : Option ButtonManage :=
  ids.foldlM myButtonRegister m

/-- A button that is registered joins the list with a count of zero. -/
theorem myButtonRegister_eq_some {m m' : ButtonManage} {id : ButtonId}
    (h : myButtonRegister m id = some m') :
    m'.buttonList = m.buttonList ++ [id] ∧ (m'.objects id).cnt = 0 ∧
      ∀ j ≠ id, m'.objects j = m.objects j := by
  rw [myButtonRegister] at h
  split at h
  · obtain rfl := Option.some.inj h
    refine ⟨rfl, ?_, fun j hj => ?_⟩
    · simp only [Function.update_self]
    · simp only [Function.update_of_ne hj]
  · exact absurd h (by simp)

/-- Objects registered once each are listed in that order and start with a clear counter. -/
theorem registerAll_eq_some {m m' : ButtonManage} {ids : List ButtonId} (hnodup : ids.Nodup)
    (h : registerAll m ids = some m') :
    m'.buttonList = m.buttonList ++ ids ∧ (∀ id ∈ ids, (m'.objects id).cnt = 0) ∧
      ∀ j ∉ ids, m'.objects j = m.objects j := by
  induction ids generalizing m with
  | nil =>
    obtain rfl := Option.some.inj h
    simp
  | cons id ids ih =>
    obtain ⟨hid, hids⟩ := List.nodup_cons.mp hnodup
    rw [registerAll, List.foldlM_cons, Option.bind_eq_bind, Option.bind_eq_some_iff] at h
    obtain ⟨m₁, hreg, hrest⟩ := h
    obtain ⟨hlist, hcnt, hother⟩ := myButtonRegister_eq_some hreg
    obtain ⟨hlist', hcnt', hother'⟩ := ih hids hrest
    refine ⟨by rw [hlist', hlist, List.append_assoc]; rfl, ?_, ?_⟩
    · refine List.forall_mem_cons.mpr ⟨?_, hcnt'⟩
      rw [hother' id hid, hcnt]
    · intro j hj
      rw [List.mem_cons, not_or] at hj
      rw [hother' j hj.2, hother j hj.1]

/-! ## One button inside a trace -/

/-- Scanning is a sweep over the list, again and again. -/
theorem run_myButtonScan_eq_some {m m' : ButtonManage} {scans : List PinLevels}
    {outs : List (List (ButtonId × Option MyButtonEvent))} :
    Mealy.run myButtonScan m scans = some (m', outs) ↔
      ∃ objects, Mealy.run (Mealy.sweepStep buttonStep m.buttonList) m.objects scans =
          some (objects, outs) ∧ m' = { m with objects := objects } := by
  induction scans generalizing m outs with
  | nil =>
    simp only [Mealy.run, Option.some.injEq, Prod.mk.injEq]
    constructor
    · rintro ⟨rfl, rfl⟩
      exact ⟨m.objects, ⟨rfl, rfl⟩, rfl⟩
    · rintro ⟨objects, ⟨rfl, rfl⟩, rfl⟩
      exact ⟨rfl, rfl⟩
  | cons l ls ih =>
    rw [Mealy.run_cons_eq_some]
    constructor
    · rintro ⟨m₁, out, outs', hstep, hrun, rfl⟩
      rw [myButtonScan, Option.map_eq_some_iff] at hstep
      obtain ⟨⟨objs, out'⟩, hsweep, heq⟩ := hstep
      obtain ⟨rfl, rfl⟩ := Prod.mk.inj heq
      obtain ⟨objects, hrun', rfl⟩ := ih.mp hrun
      exact ⟨objects, Mealy.run_cons_eq_some.mpr ⟨objs, _, outs', hsweep, hrun', rfl⟩, rfl⟩
    · rintro ⟨objects, hrun, rfl⟩
      obtain ⟨objs, out, outs', hsweep, hrun', rfl⟩ := Mealy.run_cons_eq_some.mp hrun
      refine ⟨{ m with objects := objs }, out, outs', ?_, ih.mpr ⟨objects, hrun', rfl⟩, rfl⟩
      rw [myButtonScan, hsweep]
      rfl

/-- The callbacks made for button `id` in one pass. -/
def callbacksOf (id : ButtonId) (out : List (ButtonId × Option MyButtonEvent)) :
    List MyButtonEvent :=
  ((out.filter (·.1 = id)).map Prod.snd).reduceOption

/-- The passes of a trace, one button's view. -/
theorem run_button {m m' : ButtonManage} {scans : List PinLevels}
    {outs : List (List (ButtonId × Option MyButtonEvent))} (hnodup : m.buttonList.Nodup)
    (h : Mealy.run myButtonScan m scans = some (m', outs)) {id : ButtonId}
    (hid : id ∈ m.buttonList) :
    ∃ os, Mealy.run (buttonStep id) (m.objects id) scans = some (m'.objects id, os) ∧
      outs.map (callbacksOf id) = os.map fun o => [o].reduceOption := by
  obtain ⟨objects, hrun, rfl⟩ := run_myButtonScan_eq_some.mp h
  obtain ⟨os, hos, houts⟩ := Mealy.run_sweep_component hnodup hrun hid
  refine ⟨os, hos, ?_⟩
  have hcomp : outs.map (callbacksOf id) =
      (outs.map (·.filter (·.1 = id))).map fun c => (c.map Prod.snd).reduceOption := by
    rw [List.map_map]
    rfl
  rw [hcomp, houts, List.map_map]
  rfl

/-- The events of all scans in one list. -/
theorem flatten_map_reduceOption (os : List (Option MyButtonEvent)) :
    (os.map fun o => [o].reduceOption).flatten = os.reduceOption := by
  induction os with
  | nil => rfl
  | cons o os ih =>
    rw [List.map_cons, List.flatten_cons, ih, ← List.reduceOption_append]
    rfl

/-- A press of button `b` inside a trace: `pre` is what comes before it, `ls` are its passes, `r` the
released pass that ends it. -/
structure PressAt (b : MyButton) (scans pre ls : List PinLevels) (r : PinLevels)
    (post : List PinLevels) : Prop where
  split : scans = pre ++ (ls ++ [r]) ++ post
  pressed : ∀ l ∈ ls, Pressed b l
  released : ¬ Pressed b r
  maximal : ∀ l ∈ pre.getLast?, ¬ Pressed b l

/-- No pressed stretch of the trace takes the button past the hold threshold with a period that is
below the scan interval. -/
def NoShortPeriodHold (b : MyButton) (scans : List PinLevels) : Prop :=
  PeriodOk b ∨ ∀ pre ls post, scans = pre ++ ls ++ post → (∀ l ∈ ls, Pressed b l) → ls.length ≤ 35

/-- Scans leave the wiring of a button alone. -/
theorem run_button_sameWiring (id : ButtonId) {b b' : MyButton} {scans : List PinLevels}
    {os : List (Option MyButtonEvent)} (h : Mealy.run (buttonStep id) b scans = some (b', os)) :
    SameWiring b b' :=
  Mealy.run_invariant (SameWiring b)
    (fun _ _ _ _ hs hstep => hs.trans (buttonStep_output hstep).1) (SameWiring.refl b) h

/-- With a short period, the counter never passes the hold threshold in a defined run. -/
theorem run_button_cnt_le (id : ButtonId) {b b' : MyButton} {scans : List PinLevels}
    {os : List (Option MyButtonEvent)} (hbad : ¬ PeriodOk b) (hcnt : b.cnt.toNat ≤ 35)
    (h : Mealy.run (buttonStep id) b scans = some (b', os)) : b'.cnt.toNat ≤ 35 := by
  refine (Mealy.run_invariant (fun c => SameWiring b c ∧ c.cnt.toNat ≤ 35) ?_
    ⟨SameWiring.refl b, hcnt⟩ h).2
  rintro c l c' o ⟨hw, hc⟩ hstep
  refine ⟨hw.trans (buttonStep_output hstep).1, ?_⟩
  by_cases hp : Pressed c l
  · have hrun : Mealy.run (buttonStep id) c [l] = some (c', [o]) :=
      Mealy.run_cons_eq_some.mpr ⟨c', o, [], hstep, rfl, rfl⟩
    have hl : ∀ l' ∈ [l], Pressed c l' := by simpa using hp
    have hle := run_pressed_le id hl (hw.periodOk_iff.not.mpr hbad) hc hrun
    obtain ⟨c₂, hstep₂, hcnt₂, -⟩ := buttonStep_pressed id hp (j := c.cnt.toNat + 1)
      (by omega) (Or.inr (by simpa using hle))
    rw [(Prod.mk.inj (Option.some.inj (hstep.symm.trans hstep₂))).1, hcnt₂]
    simpa using hle
  · obtain ⟨c₂, hstep₂, hcnt₂, -⟩ := buttonStep_released id hp
    rw [(Prod.mk.inj (Option.some.inj (hstep.symm.trans hstep₂))).1, hcnt₂]
    exact Nat.zero_le _

/-- From a counter at most `k` away from the hold threshold, the run is defined if pressed stretches
stay short, the first one by `k` more. -/
theorem run_button_isSome (id : ButtonId) {b : MyButton} {scans : List PinLevels}
    (hfirst : ∀ ls post, scans = ls ++ post → (∀ l ∈ ls, Pressed b l) →
      b.cnt.toNat + ls.length ≤ 35)
    (hshort : ∀ pre ls post, scans = pre ++ ls ++ post → (∀ l ∈ ls, Pressed b l) →
      ls.length ≤ 35) :
    (Mealy.run (buttonStep id) b scans).isSome := by
  -- the induction is on the scans; the count never passes the hold while a press goes on
  induction scans generalizing b with
  | nil => rfl
  | cons l ls ih =>
    have hnext : ∀ b', SameWiring b b' → ∀ pre ls' post, ls = pre ++ ls' ++ post →
        (∀ l' ∈ ls', Pressed b' l') → ls'.length ≤ 35 := by
      intro b' hw pre ls' post hsplit hall
      exact hshort (l :: pre) ls' post (by rw [hsplit]; rfl)
        fun l' hl' => (hw.pressed_iff l').mp (hall l' hl')
    by_cases hp : Pressed b l
    · have h1 := hfirst [l] ls rfl (by simpa using hp)
      rw [List.length_singleton] at h1
      obtain ⟨b₁, hstep, hcnt, hw⟩ := buttonStep_pressed id hp (j := b.cnt.toNat + 1)
        (by omega) (Or.inr h1)
      have hsome : (Mealy.run (buttonStep id) b₁ ls).isSome := by
        refine ih ?_ (hnext b₁ hw)
        intro ls' post hsplit hall
        have := hfirst (l :: ls') post (by rw [hsplit]; rfl)
          (List.forall_mem_cons.mpr ⟨hp, fun l' hl' => (hw.pressed_iff l').mp (hall l' hl')⟩)
        rw [List.length_cons] at this
        omega
      obtain ⟨⟨b₂, os⟩, hrun⟩ := Option.isSome_iff_exists.mp hsome
      exact Option.isSome_iff_exists.mpr
        ⟨_, Mealy.run_cons_eq_some.mpr ⟨b₁, _, os, hstep, hrun, rfl⟩⟩
    · obtain ⟨b₁, hstep, hcnt, hw⟩ := buttonStep_released id hp
      have hsome : (Mealy.run (buttonStep id) b₁ ls).isSome := by
        refine ih ?_ (hnext b₁ hw)
        intro ls' post hsplit hall
        have := hnext b₁ hw [] ls' post hsplit hall
        omega
      obtain ⟨⟨b₂, os⟩, hrun⟩ := Option.isSome_iff_exists.mp hsome
      exact Option.isSome_iff_exists.mpr
        ⟨_, Mealy.run_cons_eq_some.mpr ⟨b₁, _, os, hstep, hrun, rfl⟩⟩

/-- With a usable period every run is defined. -/
theorem run_button_isSome_of_periodOk (id : ButtonId) {b : MyButton} (hok : PeriodOk b)
    (scans : List PinLevels) : (Mealy.run (buttonStep id) b scans).isSome := by
  induction scans generalizing b with
  | nil => rfl
  | cons l ls ih =>
    have hstep : ∃ b₁ o, buttonStep id b l = some (b₁, o) := by
      by_cases hp : Pressed b l
      · obtain ⟨b₁, h, -, -⟩ := buttonStep_pressed id hp rfl (Or.inl hok)
        exact ⟨b₁, _, h⟩
      · obtain ⟨b₁, h, -, -⟩ := buttonStep_released id hp
        exact ⟨b₁, _, h⟩
    obtain ⟨b₁, o, hstep⟩ := hstep
    obtain ⟨⟨b₂, os⟩, hrun⟩ := Option.isSome_iff_exists.mp
      (ih ((buttonStep_output hstep).1.periodOk_iff.mpr hok))
    exact Option.isSome_iff_exists.mpr
      ⟨_, Mealy.run_cons_eq_some.mpr ⟨b₁, o, os, hstep, hrun, rfl⟩⟩

/-- Exactly when the scan of one button stays defined over a trace. -/
theorem run_button_isSome_iff (id : ButtonId) {b : MyButton} (hb : b.cnt = 0)
    (scans : List PinLevels) :
    (Mealy.run (buttonStep id) b scans).isSome ↔ NoShortPeriodHold b scans := by
  have hcnt : b.cnt.toNat = 0 := by rw [hb]; rfl
  constructor
  · intro h
    by_cases hok : PeriodOk b
    · exact Or.inl hok
    refine Or.inr fun pre ls post hsplit hall => ?_
    obtain ⟨⟨b', os⟩, h⟩ := Option.isSome_iff_exists.mp h
    rw [hsplit, Mealy.run_append_eq_some] at h
    obtain ⟨b₂, os₁, -, h₁, -, -⟩ := h
    obtain ⟨b₁, os₂, os₃, hpre, hls, -⟩ := Mealy.run_append_eq_some.mp h₁
    have hw := run_button_sameWiring id hpre
    have hle := run_pressed_le id (fun l hl => (hw.pressed_iff l).mpr (hall l hl))
      (hw.periodOk_iff.not.mpr hok) (run_button_cnt_le id hok (by omega) hpre) hls
    omega
  · rintro (hok | hshort)
    · exact run_button_isSome_of_periodOk id hok scans
    · refine run_button_isSome id (fun ls post hsplit hall => ?_) hshort
      have := hshort [] ls post hsplit hall
      omega

/-- After a pass that found the button released, its counter is clear. -/
theorem cnt_eq_zero_of_getLast (id : ButtonId) {b b' : MyButton} {pre : List PinLevels}
    {os : List (Option MyButtonEvent)} (hb : b.cnt = 0)
    (hlast : ∀ l ∈ pre.getLast?, ¬ Pressed b l)
    (h : Mealy.run (buttonStep id) b pre = some (b', os)) : b'.cnt.toNat = 0 := by
  rcases List.eq_nil_or_concat pre with rfl | ⟨init, l, rfl⟩
  · simp only [Mealy.run, Option.some.injEq, Prod.mk.injEq] at h
    rw [← h.1, hb]
    rfl
  · rw [List.concat_eq_append] at h hlast
    obtain ⟨b₁, os₁, os₂, h₁, h₂, -⟩ := Mealy.run_append_eq_some.mp h
    have hr : ¬ Pressed b₁ l :=
      ((run_button_sameWiring id h₁).pressed_iff l).not.mpr (hlast l (by simp))
    obtain ⟨b₂, hstep, hcnt, -⟩ := buttonStep_released id hr
    obtain ⟨b₃, o, os₃, hstep', hnil, -⟩ := Mealy.run_cons_eq_some.mp h₂
    simp only [Mealy.run, Option.some.injEq, Prod.mk.injEq] at hnil
    rw [← hnil.1, ← (Prod.mk.inj (Option.some.inj (hstep.symm.trans hstep'))).1, hcnt]

/-- The callbacks of one press inside a longer trace are those `press_events_iff` speaks of. -/
theorem pressEvents_segment_iff (id : ButtonId) {b b' : MyButton} {scans : List PinLevels}
    {os : List (Option MyButtonEvent)} (hb : b.cnt = 0)
    (h : Mealy.run (buttonStep id) b scans = some (b', os)) {pre ls post : List PinLevels}
    {r : PinLevels} (hp : PressAt b scans pre ls r post) :
    PressEvents ls.length ((os.drop pre.length).take (ls.length + 1)).reduceOption ↔
      PressOk b ls.length := by
  rw [hp.split, Mealy.run_append_eq_some] at h
  obtain ⟨b₂, os₁, os₂, h₁, -, rfl⟩ := h
  obtain ⟨b₁, os₃, os₄, hpre, hpress, rfl⟩ := Mealy.run_append_eq_some.mp h₁
  have hw := run_button_sameWiring id hpre
  have hlen₃ := Mealy.length_of_run hpre
  have hlen₄ := Mealy.length_of_run hpress
  rw [List.length_append, List.length_singleton] at hlen₄
  have hseg : ((os₃ ++ os₄ ++ os₂).drop pre.length).take (ls.length + 1) = os₄ := by
    rw [List.append_assoc, ← hlen₃, List.drop_left, ← hlen₄, List.take_left]
  rw [hseg, press_events_iff id (fun l hl => (hw.pressed_iff l).mpr (hp.pressed l hl))
    ((hw.pressed_iff r).not.mpr hp.released) (cnt_eq_zero_of_getLast id hb hp.maximal hpre) hpress,
    PressOk, PressOk, hw.cb]

/-- A button only sees the levels of its own pin. -/
theorem run_button_congr (id : ButtonId) {b : MyButton} {scans scans₂ : List PinLevels}
    (h : scans₂.map (fun l => l b.pin) = scans.map fun l => l b.pin) :
    Mealy.run (buttonStep id) b scans₂ = Mealy.run (buttonStep id) b scans := by
  induction scans generalizing b scans₂ with
  | nil => rw [List.map_nil, List.map_eq_nil_iff] at h; rw [h]
  | cons l ls ih =>
    obtain ⟨l₂, ls₂, rfl, hl, hls⟩ := List.map_eq_cons_iff.mp h
    have hstep : buttonStep id b l₂ = buttonStep id b l := by
      rw [buttonStep, buttonStep, hl]
    rw [Mealy.run, Mealy.run, hstep]
    cases hb : buttonStep id b l with
    | none => rfl
    | some p =>
      obtain ⟨b', o⟩ := p
      have hpin := (buttonStep_output hb).1.pin
      simp only
      rw [ih (by rw [hpin]; exact hls)]

/-! ## The contract of the scan -/

/-- What a trace must show: it is defined, every press raises the specified callbacks, and the
callbacks of a button are those of any other trace, with any other buttons registered, that agrees
with this one on the button's own pin. -/
def ScanContract (m : ButtonManage) (scans : List PinLevels) : Prop :=
  ∃ m' outs, Mealy.run myButtonScan m scans = some (m', outs) ∧
    (∀ id ∈ m.buttonList, ∀ pre ls r post, PressAt (m.objects id) scans pre ls r post →
      PressEvents ls.length
        (((outs.drop pre.length).take (ls.length + 1)).map (callbacksOf id)).flatten) ∧
    (∀ id ∈ m.buttonList, ∀ n scans₂ n' outs₂, n.buttonList.Nodup → id ∈ n.buttonList →
      n.objects id = m.objects id →
      scans₂.map (fun l => l (m.objects id).pin) = scans.map (fun l => l (m.objects id).pin) →
      Mealy.run myButtonScan n scans₂ = some (n', outs₂) →
      outs₂.map (callbacksOf id) = outs.map (callbacksOf id))

/-- The presses of one button that `my_button_scan` handles as specified: too short to count, or
made with a callback registered and released before the 16-bit counter goes round; and with a hold
period below the scan interval, never held past the hold threshold. -/
structure PressesFit (b : MyButton) (scans : List PinLevels) : Prop where
  presses : ∀ pre ls r post, PressAt b scans pre ls r post → PressOk b ls.length
  noShortPeriodHold : NoShortPeriodHold b scans

/-- The callbacks of a button do not depend on the other buttons. -/
theorem callbacks_independent {m m' n n' : ButtonManage} {scans scans₂ : List PinLevels}
    {outs outs₂ : List (List (ButtonId × Option MyButtonEvent))} (hm : m.buttonList.Nodup)
    (hn : n.buttonList.Nodup) {id : ButtonId} (hidm : id ∈ m.buttonList)
    (hidn : id ∈ n.buttonList) (hobj : n.objects id = m.objects id)
    (hpin : scans₂.map (fun l => l (m.objects id).pin) = scans.map fun l => l (m.objects id).pin)
    (h : Mealy.run myButtonScan m scans = some (m', outs))
    (h₂ : Mealy.run myButtonScan n scans₂ = some (n', outs₂)) :
    outs₂.map (callbacksOf id) = outs.map (callbacksOf id) := by
  obtain ⟨os, hos, houts⟩ := run_button hm h hidm
  obtain ⟨os₂, hos₂, houts₂⟩ := run_button hn h₂ hidn
  rw [hobj, run_button_congr id hpin, hos] at hos₂
  rw [houts, houts₂, (Prod.mk.inj (Option.some.inj hos₂)).2]

/-- A trace is defined when it is for each button alone. -/
theorem run_myButtonScan_isSome_iff {m : ButtonManage} (hnodup : m.buttonList.Nodup)
    (hcnt : ∀ id ∈ m.buttonList, (m.objects id).cnt = 0) (scans : List PinLevels) :
    (Mealy.run myButtonScan m scans).isSome ↔
      ∀ id ∈ m.buttonList, NoShortPeriodHold (m.objects id) scans := by
  have hsweep : (Mealy.run myButtonScan m scans).isSome ↔
      (Mealy.run (Mealy.sweepStep buttonStep m.buttonList) m.objects scans).isSome := by
    rw [Option.isSome_iff_exists, Option.isSome_iff_exists]
    constructor
    · rintro ⟨⟨m', outs⟩, hrun⟩
      obtain ⟨objects, hobjects, -⟩ := run_myButtonScan_eq_some.mp hrun
      exact ⟨_, hobjects⟩
    · rintro ⟨⟨objects, outs⟩, hobjects⟩
      exact ⟨_, run_myButtonScan_eq_some.mpr ⟨objects, hobjects, rfl⟩⟩
  rw [hsweep, Mealy.run_sweep_isSome_iff hnodup]
  exact forall₂_congr fun id hid => run_button_isSome_iff id (hcnt id hid) scans

/-- Exactly the traces with the contract. -/
theorem scanContract_iff {m : ButtonManage} (hnodup : m.buttonList.Nodup)
    (hcnt : ∀ id ∈ m.buttonList, (m.objects id).cnt = 0) (scans : List PinLevels) :
    ScanContract m scans ↔ ∀ id ∈ m.buttonList, PressesFit (m.objects id) scans := by
  have hsegment : ∀ {m' outs}, Mealy.run myButtonScan m scans = some (m', outs) →
      ∀ id ∈ m.buttonList, ∀ {pre ls r post}, PressAt (m.objects id) scans pre ls r post →
      (PressEvents ls.length
        (((outs.drop pre.length).take (ls.length + 1)).map (callbacksOf id)).flatten ↔
          PressOk (m.objects id) ls.length) := by
    intro m' outs hrun id hid pre ls r post hp
    obtain ⟨os, hos, houts⟩ := run_button hnodup hrun hid
    rw [List.map_take, List.map_drop, houts, ← List.map_drop, ← List.map_take,
      flatten_map_reduceOption]
    exact pressEvents_segment_iff id (hcnt id hid) hos hp
  constructor
  · rintro ⟨m', outs, hrun, hevents, -⟩ id hid
    refine ⟨fun pre ls r post hp => ?_, ?_⟩
    · exact (hsegment hrun id hid hp).mp (hevents id hid pre ls r post hp)
    · exact (run_myButtonScan_isSome_iff hnodup hcnt scans).mp (by rw [hrun]; rfl) id hid
  · intro hfit
    obtain ⟨⟨m', outs⟩, hrun⟩ := Option.isSome_iff_exists.mp
      ((run_myButtonScan_isSome_iff hnodup hcnt scans).mpr fun id hid =>
        (hfit id hid).noShortPeriodHold)
    refine ⟨m', outs, hrun, fun id hid pre ls r post hp => ?_, ?_⟩
    · exact (hsegment hrun id hid hp).mpr ((hfit id hid).presses pre ls r post hp)
    · intro id hid n scans₂ n' outs₂ hn hidn hobj hpin h₂
      exact callbacks_independent hnodup hn hid hidn hobj hpin hrun h₂

/-- **The callbacks of `my_button_scan`.** For buttons registered once each, a trace of any length
and with any pin levels has the specified callbacks, button by button, exactly when every press fits
the 16-bit counter and the button's hold period. -/
theorem myButtonScan_contract_iff {m₀ m : ButtonManage} {ids : List ButtonId}
    (hempty : m₀.buttonList = []) (hnodup : ids.Nodup) (hreg : registerAll m₀ ids = some m)
    (scans : List PinLevels) :
    ScanContract m scans ↔ ∀ id ∈ ids, PressesFit (m.objects id) scans := by
  obtain ⟨hlist, hcnt, -⟩ := registerAll_eq_some hnodup hreg
  rw [hempty, List.nil_append] at hlist
  rw [← hlist] at hnodup hcnt ⊢
  exact scanContract_iff hnodup hcnt scans

/-- The two buttons of `key_fun`, before it registers them. -/
def keyFunManage : ButtonManage where
  objects id :=
    { pressLogicLevel := 0, cnt := 0, holdCycPeriod := 100, pin := if id = 1 then 19 else 20,
      event := .none, cb := some id }
  pinMode _ := none
  buttonList := []

/-- The state `key_fun` leaves. -/
def keyFunRegistered : ButtonManage where
  objects := Function.update (Function.update keyFunManage.objects 1 (keyFunManage.objects 1)) 2
    (keyFunManage.objects 2)
  pinMode := Function.update (Function.update (fun _ => none) 19 (some .inputPullup)) 20
    (some .inputPullup)
  buttonList := [1, 2]

theorem myButtonScan_contract_keyFun :
    registerAll keyFunManage [1, 2] = some keyFunRegistered ∧
      (ScanContract keyFunRegistered [fun _ => 0, fun _ => 0, fun _ => 1] ↔
        ∀ id ∈ [1, 2], PressesFit (keyFunRegistered.objects id)
          [fun _ => 0, fun _ => 0, fun _ => 1]) := by
  have hreg : registerAll keyFunManage [1, 2] = some keyFunRegistered := rfl
  exact ⟨hreg, myButtonScan_contract_iff rfl (by decide) hreg _⟩

/-- Both keys held for `2 ^ 16` passes (21 minutes and 51 seconds) and let go: the end of the hold is
never reported. -/
theorem not_scanContract_counter_wrap :
    ¬ ScanContract keyFunRegistered (List.replicate 65536 (fun _ => 0) ++ [fun _ => 1]) := by
  rw [scanContract_iff (by decide) (by decide)]
  intro h
  have hpress := (h 1 (by decide)).presses [] (List.replicate 65536 fun _ => 0) (fun _ => 1) []
    { split := by rw [List.nil_append, List.append_nil]
      pressed := fun l hl => by rw [List.eq_of_mem_replicate hl]; decide
      released := by decide
      maximal := by simp }
  rw [List.length_replicate, PressOk] at hpress
  omega

end Stm32Board.Button
