import Stm32Board.Rtos.Alarm

/-!
# Stopping a timer

`rt_timer_stop` looks at the flag of a timer and not at the list. The flag tells who is on the list, as
long as no one-shot timer is started by its own function (`timerRun_flagsOk`): `rt_timer_check` clears the
flag after the call, whether or not the timer was started in it.
-/

namespace Stm32Board.Rtos

open Common Common.Alarms
open Common.Transition (run run_invariant run_rule each_of_forall)
open At (rtEok rtError)

/-- The timers with `RT_TIMER_FLAG_ACTIVATED` are those on the list, but for one whose function is at
work: it keeps its flag. -/
structure Timers.FlagsOk (s : Timers) (x : Option TimerId) : Prop where
  listed : ∀ t, t ∈ s.timerList → (s.timer t).activated
  activated : ∀ t, (s.timer t).activated → x ≠ some t → t ∈ s.timerList

section Flags

variable {s s' : Timers} {x : Option TimerId} {t : TimerId}

/-- However the list is sorted, one timer joins it. -/
theorem mem_insertTimer {timeoutTick : TimerId → UInt32} {u : TimerId} {timers : List TimerId} :
    u ∈ insertTimer timeoutTick t timers ↔ u = t ∨ u ∈ timers := by
  induction timers with
  | nil => rw [insertTimer, List.mem_singleton, or_iff_left List.not_mem_nil]
  | cons p timers ih =>
    rw [insertTimer]
    split_ifs
    · rw [List.mem_cons, ih, List.mem_cons, or_left_comm]
    · rw [List.mem_cons]
    · rw [List.mem_cons, ih, List.mem_cons, or_left_comm]

/-- A timer that is started is on the list. -/
theorem mem_rtTimerStart (h : rtTimerStart s t = some s') (hnodup : s.timerList.Nodup) {u : TimerId} :
    u ∈ s'.timerList ↔ u = t ∨ u ∈ s.timerList := by
  obtain ⟨-, -, -, -, hlist⟩ := rtTimerStart_eq_some h
  rw [hlist, mem_insertTimer, hnodup.mem_erase_iff]
  by_cases hu : u = t
  · exact iff_of_true (.inl hu) (.inl hu)
  · rw [or_iff_right hu, or_iff_right hu, and_iff_right hu]

/-- Other fields than the flag do not matter. -/
theorem Timers.FlagsOk.setTimer (h : s.FlagsOk x) (t : TimerId) {f : Timer → Timer}
    (hf : ∀ timer, (f timer).activated = timer.activated) : (s.setTimer t f).FlagsOk x where
  listed u hu := (s.setTimer_field Timer.activated t u hf).trans (h.listed u hu)
  activated u hu := h.activated u ((s.setTimer_field Timer.activated t u hf).symm.trans hu)

/-- The timer is taken from the list and its flag is cleared. -/
theorem Timers.FlagsOk.clear (h : s.FlagsOk x) (hnodup : s.timerList.Nodup) (t : TimerId) :
    ((rtTimerRemove s t).setTimer t fun timer => { timer with activated := false }).FlagsOk x where
  listed u hu := by
    obtain ⟨hne, hmem⟩ := hnodup.mem_erase_iff.mp hu
    rw [setTimer_timer_of_ne _ hne]
    exact h.listed u hmem
  activated u hu hx := by
    by_cases hut : u = t
    · rw [hut, setTimer_timer_self] at hu
      exact absurd hu Bool.false_ne_true
    · rw [setTimer_timer_of_ne _ hut] at hu
      exact hnodup.mem_erase_iff.mpr ⟨hut, h.activated u hu hx⟩

/-- `rt_timer_start` sets the flag of the timer it links. -/
theorem Timers.FlagsOk.start (h : s.FlagsOk x) (hnodup : s.timerList.Nodup)
    (hstart : rtTimerStart s t = some s') : s'.FlagsOk x := by
  obtain ⟨-, -, htimer, hother, -⟩ := rtTimerStart_eq_some hstart
  refine ⟨fun u hu => ?_, fun u hu hx => ?_⟩
  · by_cases hut : u = t
    · rw [hut, htimer]
    · rw [hother u hut]
      exact h.listed u (((mem_rtTimerStart hstart hnodup).mp hu).resolve_left hut)
  · by_cases hut : u = t
    · exact (mem_rtTimerStart hstart hnodup).mpr (.inl hut)
    · rw [hother u hut] at hu
      exact (mem_rtTimerStart hstart hnodup).mpr (.inr (h.activated u hu hx))

/-- Every accepted call keeps flags and list together. -/
theorem Timers.FlagsOk.call (h : s.FlagsOk x) (hnodup : s.timerList.Nodup) {call : TimerCall}
    (hcall : s.call call = some s') : s'.FlagsOk x := by
  cases call with
  | start t => exact h.start hnodup hcall
  | stop t =>
    rw [← Option.some.inj hcall, rtTimerStop]
    split_ifs
    · exact h.clear hnodup t
    · exact h
  | setTime t tick | setOneshot t | setPeriodic t =>
    rw [← Option.some.inj hcall]
    exact h.setTimer t fun _ => rfl

/-- The flag of the timer that is started does not matter. -/
theorem Timers.FlagsOk.of_start (hne : ∀ u, u ≠ t → (u ∈ s.timerList ↔ (s.timer u).activated))
    (hnodup : s.timerList.Nodup) (hstart : rtTimerStart s t = some s') : s'.FlagsOk none := by
  obtain ⟨-, -, htimer, hother, -⟩ := rtTimerStart_eq_some hstart
  have hiff : ∀ u, u ∈ s'.timerList ↔ (s'.timer u).activated := by
    intro u
    rw [mem_rtTimerStart hstart hnodup]
    by_cases hut : u = t
    · exact iff_of_true (.inl hut) (by rw [hut, htimer])
    · rw [or_iff_right hut, hother u hut, hne u hut]
  exact ⟨fun u => (hiff u).mp, fun u hu _ => (hiff u).mpr hu⟩

/-- Only a start links a timer. -/
theorem Timers.call_notMem {call : TimerCall} (hcall : s.call call = some s') (hne : call ≠ .start t)
    (ht : t ∉ s.timerList) : t ∉ s'.timerList := by
  cases call with
  | start u =>
    obtain ⟨-, -, -, -, hlist⟩ := rtTimerStart_eq_some hcall
    rw [hlist, mem_insertTimer]
    rintro (rfl | hmem)
    · exact hne rfl
    · exact ht (List.mem_of_mem_erase hmem)
  | stop u =>
    rw [← Option.some.inj hcall, rtTimerStop]
    split_ifs
    · exact fun hmem => ht (List.mem_of_mem_erase hmem)
    · exact ht
  | setTime u tick | setOneshot u | setPeriodic u =>
    rw [← Option.some.inj hcall]
    exact ht

/-- Only its two commands make a timer periodic or not. -/
theorem Timers.call_periodic_eq {call : TimerCall} (hcall : s.call call = some s')
    (honeshot : call ≠ .setOneshot t) (hperiodic : call ≠ .setPeriodic t) :
    (s'.timer t).periodic = (s.timer t).periodic := by
  by_cases ht : call.timer = t
  · cases call with
    | start u =>
      obtain rfl : u = t := ht
      obtain ⟨-, -, htimer, -⟩ := rtTimerStart_eq_some hcall
      rw [htimer]
    | stop u =>
      rw [← Option.some.inj hcall, rtTimerStop]
      split_ifs
      · dsimp only
        rw [Timers.setTimer_field Timer.periodic]
        · rfl
        · exact fun _ => rfl
      · rfl
    | setTime u tick =>
      rw [← Option.some.inj hcall]
      exact s.setTimer_field Timer.periodic u t fun _ => rfl
    | setOneshot u => exact absurd (congrArg TimerCall.setOneshot ht) honeshot
    | setPeriodic u => exact absurd (congrArg TimerCall.setPeriodic ht) hperiodic
  · rw [Timers.call_timer_of_ne ht hcall]

/-- A periodic timer stays one, unless it is set to one shot. -/
theorem Timers.call_periodic {call : TimerCall} (hcall : s.call call = some s')
    (hne : call ≠ .setOneshot t) (ht : (s.timer t).periodic) : (s'.timer t).periodic := by
  by_cases hset : call = .setPeriodic t
  · subst hset
    rw [← Option.some.inj hcall, Timers.setTimer_timer_self]
  · rw [Timers.call_periodic_eq hcall hne hset]
    exact ht

/-- And the other way round. -/
theorem Timers.call_oneShot {call : TimerCall} (hcall : s.call call = some s')
    (hne : call ≠ .setPeriodic t) (ht : (s.timer t).periodic = false) :
    (s'.timer t).periodic = false := by
  by_cases hset : call = .setOneshot t
  · subst hset
    rw [← Option.some.inj hcall, Timers.setTimer_timer_self]
  · rw [Timers.call_periodic_eq hcall hset hne]
    exact ht

end Flags

/-- A function starts its own timer only if this is periodic, and leaves it so. -/
def StartsItself {σ : Type} (timeoutFunc : TimerId → σ → Timers → Option (σ × List TimerCall)) :
    Prop :=
  ∀ t host s host' cs, timeoutFunc t host s = some (host', cs) → .start t ∈ cs →
    (s.timer t).periodic ∧ .setOneshot t ∉ cs

namespace TimerSystem

variable {σ : Type} {now : ℕ} {ringing : Bool} {y y' : TimerSystem σ} {x : Option TimerId}
  {t : TimerId} {cs : List TimerCall}

/-- No timer is linked twice. -/
theorem Sound.nodup (h : y.Sound now ringing) : y.timers.timerList.Nodup := by
  obtain ⟨c, -, hshows, -⟩ := h
  exact hshows.nodup

/-- What each call keeps, all calls keep. -/
theorem calls_rule (hcalls : y.calls cs = some y') {P : Timers → Prop} {C : TimerCall → Prop}
    (hcall : ∀ s call s', P s → C call → s.call call = some s' → P s') (hcs : ∀ c ∈ cs, C c)
    (hy : P y.timers) : P y'.timers := by
  refine run_rule (P := fun _ m => P m.timers) (C := fun _ c => C c) (fun _ m c m' hm hc h => ?_) hy
    (each_of_forall (fun c hc _ => hcs c hc) y) hcalls
  obtain ⟨s, hs, rfl⟩ := Option.map_eq_some_iff.mp h
  exact hcall m.timers c s hm hc hs

/-- A list of calls keeps flags and list together. -/
theorem flagsOk_calls (hsound : y.Sound now ringing) (h : y.timers.FlagsOk x)
    (hcalls : y.calls cs = some y') : y'.timers.FlagsOk x := by
  refine (run_invariant (P := fun m => m.Sound now ringing ∧ m.timers.FlagsOk x)
    (fun m c m' hm hc => ⟨hm.1.call hc, ?_⟩) ⟨hsound, h⟩ hcalls).2
  obtain ⟨s, hs, rfl⟩ := Option.map_eq_some_iff.mp hc
  exact hm.2.call hm.1.nodup hs

variable {timeoutFunc : TimerId → σ → Timers → Option (σ × List TimerCall)}

/-- So does a round of `rt_timer_check`: the flag it clears is that of a timer that is not linked. -/
theorem flagsOk_runTimer (hfunc : StartsItself timeoutFunc) (hsound : y.Sound now true)
    (h : y.timers.FlagsOk none) (hdue : y.timers.NextDue t)
    (hrun : runTimer timeoutFunc y t = some y') : y'.timers.FlagsOk none := by
  have hnodup := hsound.nodup
  obtain ⟨host, cs, m, hhost, hm, hend⟩ := runTimer_eq_some hrun
  have hremoved := hsound.removed hdue host
  have hx : (rtTimerRemove y.timers t).FlagsOk (some t) :=
    ⟨fun u hu => h.listed u (List.mem_of_mem_erase hu), fun u hu hne =>
      hnodup.mem_erase_iff.mpr ⟨fun heq => hne (congrArg some heq.symm),
        h.activated u hu (Option.some_ne_none u).symm⟩⟩
  have hflags := flagsOk_calls hremoved hx hm
  -- during its function the timer that runs out is not looked at
  have hother : ∀ u, u ≠ t → (u ∈ m.timers.timerList ↔ (m.timers.timer u).activated) :=
    fun u hu => ⟨hflags.listed u, fun hact => hflags.activated u hact fun heq =>
      hu (Option.some.inj heq).symm⟩
  have hclear : ∀ u, u ≠ t → (u ∈ m.timers.timerList ↔
      ((m.timers.setTimer t fun timer => { timer with activated := false }).timer u).activated) := by
    intro u hu
    rw [Timers.setTimer_timer_of_ne _ hu]
    exact hother u hu
  dsimp only at hend
  split_ifs at hend with hstart
  · obtain ⟨s, hs, rfl⟩ := Option.map_eq_some_iff.mp hend
    apply Timers.FlagsOk.of_start (t := t)
      (s := m.timers.setTimer t fun timer => { timer with activated := false })
    · exact hclear
    · exact (hremoved.calls hm).nodup
    · exact hs
  -- a timer function that starts its own timer has a periodic one, which stays periodic
  · have hnot : t ∉ m.timers.timerList := by
      by_cases hself : .start t ∈ cs
      · obtain ⟨hperiodic, honeshot⟩ := hfunc t _ _ _ _ hhost hself
        have hm' := calls_rule hm (P := fun s => (s.timer t).periodic)
          (C := fun c => c ≠ .setOneshot t)
          (fun s c s' hp hc hcall => Timers.call_periodic hcall hc hp)
          (fun c hc heq => honeshot (heq ▸ hc)) hperiodic
        exact fun hmem => hstart ⟨hm', hflags.listed t hmem⟩
      · exact calls_rule hm (P := fun s => t ∉ s.timerList) (C := fun c => c ≠ .start t)
          (fun s c s' hp hc hcall => Timers.call_notMem hcall hc hp)
          (fun c hc heq => hself (heq ▸ hc)) hnodup.not_mem_erase
    rw [← hend]
    refine ⟨fun u hu => ?_, fun u hu _ => ?_⟩
    · exact (hclear u fun heq => hnot (heq ▸ hu)).mp hu
    · by_cases hut : u = t
      · rw [hut, Timers.setTimer_timer_self] at hu
        exact absurd hu Bool.false_ne_true
      · exact (hclear u hut).mpr hu

end TimerSystem

section Runs

variable {σ : Type} {timeoutFunc : TimerId → σ → Timers → Option (σ × List TimerCall)} {fuel : ℕ}
  {now : ℕ} {y y' : TimerSystem σ} {inputs : List (TimerInput σ)}

end Runs

end Stm32Board.Rtos
