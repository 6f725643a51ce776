import Stm32Board.Rtos.Timeout

/-!
# Nobody waits longer than asked

What the kernel does with the timers of its threads is a run of `kernelStep` (`timedRun_kernelRun`), so all
that holds of these holds here. A tick ends, and no assertion of it fails (`timedRun_tick_returns`). A
thread that waits has been waiting for less ticks than it asked for (`timedRun_waits`).
-/

namespace Stm32Board.Rtos

open Common Common.Alarms
open Common.Transition (run run_append_eq_some run_invariant run_cons_eq_some run_nil_eq_some run_rule
  each_true expand run_expand count_expand)

/-! ## What every state of a run keeps -/

/-- The kernel is in order, the timers are alarms, and the flags of the timers are those of the threads. -/
structure TimedOk (now : ℕ) (ringing : Bool) (y : TimedKernel) : Prop where
  host : HostOk y.host
  sound : y.Sound now ringing
  flagsOk : y.timers.FlagsOk none
  oneShot : ∀ t, (y.timers.timer t).periodic = false
  flag : y.host.state.ipc.flag = y.timers.flag

/-- The thread `t` waits in the call `c`, for `n` ticks at most. -/
structure Waits (y : TimedKernel) (t : ThreadId) (c : Call) (n : ℕ) : Prop where
  suspended : (y.host.state.ipc.thread t).suspended
  waiting : y.host.waiting t = some c
  ticks : c.ticks = some n

/-- Since `y`, before any other tick, the alarm of `t` was set for `n` ticks. -/
def SetNow (y y' : TimedKernel) (t : ThreadId) (n : ℕ) : Prop :=
  ∃ later, y'.history = y.history ++ later ∧ SetSince later t n []

section Calls

variable {cs : List TimerCall} {t : TimerId}

/-- A timer that runs after stops was running and was not stopped. -/
theorem flagsAfter_stops {flag : TimerId → Bool} {threads : List ThreadId}
    (h : flagsAfter flag (threads.map .stop) t = true) : flag t = true ∧ t ∉ threads := by
  induction threads generalizing flag with
  | nil => exact ⟨h, List.not_mem_nil⟩
  | cons u threads ih =>
    have hafter : flagsAfter (Function.update flag u false) (threads.map .stop) t = true := h
    obtain ⟨hflag, hrest⟩ := ih hafter
    have hu : t ≠ u := by
      rintro rfl
      rw [Function.update_self] at hflag
      exact Bool.false_ne_true hflag
    rw [Function.update_of_ne hu] at hflag
    exact ⟨hflag, fun hmem => (List.mem_cons.mp hmem).elim hu hrest⟩

/-- `rt_timer_start` sets the alarm of its timer. -/
theorem setNow_start {y y' : TimedKernel} (h : y.call (.start t) = some y') :
    SetNow y y' t (y.timers.timer t).initTick.toNat := by
  obtain ⟨s, -, rfl⟩ := Option.map_eq_some_iff.mp h
  exact ⟨_, rfl, [], rfl, fun e he => absurd he List.not_mem_nil⟩

/-- Calls only add to what has happened. -/
theorem calls_history {σ : Type} {y y' : TimerSystem σ} (h : y.calls cs = some y') :
    ∃ later, y'.history = y.history ++ later := by
  refine run_invariant (P := fun m => ∃ later, m.history = y.history ++ later)
    (fun m c m' hm hcall => ?_) ⟨[], (List.append_nil _).symm⟩ h
  obtain ⟨later, hlater⟩ := hm
  obtain ⟨s, -, rfl⟩ := Option.map_eq_some_iff.mp hcall
  exact ⟨later ++ c.events m.timers, by rw [hlater, List.append_assoc]⟩

/-- A thread that begins to wait sets its timer for as long. -/
theorem setNow_waitCalls {y y' : TimedKernel} {time : ℤ} (htime : 0 < time)
    (hcalls : y.calls (waitCalls t time) = some y') : SetNow y y' t (UInt32.ofInt time).toNat := by
  unfold waitCalls at hcalls
  rw [if_pos htime] at hcalls
  obtain ⟨m, hstop, hrest⟩ := run_cons_eq_some.mp hcalls
  obtain ⟨m', hset, hrest⟩ := run_cons_eq_some.mp hrest
  obtain ⟨m'', hstart, hnil⟩ := run_cons_eq_some.mp hrest
  obtain rfl := run_nil_eq_some.mp hnil
  have htick : (m'.timers.timer t).initTick = UInt32.ofInt time := by
    rw [← Option.some.inj hset]
    dsimp only
    rw [Timers.setTimer_timer_self]
  -- the stop may have cancelled an alarm, and setting the time is no event
  have hbefore : y.calls [.stop t, .setTime t (UInt32.ofInt time)] = some m' :=
    run_cons_eq_some.mpr ⟨m, hstop, run_cons_eq_some.mpr ⟨m', hset, rfl⟩⟩
  obtain ⟨sooner, hsooner⟩ := calls_history hbefore
  obtain ⟨later, hlater, hsince⟩ := setNow_start hstart
  rw [htick] at hsince
  refine ⟨sooner ++ later, ?_, hsince.prepend sooner⟩
  rw [hlater, hsooner, List.append_assoc]

end Calls

/-- Either timers are stopped, or the current thread sets its own for as long as it waits. -/
theorem timerCalls_cases (k : Kernel) (e : KernelEvent) :
    (∃ threads : List ThreadId, e.timerCalls k = threads.map .stop) ∨
      ∃ c time, e = .call c ∧ e.timerCalls k = waitCalls k.currentThread time ∧
        ∀ n, c.ticks = some n → 0 < time ∧ (UInt32.ofInt time).toNat = n := by
  cases e with
  | startup t => exact .inl ⟨[t], rfl⟩
  | call c =>
    cases c with
    | semTake s time =>
      rw [KernelEvent.timerCalls]
      split_ifs
      · exact .inl ⟨[], rfl⟩
      · exact .inr ⟨_, time, rfl, rfl, fun n => ticks_eq_some⟩
    | mutexTake m time =>
      rw [KernelEvent.timerCalls]
      split_ifs
      · exact .inl ⟨[], rfl⟩
      · exact .inr ⟨_, time, rfl, rfl, fun n => ticks_eq_some⟩
    | mutexRelease m =>
      rw [KernelEvent.timerCalls]
      split_ifs
      · exact .inl ⟨_, rfl⟩
      · exact .inl ⟨[], rfl⟩
    | sleep => exact .inl ⟨[], rfl⟩
  | semRelease s => exact .inl ⟨_, rfl⟩
  | timeout t => exact .inl ⟨[], rfl⟩
  | goOn | tickYield | schedule => exact .inl ⟨[], rfl⟩

section Step

variable {now : ℕ} {ringing : Bool} {y y' : TimedKernel} {e : KernelEvent} {host : System Kernel}
  {cs : List TimerCall}

/-- A step of the kernel with calls that do the same to the flags. -/
theorem TimedOk.calls (h : TimedOk now ringing y) (hhost : HostOk host)
    (hcalls : TimerSystem.calls { y with host := host } cs = some y')
    (hflag : host.state.ipc.flag = flagsAfter y.host.state.ipc.flag cs)
    (honeShot : ∀ c ∈ cs, ∀ t, c ≠ .setPeriodic t) : TimedOk now ringing y' where
  host := (calls_host hcalls).symm ▸ hhost
  sound := TimerSystem.Sound.calls (y := { y with host := host }) h.sound hcalls
  flagsOk := TimerSystem.flagsOk_calls (y := { y with host := host }) h.sound h.flagsOk hcalls
  oneShot t := TimerSystem.calls_rule hcalls (P := fun s => (s.timer t).periodic = false)
    (C := fun c => c ≠ .setPeriodic t) (fun _ _ _ hp hc hcall => Timers.call_oneShot hcall hc hp)
    (fun c hc => honeShot c hc t) (h.oneShot t)
  flag := by
    rw [calls_host hcalls, calls_flag hcalls, hflag, h.flag]

/-- Who waits after a step in which he made no call, and whose timer is not called, waited before. -/
theorem HostOk.waits_untouched (h : HostOk y.host) (hhost : kernelStep y.host e = some host)
    (hcalls : TimerSystem.calls { y with host := host } cs = some y') {t : ThreadId}
    (hcs : ∀ c ∈ cs, c.timer ≠ t) (hcall : ∀ c, e.ipc y.host ≠ some (.call t c)) {c : Call} {n : ℕ}
    (hw : Waits y' t c n) : Waits y t c n ∧ Untouched y y' t 0 := by
  have hsus := hw.suspended
  have hwaiting := hw.waiting
  rw [calls_host hcalls] at hsus hwaiting
  obtain ⟨hsus', hwaiting'⟩ := h.waits_before hhost hcall hsus hwaiting
  refine ⟨⟨hsus', hwaiting', hw.ticks⟩, ?_⟩
  exact calls_untouched (y := { y with host := host }) hcalls fun c hc => .inl (hcs c hc)

/-- A waiting thread makes calls about its own timer. -/
theorem waitCalls_timer {t : ThreadId} {time : ℤ} : ∀ c ∈ waitCalls t time, c.timer = t := by
  intro c hc
  unfold waitCalls at hc
  split_ifs at hc
  · simp only [List.mem_cons, List.not_mem_nil, or_false] at hc
    rcases hc with rfl | rfl | rfl <;> rfl
  · rw [List.mem_singleton.mp hc]
    rfl

/-- Nobody but the current thread makes a call. -/
theorem KernelEvent.ipc_eq_call {k : System Kernel} {t : ThreadId} {c : Call}
    (h : e.ipc k = some (.call t c)) : t = k.state.currentThread ∧ e = .call c := by
  cases e with
  | call c' =>
    obtain ⟨ht, rfl⟩ := IpcEvent.call.inj (Option.some.inj h)
    exact ⟨ht.symm, rfl⟩
  | startup t' | semRelease s | timeout t' | goOn => exact absurd (Option.some.inj h) (by simp)
  | tickYield | schedule => exact absurd h.symm (Option.some_ne_none _)

/-- The kernel makes no thread timer periodic. -/
theorem timerCalls_ne (k : Kernel) (e : KernelEvent) (t : TimerId) :
    ∀ c ∈ e.timerCalls k, c ≠ .setPeriodic t := by
  intro c hc
  rcases timerCalls_cases k e with ⟨threads, hcs⟩ | ⟨c', time, -, hcs, -⟩ <;> rw [hcs] at hc
  · obtain ⟨u, -, rfl⟩ := List.mem_map.mp hc
    simp
  · unfold waitCalls at hc
    rintro rfl
    split_ifs at hc <;> simp at hc

/-- Every step of the kernel but a sleep keeps what holds between ticks. -/
theorem TimedOk.kernelCalls (h : TimedOk now ringing y) (hsleep : e ≠ .call .sleep)
    (htimeout : ∀ t, e ≠ .timeout t)
    (hstep : kernelCalls y e (e.timerCalls y.host.state) = some y') : TimedOk now ringing y' := by
  obtain ⟨host, hhost, hcalls⟩ := Option.bind_eq_some_iff.mp hstep
  exact h.calls (h.host.step hhost) hcalls (kernelStep_flag h.host.kernel hhost hsleep htimeout)
    fun c hc t => timerCalls_ne _ e t c hc

/-- Who waits after a step of the kernel did so before, with his timer left alone, or has made the call in
this step and set his timer. -/
theorem TimedOk.waits_kernelCalls (h : TimedOk now ringing y) (hsleep : e ≠ .call .sleep)
    (htimeout : ∀ t, e ≠ .timeout t)
    (hstep : Rtos.kernelCalls y e (e.timerCalls y.host.state) = some y') {t : ThreadId} {c : Call}
    {n : ℕ} (hw : Waits y' t c n) :
    Waits y t c n ∧ Untouched y y' t 0 ∨
      e = .call c ∧ y.host.state.currentThread = t ∧ SetNow y y' t n := by
  obtain ⟨host, hhost, hcalls⟩ := Option.bind_eq_some_iff.mp hstep
  have hok := h.host.step hhost
  have hsus := hw.suspended
  have hwaiting := hw.waiting
  rw [calls_host hcalls] at hsus hwaiting
  have hrunning : host.state.ipc.flag t = true := hok.timersRun t c n hsus hwaiting hw.ticks
  rw [kernelStep_flag h.host.kernel hhost hsleep htimeout] at hrunning
  rcases timerCalls_cases y.host.state e with ⟨threads, hcs⟩ | ⟨c', time, rfl, hcs, hticks⟩
  · -- timers are stopped, but not that of `t`, which still runs
    rw [hcs] at hrunning
    obtain ⟨hbefore, hnot⟩ := flagsAfter_stops hrunning
    refine .inl (h.host.waits_untouched hhost hcalls (fun c' hc' heq => ?_) (fun c' heq => ?_) hw)
    · rw [hcs] at hc'
      obtain ⟨u, hu, rfl⟩ := List.mem_map.mp hc'
      exact hnot (heq ▸ hu)
    · obtain ⟨rfl, rfl⟩ := KernelEvent.ipc_eq_call heq
      rw [(h.host.caller hhost).2] at hbefore
      exact Bool.false_ne_true hbefore
  · by_cases ht : t = y.host.state.currentThread
    · subst ht
      obtain rfl := h.host.caller_waits hhost hwaiting
      obtain ⟨htime, rfl⟩ := hticks n hw.ticks
      rw [hcs] at hcalls
      exact .inr ⟨rfl, rfl, setNow_waitCalls (y := { y with host := host }) htime hcalls⟩
    · refine .inl (h.host.waits_untouched hhost hcalls (fun c'' hc'' heq => ht ?_)
        (fun c'' heq => ht (KernelEvent.ipc_eq_call heq).1) hw)
      rw [hcs] at hc''
      exact heq.symm.trans (waitCalls_timer c'' hc'')

/-- A sleeping thread makes calls about its own timer. -/
theorem sleepCalls_timer {t : ThreadId} {tick : UInt32} : ∀ c ∈ sleepCalls t tick, c.timer = t := by
  intro c hc
  simp only [sleepCalls, List.mem_cons, List.not_mem_nil, or_false] at hc
  rcases hc with rfl | rfl | rfl <;> rfl

/-- And so does a sleep. -/
theorem TimedOk.sleep (h : TimedOk now ringing y) {tick : UInt32}
    (hstep : Rtos.kernelCalls y (.call .sleep) (sleepCalls y.host.state.currentThread tick) = some y') :
    TimedOk now ringing y' := by
  obtain ⟨host, hhost, hcalls⟩ := Option.bind_eq_some_iff.mp hstep
  have hflag : host.state.ipc.flag = flagsAfter y.host.state.ipc.flag
      (sleepCalls y.host.state.currentThread tick) := by
    rw [kernelStep_call_state h.host.kernel hhost]
    refine (Ipc.sleep_flag _ _).trans ?_
    exact (Function.update_idem ..).symm
  refine h.calls (h.host.step hhost) hcalls hflag fun c hc t => ?_
  rintro rfl
  simp [sleepCalls] at hc

/-- A sleep is no wait for an object, and nothing to the others. -/
theorem TimedOk.waits_sleep (h : TimedOk now ringing y) {tick : UInt32}
    (hstep : Rtos.kernelCalls y (.call .sleep) (sleepCalls y.host.state.currentThread tick) = some y')
    {t : ThreadId} {c : Call} {n : ℕ} (hw : Waits y' t c n) : Waits y t c n ∧ Untouched y y' t 0 := by
  obtain ⟨host, hhost, hcalls⟩ := Option.bind_eq_some_iff.mp hstep
  have ht : t ≠ y.host.state.currentThread := by
    rintro rfl
    have hwaiting := hw.waiting
    rw [calls_host hcalls] at hwaiting
    obtain rfl := h.host.caller_waits hhost hwaiting
    exact absurd hw.ticks.symm (Option.some_ne_none n)
  exact h.host.waits_untouched hhost hcalls
    (fun c' hc' heq => ht (heq.symm.trans (sleepCalls_timer c' hc')))
    (fun c' heq => ht (KernelEvent.ipc_eq_call heq).1) hw

end Step

/-! ## The tick -/

/-- The function of a timer that runs is a timeout of the kernel and a call of `rt_schedule`. -/
theorem threadTimeout_eq_some {t : TimerId} {y host : System Kernel} {s : Timers}
    {cs : List TimerCall} (h : threadTimeout t y s = some (host, cs)) :
    cs = [] ∧ host = { y with state := rtSchedule (rtThreadTimeout y.state t) } := by
  unfold threadTimeout at h
  split_ifs at h
  obtain ⟨rfl, rfl⟩ := Prod.mk.inj (Option.some.inj h)
  exact ⟨rfl, rfl⟩

theorem startsItself_threadTimeout : StartsItself threadTimeout := by
  intro t host s host' cs hfunc hstart
  obtain ⟨rfl, -⟩ := threadTimeout_eq_some hfunc
  exact absurd hstart List.not_mem_nil

/-- Clearing the flag of a timer clears it in the table of flags. -/
theorem Timers.clear_flag (s : Timers) (t : TimerId) :
    (s.setTimer t fun timer => { timer with activated := false }).flag =
      Function.update s.flag t false := by
  funext u
  by_cases hu : u = t
  · rw [hu, Function.update_self, flag, setTimer_timer_self]
  · rw [Function.update_of_ne hu, flag, setTimer_timer_of_ne s hu]
    rfl

section Tick

variable {now : ℕ} {ringing : Bool} {y y' : TimedKernel} {t : TimerId} {fuel : ℕ}

/-- The timer of a thread that runs out is on. -/
theorem TimedOk.due_flag (h : TimedOk now ringing y) (hdue : y.timers.NextDue t) :
    y.host.state.ipc.flag t = true := by
  rw [h.flag]
  exact h.flagsOk.listed t (List.mem_of_head? hdue.head)

/-- What the timer of a thread does that has timed out. -/
theorem TimedOk.runTimer_eq (h : TimedOk now ringing y) (hdue : y.timers.NextDue t)
    (hrun : runTimer threadTimeout y t = some y') :
    ∃ m host, kernelStep y.host (.timeout t) = some m ∧ kernelStep m .schedule = some host ∧
      y' = ⟨host, (rtTimerRemove y.timers t).setTimer t fun timer => { timer with activated := false },
        y.history ++ [.ring t]⟩ := by
  obtain ⟨host, cs, m, hfunc, hcalls, hend⟩ := runTimer_eq_some hrun
  obtain ⟨rfl, rfl⟩ := threadTimeout_eq_some hfunc
  obtain rfl := run_nil_eq_some.mp hcalls
  have htimeout : kernelStep y.host (.timeout t) =
      some { y.host with state := rtThreadTimeout y.host.state t } := if_pos (h.due_flag hdue)
  have hnot : ¬((y.timers.timer t).periodic ∧ (y.timers.timer t).activated) := by
    rw [h.oneShot]
    exact fun hand => Bool.false_ne_true hand.1
  dsimp only at hend
  split_ifs at hend with hstart
  · exact absurd hstart hnot
  · exact ⟨_, _, htimeout, rfl, hend.symm⟩

/-- A timeout clears the flag of its thread. -/
theorem kernelStep_timeout_flag {y y' : System Kernel} (h : KernelOk y)
    (hstep : kernelStep y (.timeout t) = some y') :
    y'.state.ipc.flag = Function.update y.state.ipc.flag t false := by
  have hspec := (kernelStep_spec h.ok h.initPriority hstep).2
  unfold KernelEvent.ipc ipcStep at hspec
  dsimp only at hspec
  split_ifs at hspec
  have hstate : y'.state.ipc = y.state.ipc.timeout t :=
    congrArg System.state (Option.some.inj hspec).symm
  rw [hstate, Ipc.timeout_eq]
  exact (Ipc.setError_flag _ t _).trans (Ipc.wake_flag _ t)

/-- One timer function inside a tick keeps it. -/
theorem TimedOk.runTimer (h : TimedOk now true y) (hdue : y.timers.NextDue t)
    (hrun : runTimer threadTimeout y t = some y') : TimedOk now true y' := by
  have hsound := h.sound.runTimer hdue hrun
  have hflags := TimerSystem.flagsOk_runTimer startsItself_threadTimeout h.sound h.flagsOk hdue hrun
  obtain ⟨m, host, htimeout, hschedule, rfl⟩ := h.runTimer_eq hdue hrun
  have hm := h.host.step htimeout
  have hflag : host.state.ipc.flag = Function.update y.host.state.ipc.flag t false := by
    rw [← kernelStep_timeout_flag h.host.kernel htimeout]
    exact kernelStep_flag hm.kernel hschedule (by simp) (by simp)
  refine ⟨hm.step hschedule, hsound, hflags, fun u => ?_, ?_⟩
  · dsimp only
    rw [Timers.setTimer_field Timer.periodic]
    · exact h.oneShot u
    · exact fun _ => rfl
  · refine hflag.trans ?_
    rw [h.flag]
    exact (Timers.clear_flag _ t).symm

/-- Who waits after the timer of a thread has run out is another thread. -/
theorem TimedOk.waits_runTimer (h : TimedOk now true y) (hdue : y.timers.NextDue t)
    (hrun : Rtos.runTimer threadTimeout y t = some y') {u : ThreadId} {c : Call} {n : ℕ}
    (hw : Waits y' u c n) : Waits y u c n ∧ Untouched y y' u 0 := by
  have hok := h.runTimer hdue hrun
  have hrunning := hok.host.timersRun u c n hw.suspended hw.waiting hw.ticks
  obtain ⟨m, host, htimeout, hschedule, rfl⟩ := h.runTimer_eq hdue hrun
  have hm := h.host.step htimeout
  have hut : u ≠ t := by
    rintro rfl
    have hflag : host.state.ipc.flag u = true := hrunning
    rw [kernelStep_flag hm.kernel hschedule (by simp) (by simp)] at hflag
    have hoff : m.state.ipc.flag u = true := hflag
    rw [kernelStep_timeout_flag h.host.kernel htimeout, Function.update_self] at hoff
    exact Bool.false_ne_true hoff
  obtain ⟨hsus, hwaiting⟩ := hm.waits_before hschedule
    (fun c' heq => absurd heq.symm (Option.some_ne_none _)) hw.suspended hw.waiting
  obtain ⟨hsus', hwaiting'⟩ := h.host.waits_before htimeout
    (fun c' heq => absurd (Option.some.inj heq) (by simp)) hsus hwaiting
  exact ⟨⟨hsus', hwaiting', hw.ticks⟩, .event fun heq => hut (Option.some.inj heq).symm⟩

/-- The assertion of `rt_thread_timeout` holds, and the timer leaves the list. -/
theorem TimedOk.runTimer_returns (h : TimedOk now ringing y) (hdue : y.timers.NextDue t) :
    ∃ y', Rtos.runTimer threadTimeout y t = some y' ∧
      y'.timers.timerList = y.timers.timerList.erase t := by
  -- a timer that is on the list is on, and that of a thread only while the thread is suspended
  have hsus : (y.host.state.thread t).stat = .suspend :=
    of_decide_eq_true (h.host.waitsOk.timer t (h.due_flag hdue))
  have hfunc : threadTimeout t y.host (rtTimerRemove y.timers t) =
      some ({ y.host with state := rtSchedule (rtThreadTimeout y.host.state t) }, []) := if_pos hsus
  have hnot : ¬((y.timers.timer t).periodic ∧ (y.timers.timer t).activated) := by
    rw [h.oneShot]
    exact fun h => Bool.false_ne_true h.1
  unfold Rtos.runTimer
  simp only [Option.bind_eq_bind, hfunc, Option.bind_some, TimerSystem.calls, List.foldlM_nil,
    Option.pure_def]
  split_ifs with hstart
  · exact absurd hstart hnot
  · exact ⟨_, rfl, rfl⟩

/-- The loop of `rt_timer_check` ends after a round for each timer at most. -/
theorem TimedOk.rtTimerCheck_returns (h : TimedOk now true y)
    (hfuel : y.timers.timerList.length < fuel) :
    ∃ y', rtTimerCheck threadTimeout fuel y = some y' := by
  induction fuel generalizing y with
  | zero => exact absurd hfuel (Nat.not_lt_zero _)
  | succ fuel ih =>
    rw [rtTimerCheck]
    split
    · exact ⟨y, rfl⟩
    · next t rest hlist =>
      split_ifs with hdue
      · have hnext : y.timers.NextDue t := ⟨by rw [hlist, List.head?_cons], hdue⟩
        obtain ⟨m, hm, hrest⟩ := h.runTimer_returns hnext
        rw [hlist, List.erase_cons_head] at hrest
        rw [hlist, List.length_cons] at hfuel
        obtain ⟨y', hy'⟩ := ih (h.runTimer hnext hm) (hrest ▸ Nat.lt_of_succ_lt_succ hfuel)
        exact ⟨y', by rw [hm, Option.bind_some, hy']⟩
      · exact ⟨y, rfl⟩

/-- The tick goes up before the timers are looked at. -/
theorem TimedOk.ticked (h : TimedOk now false y) : TimedOk now true y.ticked :=
  ⟨h.host, h.sound.ticked, ⟨h.flagsOk.listed, h.flagsOk.activated⟩, h.oneShot, h.flag⟩

/-- A whole tick keeps what holds between ticks. -/
theorem TimedOk.tick (h : TimedOk now false y)
    (htick : rtTickIncrease threadTimeout fuel y = some y') : TimedOk now false y' := by
  have hsound := h.sound.rtTickIncrease htick
  obtain ⟨m, hcheck, rfl⟩ := Option.map_eq_some_iff.mp htick
  obtain ⟨hm, -⟩ := rtTimerCheck_rule (fun _ _ _ h hdue hrun => h.runTimer hdue hrun) h.ticked hcheck
  exact ⟨hm.host, hsound, hm.flagsOk, hm.oneShot, hm.flag⟩

/-- Who waits did so `k` ticks ago, in `y`, and his timer has been left alone since. -/
def StillWait (y y' : TimedKernel) (k : ℕ) : Prop :=
  ∀ t c n, Waits y' t c n → Waits y t c n ∧ Untouched y y' t k

/-- Counting the tick up wakes nobody. -/
theorem stillWait_ticked (y : TimedKernel) : StillWait y y.ticked 1 := fun t _ _ hw =>
  ⟨⟨hw.suspended, hw.waiting, hw.ticks⟩, .event (Option.some_ne_none t).symm⟩

/-- A timer function leaves those waiting whose timers have not run out. -/
theorem StillWait.runTimer {m m' : TimedKernel} {k : ℕ} (h : StillWait y m k)
    (hok : TimedOk now true m) (hdue : m.timers.NextDue t)
    (hrun : Rtos.runTimer threadTimeout m t = some m') : StillWait y m' k := by
  intro u c n hw
  obtain ⟨hw', huntouched'⟩ := hok.waits_runTimer hdue hrun hw
  obtain ⟨hw, huntouched⟩ := h u c n hw'
  exact ⟨hw, huntouched.trans huntouched'⟩

/-- Who waits after a tick did so before it, and his timer has not run out. -/
theorem TimedOk.waits_tick (h : TimedOk now false y)
    (htick : rtTickIncrease threadTimeout fuel y = some y') {c : Call} {n : ℕ}
    (hw : Waits y' t c n) : Waits y t c n ∧ Untouched y y' t 1 := by
  obtain ⟨m, hcheck, rfl⟩ := Option.map_eq_some_iff.mp htick
  obtain ⟨⟨-, hm⟩, -⟩ := rtTimerCheck_rule (P := fun m => TimedOk now true m ∧ StillWait y m 1)
    (fun _ _ _ hm hdue hrun => ⟨hm.1.runTimer hdue hrun, hm.2.runTimer hm.1 hdue hrun⟩)
    ⟨h.ticked, stillWait_ticked y⟩ hcheck
  obtain ⟨hw', huntouched⟩ := hm t c n ⟨hw.suspended, hw.waiting, hw.ticks⟩
  exact ⟨hw', huntouched.trans (.event (e := .quiet) (Option.some_ne_none t).symm)⟩

end Tick

/-! ## Runs of the kernel -/

/-- The timeouts of the timers that ring, and the `rt_schedule()` at the end of each `rt_thread_timeout`. -/
def timeouts (events : List (Event TimerId)) : List KernelEvent :=
  (events.filterMap Event.rung).flatMap fun t => [.timeout t, .schedule]

/-- What the kernel does in a step, which leads from `y` to `y'`. -/
def kernelEvents (y : TimedKernel) (e : TimedEvent) (y' : TimedKernel) : List KernelEvent :=
  match e with
  | .kernel e => [e]
  | .sleep _ => [.call .sleep]
  | .tick => timeouts (y'.history.drop y.history.length)

/-- The timeouts of two stretches of a history. -/
theorem timeouts_append (events later : List (Event TimerId)) :
    timeouts (events ++ later) = timeouts events ++ timeouts later := by
  rw [timeouts, List.filterMap_append, List.flatMap_append]
  rfl

/-- A thread times out as often as its timer rings. -/
theorem count_timeouts (events : List (Event TimerId)) (t : TimerId) :
    (timeouts events).count (.timeout t) = events.count (.ring t) := by
  induction events with
  | nil => rfl
  | cons e events ih =>
    rw [← List.singleton_append, timeouts_append, List.count_append, ih, List.count_append]
    cases e with
    | ring u => simp [timeouts, Event.rung, List.count_cons]
    | tick | quiet | set u n | cancel u => rfl

/-- Calls ring nothing. -/
theorem calls_rings {σ : Type} {y y' : TimerSystem σ} {cs : List TimerCall}
    (h : y.calls cs = some y') (t : TimerId) :
    y'.history.count (.ring t) = y.history.count (.ring t) := by
  refine run_invariant (P := fun m => m.history.count (.ring t) = y.history.count (.ring t))
    (fun m c m' hm hcall => ?_) rfl h
  obtain ⟨s, -, rfl⟩ := Option.map_eq_some_iff.mp hcall
  have hnone : (c.events m.timers).count (.ring t) = 0 := by
    refine List.count_eq_zero.mpr fun hmem => ?_
    cases c with
    | start u => exact absurd (List.mem_singleton.mp hmem) (by simp)
    | stop u =>
      rw [TimerCall.events] at hmem
      split_ifs at hmem
      · exact absurd (List.mem_singleton.mp hmem) (by simp)
      · exact List.not_mem_nil hmem
    | setTime u tick | setOneshot u | setPeriodic u => exact List.not_mem_nil hmem
  rw [List.count_append, hnone, hm, Nat.add_zero]

section Step

variable {now fuel : ℕ} {y y' : TimedKernel} {e : TimedEvent}

/-- A tick is the timeouts of the timers that ring in it. -/
theorem TimedOk.tick_run (h : TimedOk now false y)
    (htick : rtTickIncrease threadTimeout fuel y = some y') :
    ∃ later, y'.history = y.history ++ later ∧ kernelRun y.host (timeouts later) = some y'.host := by
  obtain ⟨m, hcheck, rfl⟩ := Option.map_eq_some_iff.mp htick
  obtain ⟨⟨-, later, hlater, hrun⟩, -⟩ := rtTimerCheck_rule (P := fun m => TimedOk now true m ∧
    ∃ later, m.history = y.history ++ later ∧ kernelRun y.host (timeouts later) = some m.host)
    (fun m t m' hm hdue hring => by
      refine ⟨hm.1.runTimer hdue hring, ?_⟩
      obtain ⟨k, host, htimeout, hschedule, rfl⟩ := hm.1.runTimer_eq hdue hring
      obtain ⟨later, hlater, hrun⟩ := hm.2
      refine ⟨later ++ [.ring t], by rw [hlater, List.append_assoc], ?_⟩
      rw [timeouts_append]
      exact run_append_eq_some.mpr ⟨m.host, hrun, run_cons_eq_some.mpr ⟨k, htimeout,
        run_cons_eq_some.mpr ⟨host, hschedule, rfl⟩⟩⟩)
    ⟨h.ticked, [.tick], rfl, rfl⟩ hcheck
  refine ⟨later ++ [.quiet], by rw [hlater, List.append_assoc], ?_⟩
  rw [timeouts_append]
  exact run_append_eq_some.mpr ⟨m.host, hrun, rfl⟩

/-- What a step of the kernel is, a sleep or a tick. -/
theorem timedStep_cases (hstep : timedStep fuel y e = some y') :
    (∃ e', e = .kernel e' ∧ e' ≠ .call .sleep ∧ (∀ t, e' ≠ .timeout t) ∧
      kernelCalls y e' (e'.timerCalls y.host.state) = some y') ∨
    (∃ tick, e = .sleep tick ∧
      kernelCalls y (.call .sleep) (sleepCalls y.host.state.currentThread tick) = some y') ∨
    e = .tick ∧ rtTickIncrease threadTimeout fuel y = some y' := by
  cases e with
  | kernel e =>
    cases e with
    | timeout t => exact absurd hstep.symm (Option.some_ne_none y')
    | call c =>
      cases c with
      | sleep => exact absurd hstep.symm (Option.some_ne_none y')
      | semTake s time | mutexTake m time | mutexRelease m =>
        exact .inl ⟨_, rfl, by simp, by simp, hstep⟩
    | startup t | semRelease s | goOn | tickYield | schedule =>
      exact .inl ⟨_, rfl, by simp, by simp, hstep⟩
  | sleep tick => exact .inr (.inl ⟨tick, rfl, hstep⟩)
  | tick => exact .inr (.inr ⟨rfl, hstep⟩)

/-- Every step of the timed kernel keeps what holds between steps. -/
theorem TimedOk.step (h : TimedOk now false y) (hstep : timedStep fuel y e = some y') :
    TimedOk now false y' := by
  rcases timedStep_cases hstep with
    ⟨e', rfl, hsleep, htimeout, hcalls⟩ | ⟨tick, rfl, hcalls⟩ | ⟨rfl, htick⟩
  · exact h.kernelCalls hsleep htimeout hcalls
  · exact h.sleep hcalls
  · exact h.tick htick

/-- Who waits after a step did so before it, with his timer left alone, or has made the call in this step
and set his timer. -/
theorem TimedOk.waits_step (h : TimedOk now false y) (hstep : timedStep fuel y e = some y')
    {t : ThreadId} {c : Call} {n : ℕ} (hw : Waits y' t c n) :
    Waits y t c n ∧ Untouched y y' t ([e].count .tick) ∨
      e = .kernel (.call c) ∧ y.host.state.currentThread = t ∧ SetNow y y' t n := by
  rcases timedStep_cases hstep with
    ⟨e', rfl, hsleep, htimeout, hcalls⟩ | ⟨tick, rfl, hcalls⟩ | ⟨rfl, htick⟩
  · rcases h.waits_kernelCalls hsleep htimeout hcalls hw with hbefore | ⟨rfl, hcurrent, hset⟩
    · exact .inl hbefore
    · exact .inr ⟨rfl, hcurrent, hset⟩
  · exact .inl (h.waits_sleep hcalls hw)
  · exact .inl (h.waits_tick htick hw)

/-- A step of the kernel with its timers is some steps of the kernel without them. -/
theorem TimedOk.kernelEvents_run (h : TimedOk now false y) (hstep : timedStep fuel y e = some y') :
    kernelRun y.host (kernelEvents y e y') = some y'.host := by
  have hone : ∀ {e' : KernelEvent} {cs : List TimerCall}, Rtos.kernelCalls y e' cs = some y' →
      kernelRun y.host [e'] = some y'.host := by
    intro e' cs hcalls
    obtain ⟨host, hhost, hcalls⟩ := Option.bind_eq_some_iff.mp hcalls
    rw [calls_host hcalls]
    exact run_cons_eq_some.mpr ⟨host, hhost, rfl⟩
  rcases timedStep_cases hstep with ⟨e', rfl, -, -, hcalls⟩ | ⟨tick, rfl, hcalls⟩ | ⟨rfl, htick⟩
  · exact hone hcalls
  · exact hone hcalls
  · obtain ⟨later, hlater, hrun⟩ := h.tick_run htick
    rw [kernelEvents, hlater, List.drop_left]
    exact hrun

/-- What times out in a step are the timers that ring. -/
theorem TimedOk.kernelEvents_count (h : TimedOk now false y) (hstep : timedStep fuel y e = some y')
    (t : ThreadId) : y'.history.count (.ring t) =
      y.history.count (.ring t) + (kernelEvents y e y').count (.timeout t) := by
  have hone : ∀ {e' : KernelEvent} {cs : List TimerCall}, Rtos.kernelCalls y e' cs = some y' →
      e' ≠ .timeout t → y'.history.count (.ring t) =
        y.history.count (.ring t) + [e'].count (.timeout t) := by
    intro e' cs hcalls hne
    obtain ⟨host, -, hcalls⟩ := Option.bind_eq_some_iff.mp hcalls
    rw [calls_rings hcalls, List.count_cons_of_ne hne, List.count_nil, Nat.add_zero]
  rcases timedStep_cases hstep with ⟨e', rfl, -, htimeout, hcalls⟩ | ⟨tick, rfl, hcalls⟩ | ⟨rfl, htick⟩
  · exact hone hcalls (htimeout t)
  · exact hone hcalls (by simp)
  · obtain ⟨later, hlater, -⟩ := h.tick_run htick
    rw [kernelEvents, hlater, List.drop_left, count_timeouts, List.count_append]

end Step

/-! ## Since when a thread waits -/

/-- The thread `t` made the call `c` in the state `m` of a run, and has been in it while `after`
happened. -/
structure InCall (fuel : ℕ) (boot : TimedKernel) (events : List TimedEvent) (t : ThreadId) (c : Call)
    (m : TimedKernel) (after : List TimedEvent) : Prop where
  made : ∃ before, events = before ++ .kernel (.call c) :: after ∧
    timedRun fuel boot before = some m
  caller : m.host.state.currentThread = t
  stays : ∀ earlier later m', after = earlier ++ later →
    timedRun fuel m (.kernel (.call c) :: earlier) = some m' → m'.host.waiting t = some c

section InCall

variable {fuel : ℕ} {boot y y' : TimedKernel} {events : List TimedEvent} {e : TimedEvent}
  {t : ThreadId} {c : Call} {m : TimedKernel} {after : List TimedEvent}

/-- The call is made. -/
theorem InCall.start (hrun : timedRun fuel boot events = some y)
    (hstep : timedStep fuel y (.kernel (.call c)) = some y')
    (hcaller : y.host.state.currentThread = t) (hwaiting : y'.host.waiting t = some c) :
    InCall fuel boot (events ++ [.kernel (.call c)]) t c y [] where
  made := ⟨events, rfl, hrun⟩
  caller := hcaller
  stays earlier later m' hnil hrun' := by
    obtain ⟨rfl, -⟩ := List.append_eq_nil_iff.mp hnil.symm
    obtain ⟨m'', hstep', hm'⟩ := run_cons_eq_some.mp hrun'
    obtain rfl := run_nil_eq_some.mp hm'
    obtain rfl := Option.some.inj (hstep'.symm.trans hstep)
    exact hwaiting

/-- One more step in the call. -/
theorem InCall.concat (h : InCall fuel boot events t c m after)
    (hrun : timedRun fuel boot events = some y) (hstep : timedStep fuel y e = some y')
    (hwaiting : y'.host.waiting t = some c) :
    InCall fuel boot (events ++ [e]) t c m (after ++ [e]) := by
  obtain ⟨before, rfl, hbefore⟩ := h.made
  refine ⟨⟨before, by simp, hbefore⟩, h.caller, fun earlier later m' heq hrun' => ?_⟩
  rcases List.eq_nil_or_concat' later with rfl | ⟨later, e', rfl⟩
  · -- the state that the step leads to
    rw [List.append_nil] at heq
    subst heq
    obtain ⟨m₁, hm₁, hafter⟩ := run_append_eq_some.mp hrun
    obtain rfl := Option.some.inj (hm₁.symm.trans hbefore)
    rw [← List.cons_append] at hrun'
    obtain ⟨m₂, hm₂, hlast⟩ := run_append_eq_some.mp hrun'
    obtain rfl := Option.some.inj (hm₂.symm.trans hafter)
    obtain ⟨m₃, hm₃, hnil⟩ := run_cons_eq_some.mp hlast
    obtain rfl := run_nil_eq_some.mp hnil
    obtain rfl := Option.some.inj (hm₃.symm.trans hstep)
    exact hwaiting
  · rw [← List.append_assoc] at heq
    exact h.stays earlier later m' (List.append_inj' heq rfl).1 hrun'

end InCall

/-- The thread made the call in the state `m`, which set its timer for `n` ticks, and nothing has happened
to the timer since, in as many ticks as there were. -/
structure SetInCall (fuel : ℕ) (boot : TimedKernel) (events : List TimedEvent) (y : TimedKernel)
    (t : ThreadId) (c : Call) (n : ℕ) (m : TimedKernel) (after : List TimedEvent) : Prop where
  inCall : InCall fuel boot events t c m after
  set : ∃ new since, y.history = m.history ++ new ∧ SetSince new t n since ∧
    since.count .tick = after.count .tick

section SetInCall

variable {fuel : ℕ} {boot y y' : TimedKernel} {events : List TimedEvent} {e : TimedEvent}
  {t : ThreadId} {c : Call} {n : ℕ} {m : TimedKernel} {after : List TimedEvent}

/-- The call is made, and sets the timer. -/
theorem SetInCall.start (hrun : timedRun fuel boot events = some y)
    (hstep : timedStep fuel y (.kernel (.call c)) = some y')
    (hcaller : y.host.state.currentThread = t) (hwaiting : y'.host.waiting t = some c)
    (hset : SetNow y y' t n) : SetInCall fuel boot (events ++ [.kernel (.call c)]) y' t c n y [] where
  inCall := .start hrun hstep hcaller hwaiting
  set := by
    obtain ⟨new, hnew, hsince⟩ := hset
    exact ⟨new, [], hnew, hsince, rfl⟩

/-- One more step in the call, which leaves the timer alone. -/
theorem SetInCall.concat (h : SetInCall fuel boot events y t c n m after)
    (hrun : timedRun fuel boot events = some y) (hstep : timedStep fuel y e = some y')
    (hwaiting : y'.host.waiting t = some c) (huntouched : Untouched y y' t ([e].count .tick)) :
    SetInCall fuel boot (events ++ [e]) y' t c n m (after ++ [e]) where
  inCall := h.inCall.concat hrun hstep hwaiting
  set := by
    obtain ⟨new, since, hnew, hsince, hcount⟩ := h.set
    obtain ⟨later, hlater, hnot, hticks⟩ := huntouched
    refine ⟨new ++ later, since ++ later, ?_, hsince.append hnot, ?_⟩
    · rw [hlater, hnew, List.append_assoc]
    · rw [List.count_append, List.count_append, hcount, hticks]

end SetInCall

/-- Who waits is in the call that has set his timer. -/
def WaitsInCall (fuel : ℕ) (boot : TimedKernel) (events : List TimedEvent) (y : TimedKernel) : Prop :=
  ∀ t c n, Waits y t c n → ∃ m after, SetInCall fuel boot events y t c n m after

/-- Every step leaves each waiting thread in the call it made. -/
theorem WaitsInCall.step {now fuel : ℕ} {boot y y' : TimedKernel} {events : List TimedEvent}
    {e : TimedEvent} (h : WaitsInCall fuel boot events y) (hok : TimedOk now false y)
    (hrun : timedRun fuel boot events = some y) (hstep : timedStep fuel y e = some y') :
    WaitsInCall fuel boot (events ++ [e]) y' := by
  intro t c n hw
  rcases hok.waits_step hstep hw with ⟨hbefore, huntouched⟩ | ⟨rfl, hcaller, hset⟩
  · obtain ⟨m, after, hm⟩ := h t c n hbefore
    exact ⟨m, after ++ [e], hm.concat hrun hstep hw.waiting huntouched⟩
  · exact ⟨y, [], .start hrun hstep hcaller hw.waiting hset⟩

/-! ## Runs -/

/-- The kernel has started, and no thread has started its timer. -/
structure TimedStartup (k : Kernel) (threads : List ThreadId) (now : ℕ) (y : TimedKernel) : Prop where
  host : y.host = rtthreadStartup k threads
  initial : y.Initial now
  timer : ∀ t, (y.timers.timer t).activated = false ∧ (y.timers.timer t).periodic = false

/-- The timers of the threads as `rt_thread_init` leaves them; the tick is about to wrap around. -/
def timersOff : TimedKernel where
  host := rtthreadStartup mainAndIdle [1, 2]
  timers := ⟨fun _ => ⟨0, 0, false, false⟩, [], 0xFFFFFFFE⟩
  history := []

section Runs

variable {k : Kernel} {threads : List ThreadId} (hinit : k.Initial) (hnodup : threads.Nodup)
  (hcurrent : k.currentThread ∉ threads) (hne : threads ≠ []) {now : ℕ} {y y' : TimedKernel}
  (h : TimedStartup k threads now y) {fuel : ℕ} {events : List TimedEvent}
include hinit hnodup hcurrent hne h

/-- It holds when the threads have been started up. -/
theorem TimedStartup.ok : TimedOk now false y := by
  obtain ⟨hok, hbooted⟩ := rtthreadStartup_ok hinit hnodup hcurrent hne
  have hhost : HostOk (rtthreadStartup k threads) :=
    ⟨hok, hbooted.waitsOk, fun t c n hsus =>
      absurd ((hbooted.awake t).symm.trans hsus) Bool.false_ne_true⟩
  refine ⟨h.host ▸ hhost, h.initial.sound, ⟨fun t ht => ?_, fun t ht _ => ?_⟩,
    fun t => (h.timer t).2, funext fun t => ?_⟩
  · rw [h.initial.list] at ht
    exact absurd ht List.not_mem_nil
  · exact absurd ((h.timer t).1.symm.trans ht) Bool.false_ne_true
  · rw [h.host]
    exact (hbooted.timer t).trans (h.timer t).1.symm

/-- And so in every state of a run. -/
theorem timedRun_ok (hrun : timedRun fuel y events = some y') : TimedOk now false y' :=
  run_invariant (P := TimedOk now false) (fun _ _ _ h hstep => h.step hstep)
    (h.ok hinit hnodup hcurrent hne) hrun

/-- Nobody waits when the kernel starts. -/
theorem timedRun_waitsInCall (hrun : timedRun fuel y events = some y') :
    WaitsInCall fuel y events y' := by
  have hbooted := (rtthreadStartup_ok hinit hnodup hcurrent hne).2
  have hstart : WaitsInCall fuel y [] y := by
    intro t c n hw
    have hsus := hw.suspended
    rw [h.host] at hsus
    exact absurd ((hbooted.awake t).symm.trans hsus) Bool.false_ne_true
  refine (run_rule (P := fun events m => timedRun fuel y events = some m ∧ TimedOk now false m ∧
    WaitsInCall fuel y events m) (fun before m e m' hm _ hstep => ?_)
    ⟨rfl, h.ok hinit hnodup hcurrent hne, hstart⟩ (each_true y events) hrun).2.2
  obtain ⟨hbefore, hok, hwaits⟩ := hm
  refine ⟨?_, hok.step hstep, hwaits.step hok hbefore hstep⟩
  exact run_append_eq_some.mpr ⟨m, hbefore, run_cons_eq_some.mpr ⟨m', hstep, rfl⟩⟩

/-- Whatever the threads and interrupts do: a thread that waits for `n` ticks at most is in the call that
has set its timer, and there were less than `n` ticks since. -/
theorem timedRun_waits (hrun : timedRun fuel y events = some y') {t : ThreadId} {c : Call} {n : ℕ}
    (hsus : (y'.host.state.thread t).stat = .suspend) (hc : y'.host.waiting t = some c)
    (hn : c.ticks = some n) :
    ∃ m after, SetInCall fuel y events y' t c n m after ∧ after.count .tick < n := by
  have hok := timedRun_ok hinit hnodup hcurrent hne h hrun
  have hwaits := timedRun_waitsInCall hinit hnodup hcurrent hne h hrun
  obtain ⟨m, after, hset⟩ := hwaits t c n ⟨decide_eq_true hsus, hc, hn⟩
  refine ⟨m, after, hset, ?_⟩
  obtain ⟨new, since, hnew, hsince, hcount⟩ := hset.set
  -- the clock is quiet, so the alarm is not due yet
  obtain ⟨clock, hhistory, -, hcalm⟩ := hok.sound
  have hcalm' := (kept_run hhistory).calm hcalm t n since (hnew ▸ hsince.prepend m.history)
  have hpos := Call.ticks_pos hn
  omega

omit hinit hnodup hcurrent hne h in
/-- Two threads and no timer running. -/
theorem timersOff_startup : TimedStartup mainAndIdle [1, 2] 4294967294 timersOff :=
  ⟨rfl, ⟨rfl, rfl, rfl⟩, fun _ => ⟨rfl, rfl⟩⟩

omit hinit hnodup hcurrent hne h in
/-- The main thread waits for 3 ticks at most while the tick wraps around. -/
theorem timedRun_waits_wrap :
    ∃ y m after, SetInCall 2 timersOff
      [.kernel (.call (.semTake 0 3)), .kernel .schedule, .tick, .tick] y 1 (.semTake 0 3) 3 m after ∧
        after.count .tick < 3 := by
  obtain ⟨y, hy, hstate⟩ := Option.map_eq_some_iff.mp (by decide +kernel :
    (timedRun 2 timersOff [.kernel (.call (.semTake 0 3)), .kernel .schedule, .tick, .tick]).map
      (fun y => ((y.host.state.thread 1).stat, y.host.waiting 1)) = some (.suspend, some (.semTake 0 3)))
  obtain ⟨hstat, hwaiting⟩ := Prod.mk.inj hstate
  exact ⟨y, timedRun_waits mainAndIdle_initial (by decide) (by decide) (by decide)
    timersOff_startup hy hstat hwaiting rfl⟩

/-- The tick ends, and no assertion fails in it: every timer that runs out is that of a suspended
thread. -/
theorem timedRun_tick_returns (hrun : timedRun fuel y events = some y') {rounds : ℕ}
    (hrounds : y'.timers.timerList.length < rounds) :
    ∃ y'', rtTickIncrease threadTimeout rounds y' = some y'' := by
  have hok := timedRun_ok hinit hnodup hcurrent hne h hrun
  obtain ⟨m, hm⟩ := hok.ticked.rtTimerCheck_returns hrounds
  exact ⟨_, congrArg (Option.map _) hm⟩

omit hinit hnodup hcurrent hne h in
/-- A wait of one tick, which runs out at the next. -/
theorem timedRun_tick_returns_last :
    ∃ y, timedRun 2 timersOff [.kernel (.call (.semTake 0 1)), .kernel .schedule] = some y ∧
      ∃ y', rtTickIncrease threadTimeout 2 y = some y' := by
  obtain ⟨y, hy, hlength⟩ := Option.map_eq_some_iff.mp (by decide +kernel :
    (timedRun 2 timersOff [.kernel (.call (.semTake 0 1)), .kernel .schedule]).map
      (fun y => y.timers.timerList.length) = some 1)
  exact ⟨y, hy, timedRun_tick_returns mainAndIdle_initial (by decide) (by decide) (by decide)
    timersOff_startup hy (hlength ▸ Nat.lt_succ_self 1)⟩

/-- The kernel does what it does without its timers, in an order that they decide: what times out in a
tick are the timers that ring in it, and these are on time. -/
theorem timedRun_kernelRun (hrun : timedRun fuel y events = some y') :
    OnTime y'.history ∧
      kernelRun (rtthreadStartup k threads) (expand (timedStep fuel) kernelEvents y events) =
        some y'.host ∧
      ∀ t, (expand (timedStep fuel) kernelEvents y events).count (.timeout t) =
        y'.history.count (.ring t) := by
  have hok := h.ok hinit hnodup hcurrent hne
  have hkeep : ∀ m e m', TimedOk now false m → timedStep fuel m e = some m' → TimedOk now false m' :=
    fun _ _ _ hm hstep => hm.step hstep
  obtain ⟨c, hhistory, -, -⟩ := (timedRun_ok hinit hnodup hcurrent hne h hrun).sound
  have hparts : ∀ m e m', TimedOk now false m → timedStep fuel m e = some m' →
      run kernelStep m.host (kernelEvents m e m') = some m'.host :=
    fun _ _ _ hm hstep => hm.kernelEvents_run hstep
  refine ⟨onTime_run hhistory, ?_, fun t => ?_⟩
  · rw [← h.host]
    exact run_expand hkeep hparts hok hrun
  · have hrings : ∀ m e m', TimedOk now false m → timedStep fuel m e = some m' →
        m'.history.count (.ring t) =
          m.history.count (.ring t) + (kernelEvents m e m').count (.timeout t) :=
      fun _ _ _ hm hstep => hm.kernelEvents_count hstep t
    have hcount := count_expand hkeep hrings hok hrun
    rw [h.initial.history, List.count_nil, Nat.zero_add] at hcount
    exact hcount.symm

omit hinit hnodup hcurrent hne h in
/-- The main thread waits for a semaphore until its timer runs out, and sleeps. -/
theorem timedRun_kernelRun_timeout :
    ∃ y : TimedKernel, OnTime y.history ∧
      kernelRun (rtthreadStartup mainAndIdle [1, 2]) (expand (timedStep 2) kernelEvents timersOff
        [.kernel (.call (.semTake 0 1)), .kernel .schedule, .tick, .kernel .goOn, .sleep 2]) =
          some y.host ∧
      ∀ t, (expand (timedStep 2) kernelEvents timersOff
        [.kernel (.call (.semTake 0 1)), .kernel .schedule, .tick, .kernel .goOn, .sleep 2]).count
          (.timeout t) = y.history.count (.ring t) := by
  obtain ⟨y, hy⟩ := Option.isSome_iff_exists.mp (by decide +kernel :
    (timedRun 2 timersOff
      [.kernel (.call (.semTake 0 1)), .kernel .schedule, .tick, .kernel .goOn, .sleep 2]).isSome)
  exact ⟨y, timedRun_kernelRun mainAndIdle_initial (by decide) (by decide) (by decide)
    timersOff_startup hy⟩

end Runs

end Stm32Board.Rtos
