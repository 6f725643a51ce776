import Stm32Board.Rtos.Deadline

/-!
# Who times out has waited as long as asked

A call that returns `-RT_ETIMEOUT` to a thread that was to wait for `n` ticks at most has waited for `n`
(`timedRun_timeout`): the alarm that it set has rung in the `n`th tick, and nothing has happened to it since.
-/

namespace Stm32Board.Rtos

open Common Common.Alarms
open Common.Transition (run_append_eq_some run_cons_eq_some run_rule each_true)
open At (rtEok rtEtimeout)

/-- The time of a thread was over before it was given what it waits for, and it has not gone on yet. -/
structure System.TimedOut (y : System Ipc) (t : ThreadId) (c : Call) : Prop where
  waiting : y.waiting t = some c
  awake : (y.state.thread t).suspended = false
  error : (y.state.thread t).error = -rtEtimeout

/-- A timeout is no success. -/
theorem timeout_ne_ok : -rtEtimeout ≠ rtEok := by decide

/-- Who waits for a number of ticks waits for an object. -/
theorem Call.object_of_ticks {c : Call} {n : ℕ} (h : c.ticks = some n) : ∃ o, c.object = some o := by
  cases c with
  | semTake s time => exact ⟨.sem s, rfl⟩
  | mutexTake m time => exact ⟨.mutex m, rfl⟩
  | mutexRelease m | sleep => exact absurd h.symm (Option.some_ne_none n)

section Step

variable {y y' : System Ipc} {e : IpcEvent} {t : ThreadId} {c : Call}

/-- Having timed out is a matter of three fields. -/
theorem System.TimedOut.congr (h : y'.TimedOut t c) (hwaiting : y'.waiting t = y.waiting t)
    (hsuspended : (y'.state.thread t).suspended = (y.state.thread t).suspended)
    (herror : (y'.state.thread t).error = (y.state.thread t).error) : y.TimedOut t c :=
  ⟨hwaiting ▸ h.waiting, hsuspended ▸ h.awake, herror ▸ h.error⟩

/-- Who is in a queue has no error. -/
theorem queued_error (h : y.state.WaitsOk y.waiting) {o o' : IpcObject}
    (hc : c.object = some o) (hmem : t ∈ y.state.queue o') (hwaiting : y.waiting t = some c) :
    (y.state.thread t).error = rtEok := by
  obtain ⟨c', hc', herror⟩ := h.suspended t (h.queued t o' hmem).1
  obtain rfl := Option.some.inj (hc'.symm.trans hwaiting)
  exact (herror o hc).2

/-- Only a timeout makes a thread time out. -/
theorem ipcStep_timedOut (h : y.state.WaitsOk y.waiting) (hstep : ipcStep y e = some y')
    {o : IpcObject} (hc : c.object = some o) (hafter : y'.TimedOut t c) :
    e = .timeout t ∨ y.TimedOut t c := by
  -- a thread that another one wakes has no error code of a timeout
  have hwake : ∀ (i : Ipc) (next : ThreadId), y'.state = i.wake next → y'.waiting = y.waiting →
      (∃ o', next ∈ y.state.queue o') →
      (∀ u, (i.thread u).suspended = (y.state.thread u).suspended ∧
        (i.thread u).error = (y.state.thread u).error) → y.TimedOut t c := by
    rintro i next hstate hwaiting ⟨o', hmem⟩ hsame
    have herror : (y'.state.thread t).error = (y.state.thread t).error := by
      rw [hstate, (i.wake_fields next t).2.2, (hsame t).2]
    by_cases ht : t = next
    · have hok := queued_error h hc (ht ▸ hmem) (hwaiting ▸ hafter.waiting)
      exact absurd (hafter.error.symm.trans (herror.trans hok)) timeout_ne_ok
    · refine hafter.congr (congrFun hwaiting t) ?_ herror
      rw [hstate, i.wake_of_ne next ht, (hsame t).1]
  -- who makes a call was in none before
  have hidle : ∀ u, y.MayCall u → y'.waiting = y.waiting → t ≠ u := by
    rintro u hcall hwaiting rfl
    have hnone := hwaiting ▸ hafter.waiting
    exact Option.some_ne_none c (hnone.symm.trans hcall.idle)
  -- every step but the timeout leaves suspension and error code of the thread alone
  obtain ⟨_, hcase⟩ := ipcStep_cases hstep
  cases hcase with
  | @startup u hstarted =>
    have ht : t ≠ u := by
      rintro rfl
      have hwaiting : y.waiting t = some c := hafter.waiting
      have hstarted' := h.started t (by rw [hwaiting]; exact Option.some_ne_none c)
      exact Bool.false_ne_true (hstarted.symm.trans hstarted')
    refine .inr (hafter.congr rfl ?_ ?_)
    · rw [Ipc.wake_of_ne _ _ ht, Ipc.setPriority_of_ne _ _ _ ht]
    · rw [Ipc.wake_of_ne _ _ ht, Ipc.setPriority_of_ne _ _ _ ht]
  | refused hcall _ =>
    have ht := hidle _ hcall rfl
    refine .inr (hafter.congr rfl (by simp) ?_)
    rw [Ipc.setError_of_ne _ _ _ ht]
  | semTaken _ _ => exact .inr (hafter.congr rfl (by simp) (by simp))
  | retaken hcall _ =>
    have ht := hidle _ hcall rfl
    refine .inr (hafter.congr rfl (by simp) ?_)
    exact congrArg IpcThread.error (Ipc.setError_of_ne _ _ _ ht)
  | taken hcall _ _ =>
    have ht := hidle _ hcall rfl
    refine .inr (hafter.congr rfl (by simp) ?_)
    exact congrArg IpcThread.error (Ipc.setError_of_ne _ _ _ ht)
  | @semWaits u s time hcall _ =>
    by_cases ht : t = u
    · have hawake := hafter.awake
      rw [ht, Ipc.park_self] at hawake
      exact absurd hawake.symm Bool.false_ne_true
    · refine .inr (hafter.congr (Function.update_of_ne ht ..) ?_ ?_)
      · rw [Ipc.park_of_ne _ _ _ _ _ ht, Ipc.setError_of_ne _ _ _ ht]
      · rw [Ipc.park_of_ne _ _ _ _ _ ht, Ipc.setError_of_ne _ _ _ ht]
  | @mutexWaits u m time hcall _ _ =>
    by_cases ht : t = u
    · have hawake := hafter.awake
      rw [ht, Ipc.park_self] at hawake
      exact absurd hawake.symm Bool.false_ne_true
    · refine .inr (hafter.congr (Function.update_of_ne ht ..) ?_ ?_)
      · rw [Ipc.park_of_ne _ _ _ _ _ ht]
        simp
      · rw [Ipc.park_of_ne _ _ _ _ _ ht, (Ipc.inherit_fields _ _ _ t).2.2.2.1,
          Ipc.setError_of_ne _ _ _ ht]
  | releasedOnce _ _ _ => exact .inr (hafter.congr rfl (by simp) (by simp))
  | handed _ _ _ hqueue =>
    exact .inr (hwake _ _ rfl rfl ⟨_, hqueue ▸ List.mem_cons_self⟩ fun u => ⟨by simp, by simp⟩)
  | freed _ _ _ _ => exact .inr (hafter.congr rfl (by simp) (by simp))
  | @sleep u hcall =>
    by_cases ht : t = u
    · have hawake := hafter.awake
      rw [ht, Ipc.sleep_self] at hawake
      exact absurd hawake.symm Bool.false_ne_true
    · refine .inr (hafter.congr (Function.update_of_ne ht ..) ?_ ?_)
      · rw [Ipc.sleep_of_ne _ _ ht]
      · rw [Ipc.sleep_of_ne _ _ ht]
  | semGiven hqueue =>
    exact .inr (hwake _ _ rfl rfl ⟨_, hqueue ▸ List.mem_cons_self⟩ fun u => ⟨rfl, rfl⟩)
  | semKept _ => exact .inr (hafter.congr rfl (by simp) (by simp))
  | @timeout u _ =>
    by_cases ht : t = u
    · exact .inl (congrArg IpcEvent.timeout ht.symm)
    · refine .inr (hafter.congr rfl ?_ ?_)
      · rw [Ipc.setError_of_ne _ _ _ ht, Ipc.wake_of_ne _ _ ht]
      · rw [Ipc.setError_of_ne _ _ _ ht, Ipc.wake_of_ne _ _ ht]
  | @goOn u c' _ _ =>
    have ht : t ≠ u := by
      rintro rfl
      have hnone : Function.update y.waiting t none t = some c := hafter.waiting
      rw [Function.update_self] at hnone
      exact Option.some_ne_none c hnone.symm
    refine .inr (hafter.congr (Function.update_of_ne ht ..) (by simp) ?_)
    rw [Ipc.setError_of_ne _ _ _ ht]

/-- No call fails at once because time is over if the thread would wait. -/
theorem call_result_ne {i : Ipc} {n : ℕ} (hn : c.ticks = some n) :
    (i.call t c).2 ≠ some (-rtEtimeout) := by
  have hok : some rtEok ≠ some (-rtEtimeout) := fun h => timeout_ne_ok (Option.some.inj h).symm
  cases c with
  | semTake s time =>
    have htime : ¬time = 0 := (ticks_eq_some hn).1.ne'
    unfold Ipc.call Ipc.semTake
    dsimp only
    rw [if_neg htime]
    split_ifs
    · exact hok
    · exact (Option.some_ne_none _).symm
  | mutexTake m time =>
    have htime : ¬time = 0 := (ticks_eq_some hn).1.ne'
    unfold Ipc.call Ipc.mutexTake
    dsimp only
    rw [if_neg htime]
    split_ifs
    · exact hok
    · exact hok
    · exact (Option.some_ne_none _).symm
  | mutexRelease m | sleep => exact absurd hn.symm (Option.some_ne_none n)

/-- Who returns because time is over was timed out. -/
theorem ipcStep_returns_timeout {n : ℕ} (hn : c.ticks = some n) (hstep : ipcStep y e = some y')
    (hlog : y'.log = ⟨t, c, -rtEtimeout⟩ :: y.log) : e = .goOn t ∧ y.TimedOut t c := by
  have hsame : y'.log ≠ y.log := fun heq => List.cons_ne_self _ _ (hlog.symm.trans heq)
  unfold ipcStep at hstep
  cases e with
  | startup u | timeout u =>
    dsimp only at hstep
    split_ifs at hstep
    exact absurd (congrArg System.log (Option.some.inj hstep)).symm hsame
  | semRelease s => exact absurd (congrArg System.log (Option.some.inj hstep)).symm hsame
  | call u c' =>
    dsimp only at hstep
    split_ifs at hstep
    rw [← Option.some.inj hstep] at hlog hsame
    unfold System.finish at hlog hsame
    split at hlog
    · next result hresult =>
      obtain ⟨rfl, rfl, rfl⟩ := Returned.mk.inj (List.cons.inj hlog).1
      exact absurd hresult (call_result_ne hn)
    · exact absurd hlog.symm (List.cons_ne_self _ _)
  | goOn u =>
    dsimp only at hstep
    split_ifs at hstep with hawake
    obtain ⟨c', hc', rfl⟩ := Option.map_eq_some_iff.mp hstep
    obtain ⟨rfl, rfl, hresult⟩ := Returned.mk.inj (List.cons.inj hlog).1
    refine ⟨rfl, hc', Bool.eq_false_iff.mpr hawake, ?_⟩
    cases c' with
    | semTake s time | mutexTake m time => exact hresult
    | mutexRelease m | sleep => exact absurd hn.symm (Option.some_ne_none n)

end Step

section Kernel

variable {y y' : System Kernel} {e : KernelEvent} {t : ThreadId} {c : Call}

/-- A thread has timed out by the timeout that strikes it, or had before. -/
theorem HostOk.timedOut_before (h : HostOk y) (hstep : kernelStep y e = some y')
    {o : IpcObject} (hc : c.object = some o) (hafter : (y'.map Kernel.ipc).TimedOut t c) :
    e = .timeout t ∨ (y.map Kernel.ipc).TimedOut t c := by
  have hspec := (kernelStep_spec h.kernel.ok h.kernel.initPriority hstep).2
  cases he : e.ipc y with
  | none =>
    rw [he] at hspec
    exact .inr (hspec ▸ hafter)
  | some e' =>
    rw [he] at hspec
    rcases ipcStep_timedOut (y := y.map Kernel.ipc) h.waitsOk hspec hc hafter with rfl | hbefore
    · left
      cases e <;> cases he
      rfl
    · exact .inr hbefore

/-- Only a thread that has timed out comes back with that error. -/
theorem HostOk.returns_timeout (h : HostOk y) {n : ℕ} (hn : c.ticks = some n)
    (hstep : kernelStep y e = some y') (hlog : y'.log = ⟨t, c, -rtEtimeout⟩ :: y.log) :
    e = .goOn ∧ y.state.currentThread = t ∧ (y.map Kernel.ipc).TimedOut t c := by
  have hspec := (kernelStep_spec h.kernel.ok h.kernel.initPriority hstep).2
  cases he : e.ipc y with
  | none =>
    rw [he] at hspec
    have hsame : y'.log = y.log := congrArg (fun y : System Ipc => y.log) hspec
    exact absurd (hlog.symm.trans hsame) (List.cons_ne_self _ _)
  | some e' =>
    rw [he] at hspec
    obtain ⟨rfl, hbefore⟩ := ipcStep_returns_timeout (y := y.map Kernel.ipc) hn hspec hlog
    cases e with
    | goOn => exact ⟨rfl, IpcEvent.goOn.inj (Option.some.inj he), hbefore⟩
    | startup u | call c' | semRelease s | timeout u => exact absurd (Option.some.inj he) (by simp)
    | tickYield | schedule => exact absurd he.symm (Option.some_ne_none _)

end Kernel

/-! ## The last ring -/

/-- The alarm of `t` has rung after as many ticks as it was set for, and nothing happened to it since. -/
def LastRing (history : List (Event TimerId)) (t : TimerId) (n : ℕ) : Prop :=
  ∃ before since later, history = before ++ .ring t :: later ∧ SetSince before t n since ∧
    since.count .tick = n ∧ ∀ e ∈ later, e.alarm ≠ some t

/-- Events of other timers change nothing about the last ring. -/
theorem LastRing.append {history events : List (Event TimerId)} {t : TimerId} {n : ℕ}
    (h : LastRing history t n) (hevents : ∀ e ∈ events, e.alarm ≠ some t) :
    LastRing (history ++ events) t n := by
  obtain ⟨before, since, later, rfl, hset, hcount, hlater⟩ := h
  refine ⟨before, since, later ++ events, by simp, hset, hcount, fun e he => ?_⟩
  exact (List.mem_append.mp he).elim (hlater e) (hevents e)

/-- In the tick that leads from `y` to `y'` the alarm of `t` has rung, and nothing else happened to it. -/
def RungNow (y y' : TimedKernel) (t : ThreadId) : Prop :=
  ∃ sooner later, y'.history = y.history ++ (sooner ++ .ring t :: later) ∧
    (∀ e ∈ sooner, e.alarm ≠ some t) ∧ sooner.count .tick = 1 ∧ ∀ e ∈ later, e.alarm ≠ some t

/-- The alarm rings. -/
theorem Untouched.rungNow {y y' : TimedKernel} {t : ThreadId} (h : Untouched y y' t 1)
    {host : System Kernel} {s : Timers} : RungNow y ⟨host, s, y'.history ++ [.ring t]⟩ t := by
  obtain ⟨sooner, hsooner, hnot, hcount⟩ := h
  refine ⟨sooner, [], ?_, hnot, hcount, fun e he => absurd he List.not_mem_nil⟩
  dsimp only
  rw [hsooner, List.append_assoc]

/-- Nor do they when they come behind the tick. -/
theorem RungNow.untouched {y y' y'' : TimedKernel} {t : ThreadId} {k : ℕ} (h : RungNow y y' t)
    (huntouched : Untouched y' y'' t k) : RungNow y y'' t := by
  obtain ⟨sooner, later, hhistory, hnot, hcount, hlater⟩ := h
  obtain ⟨after, hafter, hnot', -⟩ := huntouched
  refine ⟨sooner, later ++ after, ?_, hnot, hcount, fun e he => ?_⟩
  · rw [hafter, hhistory]
    simp
  · exact (List.mem_append.mp he).elim (hlater e) (hnot' e)

section Timed

variable {now : ℕ} {y y' : TimedKernel} {e : KernelEvent} {cs : List TimerCall} {fuel : ℕ}
  {t : ThreadId} {c : Call} {n : ℕ}

/-- A step of the kernel whose calls are stops, or of the thread that has just made a call. -/
theorem TimedOk.timedOut_kernelCalls {ringing : Bool} (hok : TimedOk now ringing y)
    (htimeout : ∀ t, e ≠ .timeout t)
    (hcs : (∃ threads : List ThreadId, cs = threads.map .stop) ∨
      ∃ c, e = .call c ∧ ∀ c ∈ cs, c.timer = y.host.state.currentThread)
    (hstep : Rtos.kernelCalls y e cs = some y') (hn : c.ticks = some n)
    (hafter : (y'.host.map Kernel.ipc).TimedOut t c) :
    (y.host.map Kernel.ipc).TimedOut t c ∧ Untouched y y' t 0 := by
  obtain ⟨host, hhost, hcalls⟩ := Option.bind_eq_some_iff.mp hstep
  rw [calls_host hcalls] at hafter
  obtain ⟨o, ho⟩ := Call.object_of_ticks hn
  have hbefore := (hok.host.timedOut_before hhost ho hafter).resolve_left (htimeout t)
  have hoff : (y.timers.timer t).activated = false := by
    have htimer : y.host.state.ipc.flag t = false := Bool.eq_false_iff.mpr fun htimer =>
      Bool.false_ne_true (hbefore.awake.symm.trans (hok.host.waitsOk.timer t htimer))
    rw [hok.flag] at htimer
    exact htimer
  refine ⟨hbefore, calls_untouched (y := { y with host := host }) hcalls fun call hcall => ?_⟩
  rcases hcs with ⟨threads, rfl⟩ | ⟨c', rfl, hcs⟩
  · obtain ⟨u, -, rfl⟩ := List.mem_map.mp hcall
    by_cases hu : u = t
    · exact .inr ⟨congrArg TimerCall.stop hu, hoff⟩
    · exact .inl hu
  · refine .inl fun ht => ?_
    have hwaiting : y.host.waiting t = some c := hbefore.waiting
    rw [← ht, hcs call hcall, (hok.host.caller hhost).1] at hwaiting
    exact Option.some_ne_none c hwaiting.symm

/-- Only its own timer makes a waiting thread time out. -/
theorem TimedOk.timedOut_runTimer (hok : TimedOk now true y) {u : TimerId}
    (hdue : y.timers.NextDue u) (hrun : Rtos.runTimer threadTimeout y u = some y')
    (hn : c.ticks = some n) (hafter : (y'.host.map Kernel.ipc).TimedOut t c) :
    (y.host.map Kernel.ipc).TimedOut t c ∧ Untouched y y' t 0 ∨ u = t ∧ Waits y t c n := by
  obtain ⟨m, host, htimeout, hschedule, rfl⟩ := hok.runTimer_eq hdue hrun
  obtain ⟨o, ho⟩ := Call.object_of_ticks hn
  have hm := ((hok.host.step htimeout).timedOut_before hschedule ho hafter).resolve_left (by simp)
  by_cases hu : u = t
  · subst hu
    have hspec := (kernelStep_spec hok.host.kernel.ok hok.host.kernel.initPriority htimeout).2
    have hwaiting : y.host.waiting u = some c :=
      (ipcStep_waiting hspec hm.waiting).resolve_right (by simp)
    exact .inr ⟨rfl, hok.host.waitsOk.timer u (hok.due_flag hdue), hwaiting, hn⟩
  · have hne : KernelEvent.timeout u ≠ .timeout t := fun heq => hu (KernelEvent.timeout.inj heq)
    have hbefore := (hok.host.timedOut_before htimeout ho hm).resolve_left hne
    exact .inl ⟨hbefore, .event fun heq => hu (Option.some.inj heq)⟩

/-- Who has timed out after a tick had done so before, or was waiting and its timer has rung. -/
theorem TimedOk.timedOut_tick (hok : TimedOk now false y)
    (htick : rtTickIncrease threadTimeout fuel y = some y') (hn : c.ticks = some n)
    (hafter : (y'.host.map Kernel.ipc).TimedOut t c) :
    (y.host.map Kernel.ipc).TimedOut t c ∧ Untouched y y' t 1 ∨ Waits y t c n ∧ RungNow y y' t := by
  obtain ⟨m, hcheck, rfl⟩ := Option.map_eq_some_iff.mp htick
  obtain ⟨⟨-, -, hm⟩, -⟩ := rtTimerCheck_rule (P := fun m => TimedOk now true m ∧ StillWait y m 1 ∧
    ((m.host.map Kernel.ipc).TimedOut t c →
      (y.host.map Kernel.ipc).TimedOut t c ∧ Untouched y m t 1 ∨ Waits y t c n ∧ RungNow y m t))
    (fun m u m' hm hdue hrun => by
      obtain ⟨hmok, hstill, hm⟩ := hm
      refine ⟨hmok.runTimer hdue hrun, hstill.runTimer hmok hdue hrun, fun hafter => ?_⟩
      rcases hmok.timedOut_runTimer hdue hrun hn hafter with ⟨hbefore, huntouched⟩ | ⟨rfl, hw⟩
      · rcases hm hbefore with ⟨hfirst, hfrom⟩ | ⟨hfirst, hrung⟩
        · exact .inl ⟨hfirst, hfrom.trans huntouched⟩
        · exact .inr ⟨hfirst, hrung.untouched huntouched⟩
      · obtain ⟨k, host, -, -, rfl⟩ := hmok.runTimer_eq hdue hrun
        obtain ⟨hfirst, hfrom⟩ := hstill u c n hw
        exact .inr ⟨hfirst, hfrom.rungNow⟩)
    ⟨hok.ticked, stillWait_ticked y, fun hafter => .inl ⟨hafter, .event (Option.some_ne_none t).symm⟩⟩
    hcheck
  have hquiet : Untouched m ⟨m.host, m.timers, m.history ++ [.quiet]⟩ t 0 :=
    .event (e := .quiet) (Option.some_ne_none t).symm
  rcases hm hafter with ⟨hbefore, huntouched⟩ | ⟨hbefore, hrung⟩
  · exact .inl ⟨hbefore, huntouched.trans hquiet⟩
  · exact .inr ⟨hbefore, hrung.untouched hquiet⟩

/-- With timers: a thread has timed out by a tick at which its timer rings, or had before. -/
theorem TimedOk.timedOut_step (hok : TimedOk now false y) {e : TimedEvent}
    (hstep : timedStep fuel y e = some y') (hn : c.ticks = some n)
    (hafter : (y'.host.map Kernel.ipc).TimedOut t c) :
    (y.host.map Kernel.ipc).TimedOut t c ∧ Untouched y y' t ([e].count .tick) ∨
      e = .tick ∧ Waits y t c n ∧ RungNow y y' t := by
  rcases timedStep_cases hstep with
    ⟨e', rfl, -, htimeout, hcalls⟩ | ⟨tick, rfl, hcalls⟩ | ⟨rfl, htick⟩
  · refine .inl (hok.timedOut_kernelCalls htimeout ?_ hcalls hn hafter)
    rcases timerCalls_cases y.host.state e' with hcs | ⟨c, time, rfl, hcs, -⟩
    · exact .inl hcs
    · refine .inr ⟨c, rfl, ?_⟩
      rw [hcs]
      exact waitCalls_timer
  · exact .inl (hok.timedOut_kernelCalls (by simp) (.inr ⟨_, rfl, sleepCalls_timer⟩) hcalls hn hafter)
  · rcases hok.timedOut_tick htick hn hafter with hbefore | hrung
    · exact .inl hbefore
    · exact .inr ⟨rfl, hrung⟩

/-- No call returns in a tick. -/
theorem TimedOk.tick_log (hok : TimedOk now false y)
    (htick : rtTickIncrease threadTimeout fuel y = some y') : y'.host.log = y.host.log := by
  obtain ⟨m, hcheck, rfl⟩ := Option.map_eq_some_iff.mp htick
  refine (rtTimerCheck_rule (P := fun m => TimedOk now true m ∧ m.host.log = y.host.log)
    (fun m t m' h hdue hrun => ⟨h.1.runTimer hdue hrun, ?_⟩) ⟨hok.ticked, rfl⟩ hcheck).1.2
  obtain ⟨k, host, htimeout, hschedule, rfl⟩ := h.1.runTimer_eq hdue hrun
  unfold kernelStep at htimeout hschedule
  dsimp only at htimeout hschedule
  split_ifs at htimeout
  rw [← Option.some.inj hschedule, ← Option.some.inj htimeout]
  exact h.2

/-- And only such a thread comes back with that error. -/
theorem TimedOk.returns_timeout (hok : TimedOk now false y) {e : TimedEvent}
    (hstep : timedStep fuel y e = some y') (hn : c.ticks = some n)
    (hlog : y'.host.log = ⟨t, c, -rtEtimeout⟩ :: y.host.log) :
    e = .kernel .goOn ∧ y.host.state.currentThread = t ∧ (y.host.map Kernel.ipc).TimedOut t c := by
  rcases timedStep_cases hstep with
    ⟨e', rfl, -, -, hcalls⟩ | ⟨tick, rfl, hcalls⟩ | ⟨rfl, htick⟩
  · obtain ⟨host, hhost, hcalls⟩ := Option.bind_eq_some_iff.mp hcalls
    rw [calls_host hcalls] at hlog
    obtain ⟨rfl, hbefore⟩ := hok.host.returns_timeout hn hhost hlog
    exact ⟨rfl, hbefore⟩
  · obtain ⟨host, hhost, hcalls⟩ := Option.bind_eq_some_iff.mp hcalls
    rw [calls_host hcalls] at hlog
    obtain ⟨he, -⟩ := hok.host.returns_timeout hn hhost hlog
    exact absurd he (by simp)
  · exact absurd (hlog.symm.trans (hok.tick_log htick)) (List.cons_ne_self _ _)

end Timed

/-- The thread made the call in the state `m`, which set its timer for `n` ticks; it rang in the `n`th
tick since, and nothing else has happened to it. -/
structure RungInCall (fuel : ℕ) (boot : TimedKernel) (events : List TimedEvent) (y : TimedKernel)
    (t : ThreadId) (c : Call) (n : ℕ) (m : TimedKernel) (after later : List TimedEvent) : Prop where
  inCall : InCall fuel boot events t c m (after ++ .tick :: later)
  ticks : after.count .tick + 1 = n
  rung : ∃ new, y.history = m.history ++ new ∧ LastRing new t n

section RungInCall

variable {now fuel : ℕ} {boot y y' : TimedKernel} {events : List TimedEvent} {e : TimedEvent}
  {t : ThreadId} {c : Call} {n : ℕ} {m : TimedKernel} {after later : List TimedEvent}

/-- The timer rings. -/
theorem SetInCall.rung (h : SetInCall fuel boot events y t c n m after)
    (hrun : timedRun fuel boot events = some y) (hstep : timedStep fuel y .tick = some y')
    (hok : TimedOk now false y') (hn : c.ticks = some n) (hwaiting : y'.host.waiting t = some c)
    (hrung : RungNow y y' t) : RungInCall fuel boot (events ++ [.tick]) y' t c n m after [] := by
  obtain ⟨new, since, hnew, hsince, hcount⟩ := h.set
  obtain ⟨sooner, later, hhistory, hnot, htick, hlater⟩ := hrung
  have hset : SetSince (new ++ sooner) t n (since ++ sooner) := hsince.append hnot
  have hcount' : (since ++ sooner).count .tick = after.count .tick + 1 := by
    rw [List.count_append, hcount, htick]
  have heq : y'.history = m.history ++ ((new ++ sooner) ++ .ring t :: later) := by
    rw [hhistory, hnew]
    simp
  -- alarms are on time, and this one was last set when the call was made
  obtain ⟨clock, hclock, -, -⟩ := hok.sound
  rw [heq, ← List.append_assoc] at hclock
  obtain ⟨n', since', hset', hring⟩ := rings_on_time hclock
  obtain ⟨rfl, rfl⟩ := setSince_unique (hset.prepend m.history) hset'
  have hpos := Call.ticks_pos hn
  have hticks : (since ++ sooner).count .tick = n := by omega
  exact ⟨h.inCall.concat hrun hstep hwaiting, hcount'.symm.trans hticks, _, heq,
    new ++ sooner, since ++ sooner, later, rfl, hset, hticks, hlater⟩

/-- One more step before the call returns. -/
theorem RungInCall.concat (h : RungInCall fuel boot events y t c n m after later)
    (hrun : timedRun fuel boot events = some y) (hstep : timedStep fuel y e = some y')
    (hwaiting : y'.host.waiting t = some c) {k : ℕ} (huntouched : Untouched y y' t k) :
    RungInCall fuel boot (events ++ [e]) y' t c n m after (later ++ [e]) where
  inCall := by
    have hconcat := h.inCall.concat hrun hstep hwaiting
    rwa [List.append_assoc, List.cons_append] at hconcat
  ticks := h.ticks
  rung := by
    obtain ⟨new, hnew, hring⟩ := h.rung
    obtain ⟨new', hnew', hnot, -⟩ := huntouched
    exact ⟨new ++ new', by rw [hnew', hnew, List.append_assoc], hring.append hnot⟩

/-- Who has timed out is in a call that has set his timer, which has rung. -/
def Expired (fuel : ℕ) (boot : TimedKernel) (events : List TimedEvent) (y : TimedKernel) : Prop :=
  ∀ t c n, (y.host.map Kernel.ipc).TimedOut t c → c.ticks = some n →
    ∃ m after later, RungInCall fuel boot events y t c n m after later

/-- Every step keeps a call for each thread that has timed out, in which its timer rang. -/
theorem Expired.step (h : Expired fuel boot events y) (hwaits : WaitsInCall fuel boot events y)
    (hok : TimedOk now false y) (hrun : timedRun fuel boot events = some y)
    (hstep : timedStep fuel y e = some y') : Expired fuel boot (events ++ [e]) y' := by
  intro t c n hafter hn
  have hwaiting : y'.host.waiting t = some c := hafter.waiting
  rcases hok.timedOut_step hstep hn hafter with ⟨hbefore, huntouched⟩ | ⟨rfl, hw, hrung⟩
  · obtain ⟨m, after, later, hm⟩ := h t c n hbefore hn
    exact ⟨m, after, later ++ [e], hm.concat hrun hstep hwaiting huntouched⟩
  · obtain ⟨m, after, hm⟩ := hwaits t c n hw
    exact ⟨m, after, [], hm.rung hrun hstep (hok.step hstep) hn hwaiting hrung⟩

end RungInCall

section Runs

variable {k : Kernel} {threads : List ThreadId} (hinit : k.Initial) (hnodup : threads.Nodup)
  (hcurrent : k.currentThread ∉ threads) (hne : threads ≠ []) {now : ℕ} {y y' y'' : TimedKernel}
  (h : TimedStartup k threads now y) {fuel : ℕ} {events : List TimedEvent}
include hinit hnodup hcurrent hne h

/-- So there is one in every state of a run. -/
theorem timedRun_expired (hrun : timedRun fuel y events = some y') : Expired fuel y events y' := by
  have hstart : Expired fuel y [] y := by
    intro t c n hafter
    have hwaiting := hafter.waiting
    rw [h.host] at hwaiting
    exact absurd hwaiting.symm (Option.some_ne_none c)
  refine (run_rule (P := fun events m => timedRun fuel y events = some m ∧ Expired fuel y events m)
    (fun before m e m' hm _ hstep => ?_) ⟨rfl, hstart⟩ (each_true y events) hrun).2
  obtain ⟨hbefore, hexpired⟩ := hm
  have hok := timedRun_ok hinit hnodup hcurrent hne h hbefore
  have hwaits := timedRun_waitsInCall hinit hnodup hcurrent hne h hbefore
  refine ⟨?_, hexpired.step hwaits hok hbefore hstep⟩
  exact run_append_eq_some.mpr ⟨m, hbefore, run_cons_eq_some.mpr ⟨m', hstep, rfl⟩⟩

/-- Whatever the threads and interrupts do: a call that was to wait for `n` ticks at most returns
`-RT_ETIMEOUT` only when its thread goes on after the timer that it has set rang, in the `n`th tick. -/
theorem timedRun_timeout (hrun : timedRun fuel y events = some y') {e : TimedEvent}
    (hstep : timedStep fuel y' e = some y'') {t : ThreadId} {c : Call}
    (hlog : y''.host.log = ⟨t, c, -rtEtimeout⟩ :: y'.host.log) {n : ℕ} (hn : c.ticks = some n) :
    e = .kernel .goOn ∧ y'.host.state.currentThread = t ∧
      ∃ m after later, RungInCall fuel y events y' t c n m after later := by
  have hok := timedRun_ok hinit hnodup hcurrent hne h hrun
  obtain ⟨he, hcurrent', hafter⟩ := hok.returns_timeout hstep hn hlog
  exact ⟨he, hcurrent', timedRun_expired hinit hnodup hcurrent hne h hrun t c n hafter hn⟩

omit hinit hnodup hcurrent hne h in
/-- A wait of two ticks, with a time slice that ends in between. -/
theorem timedRun_timeout_goOn :
    ∃ y y', timedRun 2 timersOff
      [.kernel (.call (.semTake 0 2)), .kernel .schedule, .tick, .kernel .tickYield, .tick] = some y ∧
        timedStep 2 y (.kernel .goOn) = some y' ∧
          y'.host.log = [⟨1, .semTake 0 2, -rtEtimeout⟩] ∧
            ∃ m after later, RungInCall 2 timersOff
              [.kernel (.call (.semTake 0 2)), .kernel .schedule, .tick, .kernel .tickYield, .tick] y 1
              (.semTake 0 2) 2 m after later := by
  have hlogs : ((timedRun 2 timersOff
      [.kernel (.call (.semTake 0 2)), .kernel .schedule, .tick, .kernel .tickYield, .tick]).bind
        fun y => (timedStep 2 y (.kernel .goOn)).map fun y' => (y.host.log, y'.host.log)) =
      some ([], [⟨1, .semTake 0 2, -rtEtimeout⟩]) := by decide +kernel
  obtain ⟨y, hy, hnext⟩ := Option.bind_eq_some_iff.mp hlogs
  obtain ⟨y', hy', hlog⟩ := Option.map_eq_some_iff.mp hnext
  obtain ⟨hbefore, hafter⟩ := Prod.mk.inj hlog
  have hreturns : y'.host.log = ⟨1, .semTake 0 2, -rtEtimeout⟩ :: y.host.log := by
    rw [hafter, hbefore]
  obtain ⟨-, -, hrung⟩ := timedRun_timeout mainAndIdle_initial (by decide) (by decide) (by decide)
    timersOff_startup hy hy' hreturns rfl
  exact ⟨y, y', hy, hy', hafter, hrung⟩

end Runs

end Stm32Board.Rtos
