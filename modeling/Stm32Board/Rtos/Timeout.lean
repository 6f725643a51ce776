import Stm32Board.Rtos.Mutex
import Stm32Board.Rtos.Stop
import Stm32Board.Rtos.Tick

/-!
# The timers of the threads

The kernel with the timers of its threads: `thread_timer` of the thread `t` is the timer `t`. A thread that
waits starts its timer, one that is resumed has it stopped, and one whose timer runs out is woken by
`rt_thread_timeout` from the tick.

The flags of the timers are those that the kernel has without them (`kernelStep_flag`), and who waits for a
number of ticks at most has his timer running (`ipcStep_timersRun`).
-/

namespace Stm32Board.Rtos

open Common Common.Alarms
open Common.Transition (run run_append_eq_some run_invariant run_cons_eq_some run_nil_eq_some run_rule
  each_of_forall)

abbrev TimedKernel : Type := TimerSystem (System Kernel)

/-- `rt_thread_timeout`, with the `rt_schedule()` at its end. No result means that its assertion fails. -/
def threadTimeout (t : TimerId) (y : System Kernel) (_ : Timers) :
    Option (System Kernel × List TimerCall) :=
  if (y.state.thread t).stat = .suspend then
    some ({ y with state := rtSchedule (rtThreadTimeout y.state t) }, [])
  else none

/-- `rt_thread_suspend` stops the timer, which is started if the thread does not wait forever. -/
def waitCalls (t : ThreadId) (time : ℤ) : List TimerCall :=
  .stop t :: if time > 0 then [.setTime t (UInt32.ofInt time), .start t] else []

/-- `rt_thread_sleep`. -/
def sleepCalls (t : ThreadId) (tick : UInt32) : List TimerCall := [.stop t, .setTime t tick, .start t]

/-- `rt_thread_resume` of the first thread stops its timer. -/
def resumeCalls (threads : List ThreadId) : List TimerCall :=
  threads.head?.toList.map .stop

/-- What a step of the kernel does to the timers. -/
def KernelEvent.timerCalls (k : Kernel) : KernelEvent → List TimerCall
  | .startup t => [.stop t]
  | .call (.semTake s time) =>
    if (k.sem s).value > 0 ∨ time = 0 then [] else waitCalls k.currentThread time
  | .call (.mutexTake m time) =>
    if (k.mutex m).owner = some k.currentThread ∨ (k.mutex m).value > 0 ∨ time = 0 then []
    else waitCalls k.currentThread time
  | .call (.mutexRelease m) =>
    if (k.mutex m).owner = some k.currentThread ∧ (k.mutex m).hold - 1 = 0 then
      resumeCalls (k.list (.suspend (.mutex m)))
    else []
  | .semRelease s => resumeCalls (k.list (.suspend (.sem s)))
  | .call .sleep | .timeout _ | .goOn | .tickYield | .schedule => []

/-- What can happen: a step of the kernel other than a timeout, a sleep for a number of ticks, or a tick. -/
inductive TimedEvent where
  | kernel (e : KernelEvent)
  | sleep (tick : UInt32)
  | tick
deriving DecidableEq, Repr

/-- A step of the kernel, with its calls. -/
def kernelCalls (y : TimedKernel) (e : KernelEvent) (cs : List TimerCall) : Option TimedKernel :=
  (kernelStep y.host e).bind fun host => TimerSystem.calls { y with host := host } cs

def timedStep (fuel : ℕ) (y : TimedKernel) : TimedEvent → Option TimedKernel
  | .kernel (.timeout _) | .kernel (.call .sleep) => none
  | .kernel e => kernelCalls y e (e.timerCalls y.host.state)
  | .sleep tick => kernelCalls y (.call .sleep) (sleepCalls y.host.state.currentThread tick)
  | .tick => rtTickIncrease threadTimeout fuel y

def timedRun (fuel : ℕ) (y : TimedKernel) (events : List TimedEvent) : Option TimedKernel :=
  events.foldlM (timedStep fuel) y

/-! ## The flags -/

/-- What a call does to the flags of the timers. -/
def TimerCall.flag (flag : TimerId → Bool) : TimerCall → TimerId → Bool
  | .start t => Function.update flag t true
  | .stop t => Function.update flag t false
  | .setTime _ _ | .setOneshot _ | .setPeriodic _ => flag

def flagsAfter (flag : TimerId → Bool) (cs : List TimerCall) : TimerId → Bool :=
  cs.foldl TimerCall.flag flag

def Timers.flag (s : Timers) (t : TimerId) : Bool := (s.timer t).activated

/-- The flag after an accepted call. -/
theorem call_flag {s s' : Timers} {call : TimerCall} (h : s.call call = some s') :
    s'.flag = call.flag s.flag := by
  funext t
  cases call with
  | start u =>
    obtain ⟨-, -, htimer, hother, -⟩ := rtTimerStart_eq_some h
    by_cases hu : t = u
    · rw [hu, TimerCall.flag, Function.update_self, Timers.flag, htimer]
    · rw [TimerCall.flag, Function.update_of_ne hu, Timers.flag, hother t hu]
      rfl
  | stop u =>
    obtain rfl := Option.some.inj h
    rw [TimerCall.flag, rtTimerStop, Timers.flag]
    by_cases hu : t = u
    · rw [hu, Function.update_self]
      split_ifs with hact
      · rw [Timers.setTimer_timer_self]
      · exact Bool.eq_false_iff.mpr hact
    · rw [Function.update_of_ne hu]
      split_ifs
      · rw [Timers.setTimer_timer_of_ne _ hu]
        rfl
      · rfl
  | setTime u tick | setOneshot u | setPeriodic u =>
    obtain rfl := Option.some.inj h
    exact s.setTimer_field Timer.activated u t fun _ => rfl

/-! ## What happens to an alarm -/

section Untouched

variable {σ : Type} {y y' y'' : TimerSystem σ} {t : TimerId} {j k : ℕ}

/-- Since `y`, in `k` ticks, nothing has happened to the alarm of `t`. -/
def Untouched (y y' : TimerSystem σ) (t : TimerId) (k : ℕ) : Prop :=
  ∃ later, y'.history = y.history ++ later ∧ (∀ e ∈ later, e.alarm ≠ some t) ∧
    later.count .tick = k

theorem Untouched.refl (y : TimerSystem σ) (t : TimerId) : Untouched y y t 0 :=
  ⟨[], (List.append_nil _).symm, fun _ he => absurd he List.not_mem_nil, rfl⟩

/-- What happens later. -/
theorem Untouched.append (h : Untouched y y' t j) {later : List (Event TimerId)}
    (hlater : y''.history = y'.history ++ later ∧ (∀ e ∈ later, e.alarm ≠ some t) ∧
      later.count .tick = k) : Untouched y y'' t (j + k) := by
  obtain ⟨sooner, hsooner, hnot, hcount⟩ := h
  obtain ⟨hhistory, hnot', hcount'⟩ := hlater
  refine ⟨sooner ++ later, by rw [hhistory, hsooner, List.append_assoc], fun e he => ?_, ?_⟩
  · exact (List.mem_append.mp he).elim (hnot e) (hnot' e)
  · rw [List.count_append, hcount, hcount']

/-- What happened first and what happened then. -/
theorem Untouched.trans (h : Untouched y y' t j) (h' : Untouched y' y'' t k) :
    Untouched y y'' t (j + k) := by
  obtain ⟨later, hlater⟩ := h'
  exact h.append hlater

/-- An event that is about another alarm, or about none. -/
theorem Untouched.event {host : σ} {s : Timers} {e : Event TimerId} (he : e.alarm ≠ some t) :
    Untouched y ⟨host, s, y.history ++ [e]⟩ t ([e].count .tick) :=
  ⟨[e], rfl, fun _ he' => List.mem_singleton.mp he' ▸ he, rfl⟩

end Untouched

section Calls

variable {σ : Type} {y y' : TimerSystem σ} {cs : List TimerCall} {t : TimerId}

/-- Calls on timers leave the host as it is. -/
theorem calls_host (h : y.calls cs = some y') : y'.host = y.host :=
  run_invariant (P := fun m => m.host = y.host) (fun m c m' hm hcall => by
    obtain ⟨s, -, rfl⟩ := Option.map_eq_some_iff.mp hcall
    exact hm) rfl h

/-- The flags after a list of accepted calls. -/
theorem calls_flag (h : y.calls cs = some y') : y'.timers.flag = flagsAfter y.timers.flag cs := by
  induction cs generalizing y with
  | nil => rw [run_nil_eq_some.mp h, flagsAfter, List.foldl_nil]
  | cons c cs ih =>
    obtain ⟨m, hm, hrest⟩ := run_cons_eq_some.mp h
    obtain ⟨s, hs, rfl⟩ := Option.map_eq_some_iff.mp hm
    rw [ih hrest, flagsAfter, flagsAfter, List.foldl_cons, call_flag hs]

/-- A call is about one timer. -/
theorem TimerCall.alarm_events (c : TimerCall) (s : Timers) :
    ∀ e ∈ c.events s, e.alarm = some c.timer := by
  cases c with
  | start u => exact fun e he => List.mem_singleton.mp he ▸ rfl
  | stop u =>
    rw [TimerCall.events]
    split_ifs
    · exact fun e he => List.mem_singleton.mp he ▸ rfl
    · exact fun e he => absurd he List.not_mem_nil
  | setTime u tick | setOneshot u | setPeriodic u => exact fun e he => absurd he List.not_mem_nil

/-- No call is a tick. -/
theorem TimerCall.count_tick (c : TimerCall) (s : Timers) : (c.events s).count .tick = 0 := by
  refine List.count_eq_zero.mpr fun hmem => ?_
  exact absurd (c.alarm_events s _ hmem).symm (Option.some_ne_none c.timer)

/-- Calls about other timers, and stops of a timer that does not run, do nothing to the alarm of `t`. -/
theorem calls_untouched (h : y.calls cs = some y')
    (hcs : ∀ c ∈ cs, c.timer ≠ t ∨ c = .stop t ∧ (y.timers.timer t).activated = false) :
    Untouched y y' t 0 := by
  refine (run_rule (P := fun _ m => Untouched y m t 0 ∧
    (m.timers.timer t).activated = (y.timers.timer t).activated)
    (fun _ m c m' hm hc hcall => ?_) ⟨.refl y t, rfl⟩ (each_of_forall (fun c hc _ => hcs c hc) y) h).1
  obtain ⟨s, hs, rfl⟩ := Option.map_eq_some_iff.mp hcall
  obtain ⟨huntouched, hflag⟩ := hm
  rcases hc with ht | ⟨rfl, hoff⟩
  · refine ⟨huntouched.append ⟨rfl, fun e he heq => ht ?_, c.count_tick m.timers⟩, ?_⟩
    · exact Option.some.inj ((c.alarm_events m.timers e he).symm.trans heq)
    · dsimp only
      rw [Timers.call_timer_of_ne ht hs]
      exact hflag
  · -- the timer is off, so nothing is stopped
    have hoff' : ¬(m.timers.timer t).activated := Bool.eq_false_iff.mp (hflag.trans hoff)
    have hsame : s = m.timers := by rw [← Option.some.inj hs, rtTimerStop, if_neg hoff']
    have hnone : (TimerCall.stop t).events m.timers = [] := if_neg hoff'
    rw [hnone, List.append_nil, hsame]
    exact ⟨huntouched, hflag⟩

end Calls

/-! ### The flags of the threads -/

namespace Ipc

variable (i : Ipc) (t : ThreadId)

def flag (i : Ipc) (t : ThreadId) : Bool := (i.thread t).timer

/-- A change of one thread sets one flag. -/
theorem setThread_flag {f : IpcThread → IpcThread} {b : Bool} (hf : (f (i.thread t)).timer = b) :
    (i.setThread t f).flag = Function.update i.flag t b := by
  funext u
  by_cases hu : u = t
  · rw [hu, Function.update_self, flag, setThread_self, hf]
  · rw [Function.update_of_ne hu, flag, setThread_of_ne i t f hu]
    rfl

/-- Waking a thread stops its timer. -/
theorem wake_flag : (i.wake t).flag = Function.update i.flag t false :=
  (i.leave t).setThread_flag t rfl

/-- Parking a thread starts its timer if it waits for a time. -/
theorem park_flag (o : IpcObject) (flag : IpcFlag) (time : ℤ) :
    (i.park t o flag time).flag = Function.update i.flag t (decide (time > 0)) := by
  unfold park
  dsimp only
  exact setThread_flag _ t rfl

/-- A thread starts with its timer stopped. -/
theorem startup_flag : (i.startup t).flag = Function.update i.flag t false := by
  unfold startup
  rw [wake_flag, setThread_flag i t rfl, Function.update_idem]

theorem sleep_flag : (i.sleep t).flag = Function.update i.flag t true := by
  unfold sleep
  exact i.setThread_flag t rfl

/-- Priorities are no matter of the timers. -/
theorem inherit_flag (owner : Option ThreadId) (priority : UInt8) :
    (i.inherit owner priority).flag = i.flag := by
  funext u
  exact (i.inherit_fields owner priority u).2.2.2.2

theorem setError_flag (error : ℤ) : (i.setError t error).flag = i.flag := by
  funext u
  exact (i.setError_fields t error u).2.2.2.2

/-- Nor is a current priority that is set. -/
theorem setPriority_flag (priority : UInt8) : (i.setPriority t priority).flag = i.flag := by
  funext u
  exact (i.setPriority_fields t priority u).2.2.2.2

/-- The calls of a wait set the flag the wait asks for. -/
theorem flagsAfter_waitCalls (flag : ThreadId → Bool) (time : ℤ) :
    flagsAfter flag (waitCalls t time) = Function.update flag t (decide (time > 0)) := by
  unfold waitCalls
  by_cases htime : time > 0
  · rw [if_pos htime, decide_eq_true htime]
    exact Function.update_idem ..
  · rw [if_neg htime, decide_eq_false htime]
    rfl

/-- `rt_sem_take` starts a timer where it suspends the caller with a time. -/
theorem semTake_flag (s : SemId) (time : ℤ) :
    (i.semTake t s time).1.flag =
      flagsAfter i.flag (if (i.sem s).value > 0 ∨ time = 0 then [] else waitCalls t time) := by
  unfold semTake
  dsimp only
  by_cases hvalue : (i.sem s).value > 0
  · rw [if_pos hvalue, if_pos (.inl hvalue)]
    rfl
  by_cases htime : time = 0
  · rw [if_neg hvalue, if_pos htime, if_pos (.inr htime)]
    rfl
  · rw [if_neg hvalue, if_neg htime, if_neg (not_or.mpr ⟨hvalue, htime⟩), park_flag,
      flagsAfter_waitCalls]
    exact congrArg (fun flag => Function.update flag t _) (i.setError_flag t _)

theorem mutexTake_flag (m : MutexId) (time : ℤ) :
    (i.mutexTake t m time).1.flag =
      flagsAfter i.flag (if (i.mutex m).owner = some t ∨ (i.mutex m).value > 0 ∨ time = 0 then []
        else waitCalls t time) := by
  have herror := i.setError_flag t At.rtEok
  unfold mutexTake
  dsimp only
  change (ite ((i.mutex m).owner = some t) _ (ite ((i.mutex m).value > 0) _ (ite (time = 0) _ _))
    : Ipc × Option ℤ).1.flag = _
  by_cases howner : (i.mutex m).owner = some t
  · rw [if_pos howner, if_pos (.inl howner)]
    exact herror
  by_cases hvalue : (i.mutex m).value > 0
  · rw [if_neg howner, if_pos hvalue, if_pos (.inr (.inl hvalue))]
    exact herror
  by_cases htime : time = 0
  · rw [if_neg howner, if_neg hvalue, if_pos htime, if_pos (.inr (.inr htime))]
    exact ((i.setError t At.rtEok).setError_flag t _).trans herror
  · rw [if_neg howner, if_neg hvalue, if_neg htime,
      if_neg (not_or.mpr ⟨howner, not_or.mpr ⟨hvalue, htime⟩⟩), park_flag, flagsAfter_waitCalls,
      inherit_flag]
    exact congrArg (fun flag => Function.update flag t _) herror

/-- Resuming the first in a queue stops its timer. -/
theorem flagsAfter_resumeCalls (flag : ThreadId → Bool) (threads : List ThreadId) :
    flagsAfter flag (resumeCalls threads) =
      match threads with
      | t :: _ => Function.update flag t false
      | [] => flag := by
  cases threads <;> rfl

/-- `rt_sem_release` stops the timer of the thread it wakes. -/
theorem semRelease_flag (s : SemId) :
    (i.semRelease s).flag = flagsAfter i.flag (resumeCalls (i.queue (.sem s))) := by
  rw [flagsAfter_resumeCalls]
  unfold semRelease
  cases i.queue (.sem s) with
  | nil => rfl
  | cons t threads => exact i.wake_flag t

/-- So does handing a mutex on. -/
theorem passOn_flag (m : MutexId) :
    (i.passOn m).flag = flagsAfter i.flag (resumeCalls (i.queue (.mutex m))) := by
  rw [flagsAfter_resumeCalls]
  unfold passOn
  cases i.queue (.mutex m) with
  | nil => rfl
  | cons t threads => exact wake_flag _ t

/-- `rt_mutex_release` does it with the last open take only. -/
theorem mutexRelease_flag (m : MutexId) :
    (i.mutexRelease t m).1.flag =
      flagsAfter i.flag (if (i.mutex m).owner = some t ∧ (i.mutex m).hold - 1 = 0 then
        resumeCalls (i.queue (.mutex m)) else []) := by
  unfold mutexRelease
  dsimp only
  by_cases howner : (i.mutex m).owner = some t
  · by_cases hhold : (i.mutex m).hold - 1 = 0
    · rw [if_neg (not_not.mpr howner), if_pos hhold, if_pos ⟨howner, hhold⟩, passOn_flag]
      exact congrArg (fun flag => flagsAfter flag _)
        ((i.setMutex m { i.mutex m with hold := (i.mutex m).hold - 1 }).setPriority_flag t _)
    · rw [if_neg (not_not.mpr howner), if_neg hhold, if_neg fun h => hhold h.2]
      rfl
  · rw [if_pos howner, if_neg fun h => howner h.1]
    exact i.setError_flag t _

end Ipc

section Flags

variable {y y' : System Kernel} {e : KernelEvent}

/-- A call of the kernel is a call of the system without lists. -/
theorem kernelStep_call_state (h : KernelOk y) {c : Call} (hstep : kernelStep y (.call c) = some y') :
    y'.state.ipc = (y.state.ipc.call y.state.currentThread c).1 := by
  have hspec := (kernelStep_spec h.ok h.initPriority hstep).2
  unfold KernelEvent.ipc ipcStep at hspec
  dsimp only at hspec
  split_ifs at hspec
  have hstate := congrArg System.state (Option.some.inj hspec).symm
  refine hstate.trans ?_
  unfold System.finish
  split <;> rfl

/-- The calls of a step do to the flags of the timers what the step does to those of the threads. -/
theorem kernelStep_flag (h : KernelOk y) (hstep : kernelStep y e = some y')
    (hsleep : e ≠ .call .sleep) (htimeout : ∀ t, e ≠ .timeout t) :
    y'.state.ipc.flag = flagsAfter y.state.ipc.flag (e.timerCalls y.state) := by
  have hspec := (kernelStep_spec h.ok h.initPriority hstep).2
  -- the flags after each function are those after the timer calls it makes
  cases e with
  | startup t =>
    unfold KernelEvent.ipc ipcStep at hspec
    dsimp only at hspec
    split_ifs at hspec
    have hstate := congrArg System.state (Option.some.inj hspec).symm
    exact (congrArg Ipc.flag hstate).trans (Ipc.startup_flag _ t)
  | call c =>
    rw [kernelStep_call_state h hstep]
    cases c with
    | semTake s time => exact Ipc.semTake_flag _ _ s time
    | mutexTake m time => exact Ipc.mutexTake_flag _ _ m time
    | mutexRelease m => exact Ipc.mutexRelease_flag _ _ m
    | sleep => exact absurd rfl hsleep
  | semRelease s =>
    have hstate := congrArg System.state (Option.some.inj hspec).symm
    exact (congrArg Ipc.flag hstate).trans (Ipc.semRelease_flag _ s)
  | timeout t => exact absurd rfl (htimeout t)
  | goOn =>
    unfold KernelEvent.ipc ipcStep at hspec
    dsimp only at hspec
    split_ifs at hspec
    obtain ⟨c, -, hc⟩ := Option.map_eq_some_iff.mp hspec
    have hstate := congrArg System.state hc.symm
    exact (congrArg Ipc.flag hstate).trans (Ipc.setError_flag _ _ _)
  | tickYield => exact congrArg Ipc.flag (congrArg System.state hspec)
  | schedule => exact congrArg Ipc.flag (congrArg System.state hspec)

end Flags

/-! ## Whose timer runs -/

/-- The ticks that a call waits for at most, if not forever. -/
def Call.ticks : Call → Option ℕ
  | .semTake _ time | .mutexTake _ time =>
    if 0 < time ∧ time < 2147483648 then some time.toNat else none
  | .mutexRelease _ | .sleep => none

/-- Who waits for a number of ticks at most has his timer running. -/
def Ipc.TimersRun (i : Ipc) (waiting : ThreadId → Option Call) : Prop :=
  ∀ t c n, (i.thread t).suspended → waiting t = some c → c.ticks = some n → (i.thread t).timer

namespace Ipc.TimersRun

variable {i i' : Ipc} {waiting : ThreadId → Option Call}

/-- It is about two fields of each thread. -/
theorem congr (h : i.TimersRun waiting)
    (hsuspended : ∀ t, (i'.thread t).suspended = (i.thread t).suspended)
    (htimer : ∀ t, (i'.thread t).timer = (i.thread t).timer) : i'.TimersRun waiting := by
  intro t c n hsus
  rw [hsuspended] at hsus
  rw [htimer]
  exact h t c n hsus

/-- A thread that is woken waits no more. -/
theorem wake (h : i.TimersRun waiting) (t : ThreadId) : (i.wake t).TimersRun waiting := by
  intro t' c n hsus
  by_cases ht : t' = t
  · rw [ht, wake_self] at hsus
    exact absurd hsus Bool.false_ne_true
  · rw [i.wake_of_ne t ht] at hsus ⊢
    exact h t' c n hsus

/-- A thread that is parked for a time has its timer running. -/
theorem park (h : i.TimersRun waiting) {c : Call} {time : ℤ}
    (hc : ∀ n, c.ticks = some n → time > 0) (t : ThreadId) (o : IpcObject) (flag : IpcFlag) :
    (i.park t o flag time).TimersRun (Function.update waiting t (some c)) := by
  intro t' c' n
  by_cases ht : t' = t
  · rw [ht, park_self, Function.update_self]
    intro _ hc' hn
    obtain rfl := Option.some.inj hc'
    exact decide_eq_true (hc n hn)
  · rw [i.park_of_ne t o flag time ht, Function.update_of_ne ht]
    exact h t' c' n

/-- Sleeping is no wait for an object. -/
theorem sleep (h : i.TimersRun waiting) (t : ThreadId) :
    (i.sleep t).TimersRun (Function.update waiting t (some .sleep)) := by
  intro t' c' n
  by_cases ht : t' = t
  · rw [ht, sleep_self]
    exact fun _ _ _ => rfl
  · rw [i.sleep_of_ne t ht, Function.update_of_ne ht]
    exact h t' c' n

/-- A thread that is back from its call waits for nothing. -/
theorem back (h : i.TimersRun waiting) (t : ThreadId) :
    i.TimersRun (Function.update waiting t none) := by
  intro t' c' n hsus hc'
  by_cases ht : t' = t
  · rw [ht, Function.update_self] at hc'
    exact absurd hc'.symm (Option.some_ne_none c')
  · rw [Function.update_of_ne ht] at hc'
    exact h t' c' n hsus hc'

end Ipc.TimersRun

/-- The ticks of a wait fit 32 bits. -/
theorem ticks_eq_some {time : ℤ} {n : ℕ}
    (h : (if 0 < time ∧ time < 2147483648 then some time.toNat else none) = some n) :
    0 < time ∧ (UInt32.ofInt time).toNat = n := by
  split_ifs at h with htime
  obtain rfl := Option.some.inj h
  refine ⟨htime.1, ?_⟩
  obtain ⟨m, rfl⟩ := Int.eq_ofNat_of_zero_le htime.1.le
  rw [UInt32.ofInt, UInt32.toNat_ofNat']
  omega

/-- A wait for a number of ticks is one for at least one tick. -/
theorem Call.ticks_pos {c : Call} {n : ℕ} (h : c.ticks = some n) : 0 < n := by
  cases c with
  | semTake s time | mutexTake m time =>
    rw [ticks] at h
    split_ifs at h with htime
    rw [← Option.some.inj h]
    omega
  | mutexRelease m | sleep => exact absurd h.symm (Option.some_ne_none n)

/-- Every step keeps the timers of the waiting threads running. -/
theorem ipcStep_timersRun {y y' : System Ipc} {e : IpcEvent} (h : y.state.TimersRun y.waiting)
    (hstep : ipcStep y e = some y') : y'.state.TimersRun y'.waiting := by
  obtain ⟨_, hcase⟩ := ipcStep_cases hstep
  cases hcase with
  | startup _ => exact (h.congr (by simp) (by simp)).wake _
  | semWaits _ _ =>
    apply Ipc.TimersRun.park
    · exact h.congr (by simp) (by simp)
    · exact fun n hn => (ticks_eq_some hn).1
  | mutexWaits _ _ _ =>
    apply Ipc.TimersRun.park
    · exact h.congr (by simp) (by simp)
    · exact fun n hn => (ticks_eq_some hn).1
  | handed _ _ _ _ => exact (h.congr (by simp) (by simp)).wake _
  | sleep _ => exact h.sleep _
  | semGiven _ => exact h.wake _
  | @timeout t _ => exact (h.wake t).congr (by simp) (by simp)
  | goOn _ _ => exact (h.congr (by simp) (by simp)).back _
  | _ => exact h.congr (by simp) (by simp)

/-- Only its own call makes a thread wait. -/
theorem ipcStep_waiting {y y' : System Ipc} {e : IpcEvent} (hstep : ipcStep y e = some y')
    {t : ThreadId} {c : Call} (hc : y'.waiting t = some c) : y.waiting t = some c ∨ e = .call t c := by
  have hupdate : ∀ t' c', Function.update y.waiting t' (some c') t = some c →
      y.waiting t = some c ∨ IpcEvent.call t' c' = .call t c := by
    intro t' c' h
    by_cases ht : t = t'
    · rw [ht, Function.update_self] at h
      exact .inr (by rw [ht, Option.some.inj h])
    · rw [Function.update_of_ne ht] at h
      exact .inl h
  obtain ⟨_, hcase⟩ := ipcStep_cases hstep
  cases hcase with
  | semWaits _ _ | mutexWaits _ _ _ | sleep _ => exact hupdate _ _ hc
  | @goOn t' c' hawake hwaits =>
    have hne : t ≠ t' := by
      rintro rfl
      have hnone : Function.update y.waiting t none t = some c := hc
      rw [Function.update_self] at hnone
      exact Option.some_ne_none c hnone.symm
    have hother : Function.update y.waiting t' none t = some c := hc
    rw [Function.update_of_ne hne] at hother
    exact .inl hother
  | _ => exact .inl hc

/-! ## What a step of the kernel does -/

/-- What holds of the kernel in every state of a run. -/
structure HostOk (y : System Kernel) : Prop where
  kernel : KernelOk y
  waitsOk : y.state.ipc.WaitsOk y.waiting
  timersRun : y.state.ipc.TimersRun y.waiting

section Host

variable {y y' : System Kernel} {e : KernelEvent} {t : ThreadId}

/-- Every step of the kernel keeps it. -/
theorem HostOk.step (h : HostOk y) (hstep : kernelStep y e = some y') : HostOk y' := by
  have hkernel := kernelSimulation.keep y e y' h.kernel hstep
  have hspec := (kernelStep_spec h.kernel.ok h.kernel.initPriority hstep).2
  cases he : e.ipc y with
  | none =>
    rw [he] at hspec
    have hipc : y'.state.ipc = y.state.ipc := congrArg System.state hspec
    have hwaiting : y'.waiting = y.waiting := congrArg (fun y : System Ipc => y.waiting) hspec
    refine ⟨hkernel, ?_, ?_⟩
    · rw [hipc, hwaiting]
      exact h.waitsOk
    · rw [hipc, hwaiting]
      exact h.timersRun
  | some e' =>
    rw [he] at hspec
    exact ⟨hkernel, ipcStep_waitsOk h.waitsOk hspec, ipcStep_timersRun h.timersRun hspec⟩

/-- Who is suspended and has not just made a call was so before, and in the same call. -/
theorem HostOk.waits_before (h : HostOk y) (hstep : kernelStep y e = some y')
    (hcall : ∀ c, e.ipc y ≠ some (.call t c)) (hsus : (y'.state.ipc.thread t).suspended) {c : Call}
    (hc : y'.waiting t = some c) : (y.state.ipc.thread t).suspended ∧ y.waiting t = some c := by
  have hspec := (kernelStep_spec h.kernel.ok h.kernel.initPriority hstep).2
  cases he : e.ipc y with
  | none =>
    rw [he] at hspec
    have hipc : y'.state.ipc = y.state.ipc := congrArg System.state hspec
    have hwaiting : y'.waiting = y.waiting := congrArg (fun y : System Ipc => y.waiting) hspec
    rw [hipc] at hsus
    rw [hwaiting] at hc
    exact ⟨hsus, hc⟩
  | some e' =>
    rw [he] at hspec
    have hne : ∀ c, e' ≠ .call t c := fun c heq => hcall c (he.trans (congrArg some heq))
    constructor
    · by_contra hawake
      have hafter := ipcStep_suspended hspec (Bool.eq_false_iff.mpr hawake) hne
      exact absurd (hafter.symm.trans hsus) Bool.false_ne_true
    · exact (ipcStep_waiting hspec hc).resolve_right (hne c)

/-- A thread that makes a call had none before, and its timer was off. -/
theorem HostOk.caller (h : HostOk y) {c : Call} (hstep : kernelStep y (.call c) = some y') :
    y.waiting y.state.currentThread = none ∧ y.state.ipc.flag y.state.currentThread = false := by
  unfold kernelStep at hstep
  dsimp only at hstep
  split_ifs at hstep with hmay
  refine ⟨hmay.2, Bool.eq_false_iff.mpr fun htimer => ?_⟩
  have hsus := h.waitsOk.timer _ htimer
  rw [ipc_suspended, hmay.1] at hsus
  exact absurd hsus (by decide)

/-- The call that the current thread waits in is the one that it has just made. -/
theorem HostOk.caller_waits (h : HostOk y) {c c' : Call} (hstep : kernelStep y (.call c) = some y')
    (hc : y'.waiting y.state.currentThread = some c') : c' = c := by
  have hspec := (kernelStep_spec h.kernel.ok h.kernel.initPriority hstep).2
  rcases ipcStep_waiting hspec hc with hbefore | hcall
  · exact absurd ((h.caller hstep).1.symm.trans hbefore) (Option.some_ne_none c').symm
  · exact (IpcEvent.call.inj hcall).2.symm

end Host

end Stm32Board.Rtos
