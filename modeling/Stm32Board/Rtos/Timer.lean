import Stm32Board.Common.Alarms
import Stm32Board.Rtos.Defs

/-!
# Timers

Reference: `rt-thread/src/timer.c` with a skip list of one level, and the tick of `clock.c`.

The timers of `rt_timer_list`, which the tick itself runs; those with `RT_TIMER_FLAG_SOFT_TIMER` have a
list and a thread of their own. A start or a stop is one step, as it is for callers that have interrupts
disabled and for the functions of timers: `rt_timer_start` enables them before it inserts the timer,
`rt_timer_stop` before it clears the flag.

A run of the timers is one of an alarm clock whose time does not wrap around (`timerRun_sound`): the
list is its queue, and a timer runs out when its alarm rings.
-/

namespace Stm32Board.Rtos

open Common Common.Alarms
open At (rtEok rtError)

abbrev TimerId : Type := ℕ

def rtTickMax : UInt32 := 0xFFFFFFFF

/-- The fields of `struct rt_timer` that the functions use; `activated` and `periodic` are its flags. -/
structure Timer where
  initTick : UInt32
  timeoutTick : UInt32
  activated : Bool
  periodic : Bool
deriving DecidableEq, Repr

structure Timers where
  timer : TimerId → Timer
  timerList : List TimerId
  rtTick : UInt32

def Timers.setTimer (s : Timers) (t : TimerId) (f : Timer → Timer) : Timers :=
  { s with timer := Function.update s.timer t (f (s.timer t)) }

@[simp] theorem Timers.setTimer_timerList (s : Timers) (t : TimerId) (f : Timer → Timer) :
    (s.setTimer t f).timerList = s.timerList := rfl

@[simp] theorem Timers.setTimer_rtTick (s : Timers) (t : TimerId) (f : Timer → Timer) :
    (s.setTimer t f).rtTick = s.rtTick := rfl

@[simp] theorem Timers.setTimer_timer_self (s : Timers) (t : TimerId) (f : Timer → Timer) :
    (s.setTimer t f).timer t = f (s.timer t) := Function.update_self _ _ _

/-- The other timers are left alone. -/
theorem Timers.setTimer_timer_of_ne (s : Timers) {t u : TimerId} (h : u ≠ t) (f : Timer → Timer) :
    (s.setTimer t f).timer u = s.timer u := Function.update_of_ne h _ _

/-- A field that is left as it was. -/
theorem Timers.setTimer_field {β : Type} (g : Timer → β) (s : Timers) (t u : TimerId)
    {f : Timer → Timer} (h : ∀ timer, g (f timer) = g timer) :
    g ((s.setTimer t f).timer u) = g (s.timer u) := by
  by_cases hu : u = t
  · rw [hu, setTimer_timer_self, h]
  · rw [setTimer_timer_of_ne s hu]

/-- `_rt_timer_remove`. -/
def rtTimerRemove (s : Timers) (t : TimerId) : Timers :=
  { s with timerList := s.timerList.erase t }

@[simp] theorem rtTimerRemove_timer (s : Timers) (t : TimerId) :
    (rtTimerRemove s t).timer = s.timer := rfl

@[simp] theorem rtTimerRemove_timerList (s : Timers) (t : TimerId) :
    (rtTimerRemove s t).timerList = s.timerList.erase t := rfl

@[simp] theorem rtTimerRemove_rtTick (s : Timers) (t : TimerId) :
    (rtTimerRemove s t).rtTick = s.rtTick := rfl

/-- The walk of `rt_timer_start` along the list, and the insertion where it ends. -/
def insertTimer (timeoutTick : TimerId → UInt32) (t : TimerId) : List TimerId → List TimerId
  | [] => [t]
  | p :: timers =>
    if timeoutTick p - timeoutTick t = 0 then p :: insertTimer timeoutTick t timers
    else if timeoutTick p - timeoutTick t < rtTickMax / 2 then t :: p :: timers
    else p :: insertTimer timeoutTick t timers

/-- No result means that the assertion fails. -/
def rtTimerStart (s : Timers) (t : TimerId) : Option Timers :=
  let s := (rtTimerRemove s t).setTimer t fun timer => { timer with activated := false }
  if (s.timer t).initTick < rtTickMax / 2 then
    let s := s.setTimer t fun timer => { timer with timeoutTick := s.rtTick + timer.initTick }
    let s := { s with timerList := insertTimer (fun p => (s.timer p).timeoutTick) t s.timerList }
    some (s.setTimer t fun timer => { timer with activated := true })
  else none

def rtTimerStop (s : Timers) (t : TimerId) : Timers × ℤ :=
  if (s.timer t).activated then
    ((rtTimerRemove s t).setTimer t fun timer => { timer with activated := false }, rtEok)
  else (s, -rtError)

/-- A call that changes a timer: the last three are commands of `rt_timer_control`. -/
inductive TimerCall where
  | start (t : TimerId)
  | stop (t : TimerId)
  | setTime (t : TimerId) (tick : UInt32)
  | setOneshot (t : TimerId)
  | setPeriodic (t : TimerId)
deriving DecidableEq, Repr

def Timers.call (s : Timers) : TimerCall → Option Timers
  | .start t => rtTimerStart s t
  | .stop t => some (rtTimerStop s t).1
  | .setTime t tick => some (s.setTimer t fun timer => { timer with initTick := tick })
  | .setOneshot t => some (s.setTimer t fun timer => { timer with periodic := false })
  | .setPeriodic t => some (s.setTimer t fun timer => { timer with periodic := true })

/-- What a call does to the alarm of its timer. -/
def TimerCall.events (s : Timers) : TimerCall → List (Event TimerId)
  | .start t => [.set t (s.timer t).initTick.toNat]
  | .stop t => if (s.timer t).activated then [.cancel t] else []
  | .setTime _ _ | .setOneshot _ | .setPeriodic _ => []

/-- The timers, what their functions work on, and what has happened so far. -/
structure TimerSystem (σ : Type) where
  host : σ
  timers : Timers
  history : List (Event TimerId)

namespace TimerSystem

variable {σ : Type}

def call (y : TimerSystem σ) (c : TimerCall) : Option (TimerSystem σ) :=
  (y.timers.call c).map fun timers =>
    { y with timers := timers, history := y.history ++ c.events y.timers }

def calls (y : TimerSystem σ) (cs : List TimerCall) : Option (TimerSystem σ) := cs.foldlM call y

end TimerSystem

/-! ### The tick

`timeoutFunc` has what the function of a timer does where it works, and the calls that it makes; no
result means that it does not return. -/

section Check

variable {σ : Type} (timeoutFunc : TimerId → σ → Timers → Option (σ × List TimerCall))

/-- The timer has timed out: it is removed, its function is called, and it is started again. -/
def runTimer (y : TimerSystem σ) (t : TimerId) : Option (TimerSystem σ) := do
  let y := { y with timers := rtTimerRemove y.timers t, history := y.history ++ [Event.ring t] }
  let (host, cs) ← timeoutFunc t y.host y.timers
  let y ← TimerSystem.calls { y with host := host } cs
  let timer := y.timers.timer t
  let y := { y with timers := y.timers.setTimer t fun timer => { timer with activated := false } }
  if timer.periodic ∧ timer.activated then y.call (.start t) else some y

/-- No result means that the loop has not ended yet. -/
def rtTimerCheck : ℕ → TimerSystem σ → Option (TimerSystem σ)
  | 0, _ => none
  | fuel + 1, y =>
    match y.timers.timerList with
    | [] => some y
    | t :: _ =>
      if y.timers.rtTick - (y.timers.timer t).timeoutTick < rtTickMax / 2 then
        (runTimer timeoutFunc y t).bind (rtTimerCheck fuel)
      else some y

/-- `rt_tick_increase` but for the time slice, which `tickYield` has. -/
def rtTickIncrease (fuel : ℕ) (y : TimerSystem σ) : Option (TimerSystem σ) :=
  let y :=
    { y with
      timers := { y.timers with rtTick := y.timers.rtTick + 1 }
      history := y.history ++ [.tick] }
  (rtTimerCheck timeoutFunc fuel y).map fun y => { y with history := y.history ++ [.quiet] }

/-- What can happen: something goes on where the functions work, with calls, or the clock ticks. -/
inductive TimerInput (σ : Type) where
  | calls (host : σ) (cs : List TimerCall)
  | tick

def timerStep (fuel : ℕ) (y : TimerSystem σ) : TimerInput σ → Option (TimerSystem σ)
  | .calls host cs => TimerSystem.calls { y with host := host } cs
  | .tick => rtTickIncrease timeoutFunc fuel y

def timerRun (fuel : ℕ) (y : TimerSystem σ) (inputs : List (TimerInput σ)) :
    Option (TimerSystem σ) :=
  inputs.foldlM (timerStep timeoutFunc fuel) y

/-- The next timer is due: `t` is the first one of the list, and the difference of the ticks says so. -/
structure Timers.NextDue (s : Timers) (t : TimerId) : Prop where
  head : s.timerList.head? = some t
  due : s.rtTick - (s.timer t).timeoutTick < rtTickMax / 2

variable {timeoutFunc} {fuel : ℕ} {y y' : TimerSystem σ}

/-- What each round of the loop keeps. -/
theorem rtTimerCheck_rule {P : TimerSystem σ → Prop}
    (hround : ∀ y t y', P y → y.timers.NextDue t → runTimer timeoutFunc y t = some y' → P y')
    (hy : P y) (hcheck : rtTimerCheck timeoutFunc fuel y = some y') :
    P y' ∧ ∀ t, ¬y'.timers.NextDue t := by
  induction fuel generalizing y with
  | zero => exact absurd hcheck (by simp [rtTimerCheck])
  | succ fuel ih =>
    rw [rtTimerCheck] at hcheck
    split at hcheck
    · next hlist =>
      obtain rfl := Option.some.inj hcheck
      refine ⟨hy, fun t ht => ?_⟩
      have hhead := ht.head
      rw [hlist] at hhead
      exact absurd hhead (Option.some_ne_none t).symm
    · next t rest hlist =>
      have hhead : y.timers.timerList.head? = some t := by rw [hlist, List.head?_cons]
      split_ifs at hcheck with hdue
      · obtain ⟨m, hm, hrest⟩ := Option.bind_eq_some_iff.mp hcheck
        exact ih (hround y t m hy ⟨hhead, hdue⟩ hm) hrest
      · obtain rfl := Option.some.inj hcheck
        refine ⟨hy, fun u hu => hdue ?_⟩
        obtain rfl := Option.some.inj (hu.head.symm.trans hhead)
        exact hu.due

/-- More rounds than it takes change nothing. -/
theorem rtTimerCheck_mono {fuel' : ℕ} (hle : fuel ≤ fuel')
    (hcheck : rtTimerCheck timeoutFunc fuel y = some y') :
    rtTimerCheck timeoutFunc fuel' y = some y' := by
  induction fuel generalizing y fuel' with
  | zero => exact absurd hcheck (by simp [rtTimerCheck])
  | succ fuel ih =>
    cases fuel' with
    | zero => exact absurd hle (Nat.not_succ_le_zero fuel)
    | succ fuel' =>
      rw [rtTimerCheck] at hcheck ⊢
      split at hcheck
      · exact hcheck
      · split_ifs at hcheck ⊢
        · obtain ⟨m, hm, hrest⟩ := Option.bind_eq_some_iff.mp hcheck
          exact Option.bind_eq_some_iff.mpr ⟨m, hm, ih (Nat.le_of_succ_le_succ hle) hrest⟩
        · exact hcheck

/-- More rounds than needed do no harm. -/
theorem timerStep_mono {fuel' : ℕ} (hle : fuel ≤ fuel') {input : TimerInput σ}
    (hstep : timerStep timeoutFunc fuel y input = some y') :
    timerStep timeoutFunc fuel' y input = some y' := by
  cases input with
  | calls host cs => exact hstep
  | tick =>
    obtain ⟨m, hm, rfl⟩ := Option.map_eq_some_iff.mp hstep
    exact congrArg (Option.map _) (rtTimerCheck_mono hle hm)

/-- Nor do they over a run. -/
theorem timerRun_mono {fuel' : ℕ} (hle : fuel ≤ fuel') {inputs : List (TimerInput σ)}
    (hrun : timerRun timeoutFunc fuel y inputs = some y') :
    timerRun timeoutFunc fuel' y inputs = some y' := by
  induction inputs generalizing y with
  | nil => exact hrun
  | cons input inputs ih =>
    obtain ⟨m, hm, hrest⟩ := Transition.run_cons_eq_some.mp hrun
    exact Transition.run_cons_eq_some.mpr ⟨m, timerStep_mono hle hm, ih hrest⟩

end Check

end Stm32Board.Rtos
