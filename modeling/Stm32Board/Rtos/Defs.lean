import Stm32Board.At.Client
import Mathlib.Data.List.Sort
import Mathlib.Logic.Function.Basic

/-!
# Threads, semaphores and mutexes

Reference: `rt-thread/src/scheduler.c`, `thread.c` and `ipc.c` of a single core, with 32 priorities.

A thread is linked into at most one list at a time, by its `tlist`: a list of the ready table or the
suspend list of an object. Each function up to the point where interrupts are enabled again is one
step; the `rt_schedule()` that follows is a step of its own, since an interrupt may come before it.
-/

namespace Stm32Board.Rtos

open At (rtEok rtError rtEtimeout)

/-- A thread, by its control block. -/
abbrev ThreadId : Type := ℕ

abbrev SemId : Type := ℕ

abbrev MutexId : Type := ℕ

inductive ThreadStat where
  | init
  | ready
  | running
  | suspend
deriving DecidableEq, Repr

/-- The fields of `struct rt_thread` that the functions use. `yield` is `RT_THREAD_STAT_YIELD`,
`timer` whether `thread_timer` is activated. -/
structure Thread where
  stat : ThreadStat
  yield : Bool
  initPriority : UInt8
  currentPriority : UInt8
  error : ℤ
  timer : Bool
deriving DecidableEq, Repr

/-- `number_mask`. -/
def Thread.numberMask (t : Thread) : UInt32 := 1 <<< t.currentPriority.toUInt32

inductive IpcFlag where
  | fifo
  | prio
deriving DecidableEq, Repr

structure Semaphore where
  value : UInt16
  flag : IpcFlag
deriving DecidableEq, Repr

structure Mutex where
  value : UInt16
  originalPriority : UInt8
  hold : UInt8
  owner : Option ThreadId
  flag : IpcFlag
deriving DecidableEq, Repr

/-- `struct rt_ipc_object`: what a thread may wait for. -/
inductive IpcObject where
  | sem (s : SemId)
  | mutex (m : MutexId)
deriving DecidableEq, Repr

/-- A list that threads are linked into: one of `rt_thread_priority_table`, or a `suspend_thread`. -/
inductive RtList where
  | ready (priority : UInt8)
  | suspend (object : IpcObject)
deriving DecidableEq, Repr

structure Kernel where
  thread : ThreadId → Thread
  list : RtList → List ThreadId
  currentThread : ThreadId
  readyPriorityGroup : UInt32
  sem : SemId → Semaphore
  mutex : MutexId → Mutex

def Kernel.setThread (k : Kernel) (t : ThreadId) (f : Thread → Thread) : Kernel :=
  { k with thread := Function.update k.thread t (f (k.thread t)) }

def Kernel.setList (k : Kernel) (l : RtList) (threads : List ThreadId) : Kernel :=
  { k with list := Function.update k.list l threads }

def Kernel.setSem (k : Kernel) (s : SemId) (sem : Semaphore) : Kernel :=
  { k with sem := Function.update k.sem s sem }

def Kernel.setMutex (k : Kernel) (m : MutexId) (mutex : Mutex) : Kernel :=
  { k with mutex := Function.update k.mutex m mutex }

/-! ## The scheduler -/

/-- `rt_list_remove(&(thread->tlist))`, whatever list the thread is on. -/
def rtListRemove (k : Kernel) (t : ThreadId) : Kernel :=
  { k with list := fun l => (k.list l).erase t }

def rtScheduleInsertThread (k : Kernel) (t : ThreadId) : Kernel :=
  let thread := k.thread t
  if t = k.currentThread then k.setThread t fun thread => { thread with stat := .running }
  else
    let l := RtList.ready thread.currentPriority
    let k := (k.setThread t fun thread => { thread with stat := .ready }).setList l (k.list l ++ [t])
    { k with readyPriorityGroup := k.readyPriorityGroup ||| thread.numberMask }

def rtScheduleRemoveThread (k : Kernel) (t : ThreadId) : Kernel :=
  let thread := k.thread t
  let k := rtListRemove k t
  if k.list (.ready thread.currentPriority) = [] then
    { k with readyPriorityGroup := k.readyPriorityGroup &&& ~~~thread.numberMask }
  else k

/-- `__rt_ffs`: the number of the lowest bit set, counted from 1. -/
def rtFfs (value : UInt32) : ℕ :=
  ((List.range 32).find? fun i => value.toNat.testBit i).elim 0 (· + 1)

/-- `_get_highest_priority_thread`: the thread and its priority. -/
def getHighestPriorityThread (k : Kernel) : Option ThreadId × UInt8 :=
  let highestReadyPriority := UInt8.ofNat (rtFfs k.readyPriorityGroup - 1)
  ((k.list (.ready highestReadyPriority)).head?, highestReadyPriority)

/-- The part of `rt_schedule` that switches to another thread. -/
def switchTo (k : Kernel) (fromThread toThread : ThreadId) (needInsertFromThread : Bool) : Kernel :=
  let k := { k with currentThread := toThread }
  let k := if needInsertFromThread then rtScheduleInsertThread k fromThread else k
  let k := rtScheduleRemoveThread k toThread
  k.setThread toThread fun thread => { thread with stat := .running }

/-- The current thread is to go on. -/
def keepCurrent (k : Kernel) : Kernel :=
  let k := rtScheduleRemoveThread k k.currentThread
  k.setThread k.currentThread fun thread => { thread with stat := .running }

def rtSchedule (k : Kernel) : Kernel :=
  if k.readyPriorityGroup = 0 then k
  else
    match getHighestPriorityThread k with
    | (none, _) => k
    | (some toThread, highestReadyPriority) =>
      let current := k.thread k.currentThread
      if current.stat = .running then
        if current.currentPriority < highestReadyPriority then keepCurrent k
        else if current.currentPriority = highestReadyPriority ∧ ¬current.yield then keepCurrent k
        else
          let k := k.setThread k.currentThread fun thread => { thread with yield := false }
          if toThread = k.currentThread then keepCurrent k
          else switchTo k k.currentThread toThread true
      else if toThread = k.currentThread then keepCurrent k
      else switchTo k k.currentThread toThread false

/-- `rt_system_scheduler_start`: before it no thread is the current one. -/
def rtSystemSchedulerStart (k : Kernel) : Kernel :=
  match (getHighestPriorityThread k).1 with
  | none => k
  | some toThread =>
    let k := rtScheduleRemoveThread { k with currentThread := toThread } toThread
    k.setThread toThread fun thread => { thread with stat := .running }

/-! ## Threads -/

/-- `rt_thread_control` with `RT_THREAD_CTRL_CHANGE_PRIORITY`. -/
def changePriority (k : Kernel) (t : ThreadId) (priority : UInt8) : Kernel :=
  if (k.thread t).stat = .ready then
    let k := rtScheduleRemoveThread k t
    let k := k.setThread t fun thread => { thread with currentPriority := priority }
    rtScheduleInsertThread k t
  else k.setThread t fun thread => { thread with currentPriority := priority }

def rtThreadSuspend (k : Kernel) (t : ThreadId) : Kernel × ℤ :=
  if (k.thread t).stat ≠ .ready ∧ (k.thread t).stat ≠ .running then (k, -rtError)
  else
    let k := rtScheduleRemoveThread k t
    (k.setThread t fun thread => { thread with stat := .suspend, timer := false }, rtEok)

def rtThreadResume (k : Kernel) (t : ThreadId) : Kernel × ℤ :=
  if (k.thread t).stat ≠ .suspend then (k, -rtError)
  else
    let k := rtListRemove k t
    let k := k.setThread t fun thread => { thread with timer := false }
    (rtScheduleInsertThread k t, rtEok)

/-- `rt_thread_startup` of a thread that was initialised. -/
def rtThreadStartup (k : Kernel) (t : ThreadId) : Kernel :=
  let k := k.setThread t fun thread =>
    { thread with currentPriority := thread.initPriority, stat := .suspend, yield := false }
  (rtThreadResume k t).1

/-- The timer of a thread runs out. -/
def rtThreadTimeout (k : Kernel) (t : ThreadId) : Kernel :=
  let k := k.setThread t fun thread => { thread with error := -rtEtimeout, timer := false }
  rtScheduleInsertThread (rtListRemove k t) t

/-- `rt_thread_sleep` up to its `rt_schedule()`. -/
def rtThreadSleep (k : Kernel) (t : ThreadId) : Kernel :=
  let k := (rtThreadSuspend k t).1
  k.setThread t fun thread => { thread with timer := true }

/-- The time slice of the current thread is over: `rt_tick_increase` up to its `rt_schedule()`. -/
def tickYield (k : Kernel) : Kernel :=
  k.setThread k.currentThread fun thread => { thread with yield := true }

/-! ## Waiting for an object -/

/-- Where `rt_ipc_list_suspend` puts a thread. -/
def insertWaiting (priority : ThreadId → UInt8) (flag : IpcFlag) (t : ThreadId)
    (threads : List ThreadId) : List ThreadId :=
  match flag with
  | .fifo => threads ++ [t]
  | .prio => threads.orderedInsert (fun t s => priority t < priority s) t

def rtIpcListSuspend (k : Kernel) (l : RtList) (t : ThreadId) (flag : IpcFlag) : Kernel :=
  let k := (rtThreadSuspend k t).1
  k.setList l (insertWaiting (fun s => (k.thread s).currentPriority) flag t (k.list l))

/-- `rt_ipc_list_resume`, for a list that is not empty. -/
def rtIpcListResume (k : Kernel) (l : RtList) : Kernel :=
  match k.list l with
  | [] => k
  | t :: _ => (rtThreadResume k t).1

/-- The thread is suspended on a list; its timer is started if it does not wait forever. -/
def suspendOn (k : Kernel) (l : RtList) (t : ThreadId) (flag : IpcFlag) (time : ℤ) : Kernel :=
  let k := rtIpcListSuspend k l t flag
  if time > 0 then k.setThread t fun thread => { thread with timer := true } else k

/-- `rt_sem_take` by the current thread up to its `rt_schedule()`; no result means it waits. -/
def rtSemTake (k : Kernel) (s : SemId) (time : ℤ) : Kernel × Option ℤ :=
  let sem := k.sem s
  let t := k.currentThread
  if sem.value > 0 then (k.setSem s { sem with value := sem.value - 1 }, some rtEok)
  else if time = 0 then (k, some (-rtEtimeout))
  else
    let k := k.setThread t fun thread => { thread with error := rtEok }
    (suspendOn k (.suspend (.sem s)) t sem.flag time, none)

def rtSemRelease (k : Kernel) (s : SemId) : Kernel :=
  if k.list (.suspend (.sem s)) ≠ [] then rtIpcListResume k (.suspend (.sem s))
  else k.setSem s { k.sem s with value := (k.sem s).value + 1 }

/-- The owner of a mutex inherits a higher priority of the thread that is about to wait. -/
def inheritPriority (k : Kernel) (owner : Option ThreadId) (priority : UInt8) : Kernel :=
  match owner with
  | none => k
  | some o =>
    if priority < (k.thread o).currentPriority then changePriority k o priority else k

/-- `rt_mutex_take` by the current thread up to its `rt_schedule()`; no result means it waits. -/
def rtMutexTake (k : Kernel) (m : MutexId) (time : ℤ) : Kernel × Option ℤ :=
  let t := k.currentThread
  let k := k.setThread t fun thread => { thread with error := rtEok }
  let mutex := k.mutex m
  if mutex.owner = some t then (k.setMutex m { mutex with hold := mutex.hold + 1 }, some rtEok)
  else if mutex.value > 0 then
    (k.setMutex m
      { mutex with
        value := mutex.value - 1
        owner := some t
        originalPriority := (k.thread t).currentPriority
        hold := mutex.hold + 1 }, some rtEok)
  else if time = 0 then
    (k.setThread t fun thread => { thread with error := -rtEtimeout }, some (-rtEtimeout))
  else
    let k := inheritPriority k mutex.owner (k.thread t).currentPriority
    (suspendOn k (.suspend (.mutex m)) t mutex.flag time, none)

/-- The mutex is handed to the first thread that waits for it, or is free. -/
def passOn (k : Kernel) (m : MutexId) : Kernel :=
  let mutex := k.mutex m
  match k.list (.suspend (.mutex m)) with
  | t :: _ =>
    let k := k.setMutex m
      { mutex with
        owner := some t
        originalPriority := (k.thread t).currentPriority
        hold := mutex.hold + 1 }
    rtIpcListResume k (.suspend (.mutex m))
  | [] =>
    k.setMutex m { mutex with value := mutex.value + 1, owner := none, originalPriority := 0xFF }

def rtMutexRelease (k : Kernel) (m : MutexId) : Kernel × ℤ :=
  let t := k.currentThread
  let mutex := k.mutex m
  if mutex.owner ≠ some t then
    (k.setThread t fun thread => { thread with error := -rtError }, -rtError)
  else
    let k := k.setMutex m { mutex with hold := mutex.hold - 1 }
    if mutex.hold - 1 = 0 then
      let k :=
        if mutex.originalPriority ≠ (k.thread t).currentPriority then
          changePriority k t mutex.originalPriority
        else k
      (passOn k m, rtEok)
    else (k, rtEok)

end Stm32Board.Rtos
