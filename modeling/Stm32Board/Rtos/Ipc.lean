import Stm32Board.Rtos.Defs

/-!
# Waiting, without a scheduler

What semaphores and mutexes are for, whichever thread runs when: threads take and release objects and
wait in their queues. `Kernel.ipc` forgets of a kernel what belongs to the scheduler. A system is
threads that make calls, each in a call until it returns; its log has the calls that returned, the last
one first.
-/

namespace Stm32Board.Rtos

open At (rtEok rtError rtEtimeout)

/-- A thread that is started runs some time, unless it is suspended. -/
@[ext]
structure IpcThread where
  started : Bool
  suspended : Bool
  initPriority : UInt8
  currentPriority : UInt8
  error : ℤ
  timer : Bool

@[ext]
structure Ipc where
  thread : ThreadId → IpcThread
  queue : IpcObject → List ThreadId
  sem : SemId → Semaphore
  mutex : MutexId → Mutex

def Thread.ipc (thread : Thread) : IpcThread where
  started := thread.stat ≠ .init
  suspended := thread.stat = .suspend
  initPriority := thread.initPriority
  currentPriority := thread.currentPriority
  error := thread.error
  timer := thread.timer

def Kernel.ipc (k : Kernel) : Ipc where
  thread t := (k.thread t).ipc
  queue o := k.list (.suspend o)
  sem := k.sem
  mutex := k.mutex

namespace Ipc

def setThread (i : Ipc) (t : ThreadId) (f : IpcThread → IpcThread) : Ipc :=
  { i with thread := Function.update i.thread t (f (i.thread t)) }

def setSem (i : Ipc) (s : SemId) (sem : Semaphore) : Ipc :=
  { i with sem := Function.update i.sem s sem }

def setMutex (i : Ipc) (m : MutexId) (mutex : Mutex) : Ipc :=
  { i with mutex := Function.update i.mutex m mutex }

/-- The thread leaves the queue it is in, if any. -/
def leave (i : Ipc) (t : ThreadId) : Ipc := { i with queue := fun o => (i.queue o).erase t }

/-- It goes on then. -/
def wake (i : Ipc) (t : ThreadId) : Ipc :=
  (i.leave t).setThread t fun thread =>
    { thread with started := true, suspended := false, timer := false }

/-- The thread waits in the queue of an object. -/
def park (i : Ipc) (t : ThreadId) (o : IpcObject) (flag : IpcFlag) (time : ℤ) : Ipc :=
  let waiting := insertWaiting (fun s => (i.thread s).currentPriority) flag t (i.queue o)
  { i with queue := Function.update i.queue o waiting }.setThread t fun thread =>
    { thread with suspended := true, timer := time > 0 }

def startup (i : Ipc) (t : ThreadId) : Ipc :=
  (i.setThread t fun thread => { thread with currentPriority := thread.initPriority }).wake t

def sleep (i : Ipc) (t : ThreadId) : Ipc :=
  i.setThread t fun thread => { thread with suspended := true, timer := true }

def timeout (i : Ipc) (t : ThreadId) : Ipc :=
  (i.setThread t fun thread => { thread with error := -rtEtimeout }).wake t

def semTake (i : Ipc) (t : ThreadId) (s : SemId) (time : ℤ) : Ipc × Option ℤ :=
  let sem := i.sem s
  if sem.value > 0 then (i.setSem s { sem with value := sem.value - 1 }, some rtEok)
  else if time = 0 then (i, some (-rtEtimeout))
  else
    ((i.setThread t fun thread => { thread with error := rtEok }).park t (.sem s) sem.flag time,
      none)

def semRelease (i : Ipc) (s : SemId) : Ipc :=
  match i.queue (.sem s) with
  | t :: _ => i.wake t
  | [] => i.setSem s { i.sem s with value := (i.sem s).value + 1 }

/-- The owner inherits a higher priority. -/
def inherit (i : Ipc) (owner : Option ThreadId) (priority : UInt8) : Ipc :=
  match owner with
  | none => i
  | some o =>
    if priority < (i.thread o).currentPriority then
      i.setThread o fun thread => { thread with currentPriority := priority }
    else i

def mutexTake (i : Ipc) (t : ThreadId) (m : MutexId) (time : ℤ) : Ipc × Option ℤ :=
  let i := i.setThread t fun thread => { thread with error := rtEok }
  let mutex := i.mutex m
  if mutex.owner = some t then (i.setMutex m { mutex with hold := mutex.hold + 1 }, some rtEok)
  else if mutex.value > 0 then
    (i.setMutex m
      { mutex with
        value := mutex.value - 1
        owner := some t
        originalPriority := (i.thread t).currentPriority
        hold := mutex.hold + 1 }, some rtEok)
  else if time = 0 then
    (i.setThread t fun thread => { thread with error := -rtEtimeout }, some (-rtEtimeout))
  else
    ((i.inherit mutex.owner (i.thread t).currentPriority).park t (.mutex m) mutex.flag time, none)

/-- The mutex goes to the first thread that waits for it, or is free. -/
def passOn (i : Ipc) (m : MutexId) : Ipc :=
  let mutex := i.mutex m
  match i.queue (.mutex m) with
  | t :: _ =>
    (i.setMutex m
      { mutex with
        owner := some t
        originalPriority := (i.thread t).currentPriority
        hold := mutex.hold + 1 }).wake t
  | [] =>
    i.setMutex m { mutex with value := mutex.value + 1, owner := none, originalPriority := 0xFF }

def mutexRelease (i : Ipc) (t : ThreadId) (m : MutexId) : Ipc × ℤ :=
  let mutex := i.mutex m
  if mutex.owner ≠ some t then
    (i.setThread t fun thread => { thread with error := -rtError }, -rtError)
  else
    let i := i.setMutex m { mutex with hold := mutex.hold - 1 }
    if mutex.hold - 1 = 0 then
      let i := i.setThread t fun thread =>
        { thread with currentPriority := mutex.originalPriority }
      (i.passOn m, rtEok)
    else (i, rtEok)

end Ipc

/-! ## Systems -/

/-- A call that a thread makes. -/
inductive Call where
  | semTake (s : SemId) (time : ℤ)
  | mutexTake (m : MutexId) (time : ℤ)
  | mutexRelease (m : MutexId)
  | sleep
deriving DecidableEq, Repr

/-- A call that returned. -/
structure Returned where
  thread : ThreadId
  call : Call
  result : ℤ
deriving DecidableEq, Repr

/-- Threads with the calls they wait in. -/
structure System (σ : Type) where
  state : σ
  waiting : ThreadId → Option Call
  log : List Returned

namespace System

variable {σ τ : Type}

/-- A thread has made a call, which returns with a result, or waits. -/
def finish (y : System σ) (t : ThreadId) (c : Call) (r : σ × Option ℤ) : System σ :=
  match r.2 with
  | some result => { y with state := r.1, log := ⟨t, c, result⟩ :: y.log }
  | none => { y with state := r.1, waiting := Function.update y.waiting t (some c) }

/-- A thread goes on after it has waited, and returns. -/
def back (y : System σ) (t : ThreadId) (c : Call) (r : σ × ℤ) : System σ :=
  { state := r.1, waiting := Function.update y.waiting t none, log := ⟨t, c, r.2⟩ :: y.log }

def map (f : σ → τ) (y : System σ) : System τ :=
  { state := f y.state, waiting := y.waiting, log := y.log }

end System

/-- What a waiting call does when its thread goes on: a sleep clears the error. -/
def Call.result (c : Call) (error : ℤ) : ℤ × ℤ :=
  match c with
  | .sleep => (if error = -rtEtimeout then rtEok else error, rtEok)
  | _ => (error, error)

/-! ### Any order -/

inductive IpcEvent where
  | startup (t : ThreadId)
  | call (t : ThreadId) (c : Call)
  | semRelease (s : SemId)
  | timeout (t : ThreadId)
  | goOn (t : ThreadId)
deriving DecidableEq, Repr

/-- A call of a thread. -/
def Ipc.call (i : Ipc) (t : ThreadId) : Call → Ipc × Option ℤ
  | .semTake s time => i.semTake t s time
  | .mutexTake m time => i.mutexTake t m time
  | .mutexRelease m => ((i.mutexRelease t m).1, some (i.mutexRelease t m).2)
  | .sleep => (i.sleep t, none)

/-- Any thread that is not suspended may do something. -/
def ipcStep (y : System Ipc) : IpcEvent → Option (System Ipc)
  | .startup t =>
    if (y.state.thread t).started then none else some { y with state := y.state.startup t }
  | .call t c =>
    if (y.state.thread t).started ∧ ¬(y.state.thread t).suspended ∧ y.waiting t = none then
      some (y.finish t c (y.state.call t c))
    else none
  | .semRelease s => some { y with state := y.state.semRelease s }
  | .timeout t =>
    if (y.state.thread t).timer then some { y with state := y.state.timeout t } else none
  | .goOn t =>
    if (y.state.thread t).suspended then none
    else
      (y.waiting t).map fun c =>
        let r := c.result (y.state.thread t).error
        y.back t c (y.state.setThread t fun thread => { thread with error := r.1 }, r.2)

def ipcRun (y : System Ipc) (events : List IpcEvent) : Option (System Ipc) :=
  events.foldlM ipcStep y

/-! ### The order of the scheduler -/

inductive KernelEvent where
  | startup (t : ThreadId)
  | call (c : Call)
  | semRelease (s : SemId)
  | timeout (t : ThreadId)
  | goOn
  | tickYield
  | schedule
deriving DecidableEq, Repr

/-- A call of the current thread. -/
def Kernel.call (k : Kernel) : Call → Kernel × Option ℤ
  | .semTake s time => rtSemTake k s time
  | .mutexTake m time => rtMutexTake k m time
  | .mutexRelease m => ((rtMutexRelease k m).1, some (rtMutexRelease k m).2)
  | .sleep => (rtThreadSleep k k.currentThread, none)

/-- The current thread makes a call or goes on in one, a thread is started, a semaphore is released by
a thread or an interrupt, a timer or a time slice runs out, or `rt_schedule` is called. Only a thread
that is RUNNING acts: `rt_schedule` leaves a suspended one as long as another one is ready, so the idle
thread must not make a call that waits. -/
def kernelStep (y : System Kernel) : KernelEvent → Option (System Kernel)
  | .startup t =>
    if (y.state.thread t).stat = .init then some { y with state := rtThreadStartup y.state t }
    else none
  | .call c =>
    let t := y.state.currentThread
    if (y.state.thread t).stat = .running ∧ y.waiting t = none then
      some (y.finish t c (y.state.call c))
    else none
  | .semRelease s => some { y with state := rtSemRelease y.state s }
  | .timeout t =>
    if (y.state.thread t).timer then some { y with state := rtThreadTimeout y.state t } else none
  | .goOn =>
    let t := y.state.currentThread
    if (y.state.thread t).stat = .running then
      (y.waiting t).map fun c =>
        let r := c.result (y.state.thread t).error
        y.back t c (y.state.setThread t fun thread => { thread with error := r.1 }, r.2)
    else none
  | .tickYield => some { y with state := tickYield y.state }
  | .schedule => some { y with state := rtSchedule y.state }

def kernelRun (y : System Kernel) (events : List KernelEvent) : Option (System Kernel) :=
  events.foldlM kernelStep y

end Stm32Board.Rtos
