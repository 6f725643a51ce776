import Stm32Board.Rtos.Ipc
import Stm32Board.Rtos.Lists

/-!
# The kernel refines waiting without a scheduler

Each function of the kernel does to `Kernel.ipc` what its name says there.
-/

namespace Stm32Board.Rtos

open Common
open At (rtEok rtError rtEtimeout)

/-! ## Functions -/

section Functions

variable {k : Kernel} {t : ThreadId}

/-- A change of a thread, seen without the lists. -/
theorem ipc_setThread {f : Thread → Thread} {g : IpcThread → IpcThread}
    (hf : (f (k.thread t)).ipc = g (k.thread t).ipc) :
    (k.setThread t f).ipc = k.ipc.setThread t g := by
  unfold Kernel.ipc Ipc.setThread
  ext1 <;> dsimp only
  · funext t'
    by_cases ht : t' = t
    · rw [ht, setThread_self, Function.update_self, hf]
    · rw [setThread_of_ne k t f ht, Function.update_of_ne ht]
  all_goals rfl

/-- A thread that is not suspended is in no queue. -/
theorem Kernel.ListsOk.erase_queue {x : Option ThreadId} (h : k.ListsOk x)
    (hstat : (k.thread t).stat ≠ .suspend) (o : IpcObject) :
    (k.list (.suspend o)).erase t = k.list (.suspend o) :=
  List.erase_of_not_mem fun hmem => hstat (h.object t o hmem)

/-- Taking a thread off its ready list is nothing to see. -/
theorem ipc_remove {x : Option ThreadId} (h : k.ListsOk x) (hstat : (k.thread t).stat ≠ .suspend) :
    (rtScheduleRemoveThread k t).ipc = k.ipc := by
  unfold Kernel.ipc
  ext1 <;> dsimp only
  · rw [remove_thread]
  · funext o
    rw [remove_list]
    exact h.erase_queue hstat o
  · rw [remove_sem]
  · rw [remove_mutex]

/-- Putting a thread on a ready list ends its suspension. -/
theorem ipc_insert :
    (rtScheduleInsertThread k t).ipc =
      k.ipc.setThread t fun thread => { thread with started := true, suspended := false } := by
  unfold Kernel.ipc Ipc.setThread
  ext1 <;> dsimp only
  · funext t'
    by_cases ht : t' = t
    · rw [ht, insert_self, Function.update_self, insertedStat]
      unfold Thread.ipc
      split_ifs <;> rfl
    · rw [insert_of_ne k t ht, Function.update_of_ne ht]
  · funext o
    rw [insert_list]
  · rw [insert_sem]
  · rw [insert_mutex]

/-- Two changes of one thread are one change. -/
theorem setThread_setThread (i : Ipc) (f g : IpcThread → IpcThread) :
    (i.setThread t f).setThread t g = i.setThread t fun thread => g (f thread) := by
  unfold Ipc.setThread
  dsimp only
  rw [Function.update_self, Function.update_idem]

/-- Unlinking a thread takes it out of the queue it is in. -/
theorem ipc_listRemove : (rtListRemove k t).ipc = k.ipc.leave t := rfl

/-- Leaving a queue and changing a thread do not touch each other. -/
theorem leave_setThread (i : Ipc) (f : IpcThread → IpcThread) :
    (i.setThread t f).leave t = (i.leave t).setThread t f := rfl

/-- `rt_thread_resume` wakes the thread. -/
theorem ipc_resume (hstat : (k.thread t).stat = .suspend) :
    (rtThreadResume k t).1.ipc = k.ipc.wake t := by
  have htimer : ((rtListRemove k t).setThread t fun thread => { thread with timer := false }).ipc =
      (k.ipc.leave t).setThread t fun thread => { thread with timer := false } := ipc_setThread rfl
  unfold rtThreadResume
  rw [if_neg (not_not.mpr hstat)]
  dsimp only
  rw [ipc_insert, htimer, setThread_setThread]
  rfl

/-- `rt_thread_timeout` wakes the thread with an error code. -/
theorem ipc_timeout : (rtThreadTimeout k t).ipc = k.ipc.timeout t := by
  have herror : (k.setThread t fun thread =>
      { thread with error := -rtEtimeout, timer := false }).ipc =
      k.ipc.setThread t fun thread => { thread with error := -rtEtimeout, timer := false } :=
    ipc_setThread rfl
  unfold rtThreadTimeout
  dsimp only
  rw [ipc_insert, ipc_listRemove, herror, leave_setThread, setThread_setThread]
  unfold Ipc.timeout Ipc.wake
  rw [leave_setThread, setThread_setThread]

/-- `rt_thread_suspend` suspends the thread. -/
theorem ipc_suspend (h : k.Ok) (hstat : (k.thread t).stat = .running) :
    (rtThreadSuspend k t).1.ipc =
      k.ipc.setThread t fun thread => { thread with suspended := true, timer := false } := by
  have hset : ((rtScheduleRemoveThread k t).setThread t
      fun thread => { thread with stat := .suspend, timer := false }).ipc =
      (rtScheduleRemoveThread k t).ipc.setThread t
        fun thread => { thread with suspended := true, timer := false } := by
    apply ipc_setThread
    rw [remove_thread]
    unfold Thread.ipc
    simp [hstat]
  rw [rtThreadSuspend_eq hstat]
  dsimp only
  rw [hset, ipc_remove h.lists (by rw [hstat]; decide)]

/-- A new priority sets the priority and nothing else, whatever list the thread is on. -/
theorem ipc_changePriority (h : k.Ok) (priority : UInt8) :
    (changePriority k t priority).ipc =
      k.ipc.setThread t fun thread => { thread with currentPriority := priority } := by
  have hset : ∀ k' : Kernel, (k'.setThread t
      fun thread => { thread with currentPriority := priority }).ipc =
      k'.ipc.setThread t fun thread => { thread with currentPriority := priority } :=
    fun k' => ipc_setThread rfl
  unfold changePriority
  split_ifs with hready
  · dsimp only
    rw [ipc_insert, hset, ipc_remove h.lists (by rw [hready]; decide), setThread_setThread]
    unfold Ipc.setThread
    congr 2
    -- the thread is started and not suspended already
    unfold Kernel.ipc Thread.ipc
    simp [hready]
  · exact hset k

/-- A suspend list is the queue of its object. -/
theorem ipc_setList (k : Kernel) (o : IpcObject) (threads : List ThreadId) :
    (k.setList (.suspend o) threads).ipc =
      { k.ipc with queue := Function.update k.ipc.queue o threads } := by
  unfold Kernel.ipc Kernel.setList
  ext1 <;> dsimp only
  funext o'
  by_cases ho : o' = o
  · rw [ho, Function.update_self, Function.update_self]
  · rw [Function.update_of_ne ho, Function.update_of_ne fun heq => ho (RtList.suspend.inj heq)]

/-- The running thread waits for an object. -/
theorem ipc_suspendOn (h : k.Ok) (hstat : (k.thread t).stat = .running) (o : IpcObject)
    (flag : IpcFlag) (time : ℤ) :
    (suspendOn k (.suspend o) t flag time).ipc = k.ipc.park t o flag time := by
  -- the order of the queue is by priorities, which suspending leaves alone
  have hpriority : ∀ s, ((k.ipc.setThread t fun thread =>
      { thread with suspended := true, timer := false }).thread s).currentPriority =
      (k.ipc.thread s).currentPriority := by
    intro s
    unfold Ipc.setThread
    by_cases hs : s = t
    · rw [hs]
      dsimp only
      rw [Function.update_self]
    · dsimp only
      rw [Function.update_of_ne hs]
  have hlist : (rtIpcListSuspend k (.suspend o) t flag).ipc =
      k.ipc.park t o flag 0 := by
    have hsuspend := ipc_suspend h hstat
    unfold rtIpcListSuspend
    generalize (rtThreadSuspend k t).1 = k' at hsuspend
    dsimp only
    rw [ipc_setList, show (fun s => (k'.thread s).currentPriority) =
      fun s => (k'.ipc.thread s).currentPriority from rfl,
      show k'.list (.suspend o) = k'.ipc.queue o from rfl, hsuspend]
    simp only [hpriority]
    rfl
  unfold suspendOn
  dsimp only
  -- with a time to wait the timer is started afterwards
  split_ifs with htime
  · have hset : ((rtIpcListSuspend k (.suspend o) t flag).setThread t
        fun thread => { thread with timer := true }).ipc =
        (rtIpcListSuspend k (.suspend o) t flag).ipc.setThread t
          fun thread => { thread with timer := true } := ipc_setThread rfl
    rw [hset, hlist]
    unfold Ipc.park
    dsimp only
    rw [setThread_setThread, decide_eq_true htime]
  · rw [hlist]
    unfold Ipc.park
    dsimp only
    rw [decide_eq_false htime]
    rfl

/-! ## The functions of the objects -/

/-- `rt_ipc_list_resume` wakes the first in the queue. -/
theorem ipc_resume_head (h : k.Ok) {o : IpcObject} {threads : List ThreadId}
    (hlist : k.list (.suspend o) = t :: threads) :
    (rtIpcListResume k (.suspend o)).ipc = k.ipc.wake t := by
  unfold rtIpcListResume
  rw [hlist]
  exact ipc_resume (h.lists.object t o (hlist ▸ List.mem_cons_self))

/-- `rt_sem_release` of the kernel is that of the system without lists. -/
theorem ipc_semRelease (h : k.Ok) (s : SemId) : (rtSemRelease k s).ipc = k.ipc.semRelease s := by
  unfold rtSemRelease Ipc.semRelease
  rw [show k.ipc.queue (.sem s) = k.list (.suspend (.sem s)) from rfl]
  cases hlist : k.list (.suspend (.sem s)) with
  | nil =>
    rw [if_neg (not_not.mpr rfl)]
    rfl
  | cons t threads =>
    rw [if_pos (List.cons_ne_nil t threads)]
    exact ipc_resume_head h hlist

/-- So is `rt_sem_take` of the running thread, with its result. -/
theorem ipc_semTake (h : k.Ok) (hstat : (k.thread k.currentThread).stat = .running) (s : SemId)
    (time : ℤ) :
    ((rtSemTake k s time).1.ipc, (rtSemTake k s time).2) = k.ipc.semTake k.currentThread s time := by
  unfold rtSemTake Ipc.semTake
  rw [show k.ipc.sem s = k.sem s from rfl]
  dsimp only
  split_ifs
  · rfl
  · rfl
  · have herror : (k.setThread k.currentThread fun thread => { thread with error := rtEok }).ipc =
        k.ipc.setThread k.currentThread fun thread => { thread with error := rtEok } :=
      ipc_setThread rfl
    rw [ipc_suspendOn (h.setError _ _) ((setThread_stat (by rfl) _).trans hstat), herror]

/-- So is inheriting a priority. -/
theorem ipc_inheritPriority (h : k.Ok) (owner : Option ThreadId) (priority : UInt8) :
    (inheritPriority k owner priority).ipc = k.ipc.inherit owner priority := by
  unfold inheritPriority Ipc.inherit
  cases owner with
  | none => rfl
  | some o =>
    dsimp only
    rw [show (k.ipc.thread o).currentPriority = (k.thread o).currentPriority from rfl]
    split_ifs
    · exact ipc_changePriority h priority
    · rfl

/-- So is `rt_mutex_take` of the running thread. -/
theorem ipc_mutexTake (h : k.Ok) (hstat : (k.thread k.currentThread).stat = .running) (m : MutexId)
    (time : ℤ) :
    ((rtMutexTake k m time).1.ipc, (rtMutexTake k m time).2) =
      k.ipc.mutexTake k.currentThread m time := by
  have herror : (k.setThread k.currentThread fun thread => { thread with error := rtEok }).ipc =
      k.ipc.setThread k.currentThread fun thread => { thread with error := rtEok } :=
    ipc_setThread rfl
  have hok := h.setError k.currentThread rtEok
  have hstat' : ((k.setThread k.currentThread fun thread => { thread with error := rtEok }).thread
      k.currentThread).stat = .running := (setThread_stat (by rfl) _).trans hstat
  unfold rtMutexTake Ipc.mutexTake
  dsimp only
  rw [← herror]
  generalize (k.setThread k.currentThread fun thread => { thread with error := rtEok }) = k'
    at hok hstat'
  rw [show k'.ipc.mutex m = k'.mutex m from rfl]
  split_ifs
  · rfl
  · rfl
  · have hset : (k'.setThread k.currentThread fun thread =>
        { thread with error := -rtEtimeout }).ipc =
        k'.ipc.setThread k.currentThread fun thread => { thread with error := -rtEtimeout } :=
      ipc_setThread rfl
    rw [hset]
  · rw [ipc_suspendOn (inheritPriority_ok hok _ (hok.lists.priority_lt _))
      (inheritPriority_stat _ _ hstat'), ipc_inheritPriority hok]
    rfl

/-- So is handing a mutex on. -/
theorem ipc_passOn (h : k.Ok) (m : MutexId) : (passOn k m).ipc = k.ipc.passOn m := by
  unfold passOn Ipc.passOn
  rw [show k.ipc.queue (.mutex m) = k.list (.suspend (.mutex m)) from rfl]
  cases hlist : k.list (.suspend (.mutex m)) with
  | nil => rfl
  | cons t threads =>
    have hset : (k.setMutex m
        { k.mutex m with
          owner := some t
          originalPriority := (k.thread t).currentPriority
          hold := (k.mutex m).hold + 1 }).Ok := h.setMutex m fun _ => h.lists.priority_lt t
    exact ipc_resume_head hset hlist

/-- So is `rt_mutex_release` of the running thread. -/
theorem ipc_mutexRelease (h : k.Ok) (m : MutexId) :
    ((rtMutexRelease k m).1.ipc, (rtMutexRelease k m).2) =
      k.ipc.mutexRelease k.currentThread m := by
  have hset : (k.setMutex m { k.mutex m with hold := (k.mutex m).hold - 1 }).Ok :=
    h.setMutex m (h.originalPriority_lt m)
  unfold rtMutexRelease Ipc.mutexRelease
  rw [show k.ipc.mutex m = k.mutex m from rfl]
  dsimp only
  split_ifs with howner hhold hprio
  · have herror : (k.setThread k.currentThread fun thread => { thread with error := -rtError }).ipc =
        k.ipc.setThread k.currentThread fun thread => { thread with error := -rtError } :=
      ipc_setThread rfl
    rw [herror]
  · have hown : (k.mutex m).owner ≠ none := by
      rw [not_not.mp howner]
      exact nofun
    rw [ipc_passOn (changePriority_ok hset (h.originalPriority_lt m hown)), ipc_changePriority hset]
    rfl
  · -- the priority is the original one already
    have hsame : (k.ipc.setMutex m { k.mutex m with hold := (k.mutex m).hold - 1 }).setThread
        k.currentThread (fun thread =>
          { thread with currentPriority := (k.mutex m).originalPriority }) =
        k.ipc.setMutex m { k.mutex m with hold := (k.mutex m).hold - 1 } := by
      unfold Ipc.setThread
      rw [not_not.mp hprio]
      exact congrArg (fun thread => { k.ipc.setMutex m { k.mutex m with hold := (k.mutex m).hold - 1 }
        with thread := thread }) (Function.update_eq_self _ _)
    rw [ipc_passOn hset, hsame]
    rfl
  · rfl

/-- So is `rt_thread_sleep`. -/
theorem ipc_sleep (h : k.Ok) (hstat : (k.thread t).stat = .running) :
    (rtThreadSleep k t).ipc = k.ipc.sleep t := by
  have hset : ∀ k' : Kernel, (k'.setThread t fun thread => { thread with timer := true }).ipc =
      k'.ipc.setThread t fun thread => { thread with timer := true } := fun k' => ipc_setThread rfl
  unfold rtThreadSleep
  dsimp only
  rw [hset, ipc_suspend h hstat, setThread_setThread]
  rfl

/-- A call of the current thread. -/
theorem Kernel.Ok.call (h : k.Ok) (hstat : (k.thread k.currentThread).stat = .running) (c : Call) :
    (k.call c).1.Ok ∧ ((k.call c).1.ipc, (k.call c).2) = k.ipc.call k.currentThread c := by
  cases c with
  | semTake s time => exact ⟨rtSemTake_ok h hstat s time, ipc_semTake h hstat s time⟩
  | mutexTake m time => exact ⟨rtMutexTake_ok h hstat m time, ipc_mutexTake h hstat m time⟩
  | mutexRelease m =>
    refine ⟨rtMutexRelease_ok h m, ?_⟩
    unfold Kernel.call Ipc.call
    dsimp only
    rw [← ipc_mutexRelease h m]
  | sleep =>
    refine ⟨rtThreadSleep_ok h hstat, ?_⟩
    unfold Kernel.call Ipc.call
    dsimp only
    rw [ipc_sleep h hstat]

/-- A thread that was initialised is ready. -/
theorem Kernel.ListsOk.startup (h : k.ListsOk none) (hstat : (k.thread t).stat = .init)
    (hprio : (k.thread t).initPriority < 32) :
    (k.setThread t fun thread =>
      { thread with
        currentPriority := thread.initPriority
        stat := .suspend
        yield := false }).ListsOk none := by
  have hoff := h.notMem (t := t) (by rw [hstat]; decide) (by rw [hstat]; decide)
  have hset : (k.setThread t fun thread =>
      { thread with
        currentPriority := thread.initPriority
        stat := .suspend
        yield := false }).ListsOk (some t) := (h.of_notMem hoff).setThread hprio
  refine hset.close ?_ fun _ => ?_ <;> rw [setThread_self]
  exact nofun

/-- So is `rt_thread_startup`. -/
theorem ipc_startup : (rtThreadStartup k t).ipc = k.ipc.startup t := by
  have hset : (k.setThread t fun thread =>
      { thread with
        currentPriority := thread.initPriority
        stat := .suspend
        yield := false }).ipc =
      k.ipc.setThread t fun thread =>
        { thread with
          started := true
          suspended := true
          currentPriority := thread.initPriority } := ipc_setThread rfl
  unfold rtThreadStartup
  dsimp only
  rw [ipc_resume (by rw [setThread_self]), hset]
  unfold Ipc.startup Ipc.wake
  rw [leave_setThread, setThread_setThread, leave_setThread, setThread_setThread]

/-- A thread is started up from its initial state. -/
theorem rtThreadStartup_ok (h : k.Ok) (hstat : (k.thread t).stat = .init)
    (hprio : (k.thread t).initPriority < 32) : (rtThreadStartup k t).Ok := by
  have hne : k.currentThread ≠ t := by
    rintro rfl
    rcases h.current with hstat' | hstat' <;> exact absurd (hstat.symm.trans hstat') (by decide)
  unfold rtThreadStartup
  refine rtThreadResume_ok ⟨h.lists.startup hstat hprio, fun t' hrun => ?_, ?_, h.originalPriority_lt⟩
    (by rw [setThread_self])
  · by_cases ht : t' = t
    · rw [ht, setThread_self] at hrun
      exact absurd hrun nofun
    · rw [setThread_of_ne _ _ _ ht] at hrun
      exact h.running t' hrun
  · rw [setThread_current, setThread_of_ne _ _ _ hne]
    exact h.current

end Functions

end Stm32Board.Rtos
