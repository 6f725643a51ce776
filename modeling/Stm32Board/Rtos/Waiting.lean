import Stm32Board.Rtos.Ipc
import Stm32Board.Rtos.Lists
import Stm32Board.Common.Transition
import Mathlib.Tactic.SplitIfs

/-!
# Who waits for what

What a step of the threads can be is said once (`IpcCase`). A thread is suspended exactly while it is
in a call that cannot return yet, and in the queue of the object of that call (`WaitsOk`); nobody
waits for what is to be had.
-/

namespace Stm32Board.Rtos

open Common
open At (rtEok rtError rtEtimeout)

/-! ## One thread, one semaphore, one mutex -/

namespace Ipc

variable (i : Ipc) (t : ThreadId)

def setError (error : ℤ) : Ipc := i.setThread t fun thread => { thread with error := error }

def setPriority (priority : UInt8) : Ipc :=
  i.setThread t fun thread => { thread with currentPriority := priority }

section SetThread

variable (f : IpcThread → IpcThread)

@[simp] theorem setThread_self : (i.setThread t f).thread t = f (i.thread t) := Function.update_self ..

/-- The other threads are left alone. -/
theorem setThread_of_ne {t' : ThreadId} (h : t' ≠ t) : (i.setThread t f).thread t' = i.thread t' :=
  Function.update_of_ne h ..

/-- A field that `f` leaves alone. -/
theorem setThread_field {β : Type} (field : IpcThread → β)
    (hf : field (f (i.thread t)) = field (i.thread t)) (t' : ThreadId) :
    field ((i.setThread t f).thread t') = field (i.thread t') := by
  by_cases ht : t' = t
  · rw [ht, setThread_self, hf]
  · rw [setThread_of_ne i t f ht]

end SetThread

section Fields

variable (error : ℤ) (priority : UInt8) (t' : ThreadId)

/-- An error code changes nothing else of any thread. -/
@[simp] theorem setError_fields :
    ((i.setError t error).thread t').started = (i.thread t').started ∧
    ((i.setError t error).thread t').suspended = (i.thread t').suspended ∧
    ((i.setError t error).thread t').initPriority = (i.thread t').initPriority ∧
    ((i.setError t error).thread t').currentPriority = (i.thread t').currentPriority ∧
    ((i.setError t error).thread t').timer = (i.thread t').timer := by
  refine ⟨?_, ?_, ?_, ?_, ?_⟩ <;> exact i.setThread_field t _ _ rfl t'

@[simp] theorem setError_objects :
    (i.setError t error).queue = i.queue ∧ (i.setError t error).sem = i.sem ∧
      (i.setError t error).mutex = i.mutex := ⟨rfl, rfl, rfl⟩

@[simp] theorem setError_error : ((i.setError t error).thread t).error = error :=
  congrArg IpcThread.error (i.setThread_self t _)

/-- The other threads keep their error codes. -/
theorem setError_of_ne {t' : ThreadId} (h : t' ≠ t) : (i.setError t error).thread t' = i.thread t' :=
  i.setThread_of_ne t _ h

/-- Setting the error code a thread has does nothing. -/
theorem setError_self : i.setError t (i.thread t).error = i := by
  unfold setError setThread
  exact congrArg (fun thread => { i with thread := thread }) (Function.update_eq_self _ _)

/-- A current priority changes nothing else of any thread. -/
@[simp] theorem setPriority_fields :
    ((i.setPriority t priority).thread t').started = (i.thread t').started ∧
    ((i.setPriority t priority).thread t').suspended = (i.thread t').suspended ∧
    ((i.setPriority t priority).thread t').initPriority = (i.thread t').initPriority ∧
    ((i.setPriority t priority).thread t').error = (i.thread t').error ∧
    ((i.setPriority t priority).thread t').timer = (i.thread t').timer := by
  refine ⟨?_, ?_, ?_, ?_, ?_⟩ <;> exact i.setThread_field t _ _ rfl t'

@[simp] theorem setPriority_objects :
    (i.setPriority t priority).queue = i.queue ∧ (i.setPriority t priority).sem = i.sem ∧
      (i.setPriority t priority).mutex = i.mutex := ⟨rfl, rfl, rfl⟩

@[simp] theorem setPriority_currentPriority :
    ((i.setPriority t priority).thread t).currentPriority = priority :=
  congrArg IpcThread.currentPriority (i.setThread_self t _)

/-- The other threads keep their priorities. -/
theorem setPriority_of_ne {t' : ThreadId} (h : t' ≠ t) :
    (i.setPriority t priority).thread t' = i.thread t' := i.setThread_of_ne t _ h

end Fields

section Wake

variable (t' : ThreadId)

/-- A thread that is woken is not suspended, and its timer is stopped. -/
theorem wake_self : (i.wake t).thread t =
    { i.thread t with started := true, suspended := false, timer := false } :=
  setThread_self (i.leave t) t _

/-- Waking a thread leaves the others alone. -/
theorem wake_of_ne {t' : ThreadId} (h : t' ≠ t) : (i.wake t).thread t' = i.thread t' :=
  setThread_of_ne (i.leave t) t _ h

/-- It changes no priority and no error code. -/
@[simp] theorem wake_fields :
    ((i.wake t).thread t').initPriority = (i.thread t').initPriority ∧
    ((i.wake t).thread t').currentPriority = (i.thread t').currentPriority ∧
    ((i.wake t).thread t').error = (i.thread t').error := by
  refine ⟨?_, ?_, ?_⟩ <;> exact (i.leave t).setThread_field t _ _ rfl t'

/-- The thread leaves the queue it is in; the objects keep their values. -/
@[simp] theorem wake_objects :
    (∀ o, (i.wake t).queue o = (i.queue o).erase t) ∧ (i.wake t).sem = i.sem ∧
      (i.wake t).mutex = i.mutex := ⟨fun _ => rfl, rfl, rfl⟩

/-- The error may as well be set afterwards. -/
theorem timeout_eq : i.timeout t = (i.wake t).setError t (-rtEtimeout) := by
  unfold timeout wake setError setThread leave
  dsimp only
  rw [Function.update_self, Function.update_self, Function.update_idem, Function.update_idem]

variable (o : IpcObject) (flag : IpcFlag) (time : ℤ)

/-- A thread that is parked is suspended, with a timer if it waits for a time. -/
theorem park_self : (i.park t o flag time).thread t =
    { i.thread t with suspended := true, timer := time > 0 } := Function.update_self ..

/-- Parking a thread leaves the others alone. -/
theorem park_of_ne {t' : ThreadId} (h : t' ≠ t) :
    (i.park t o flag time).thread t' = i.thread t' := Function.update_of_ne h ..

/-- It joins the queue of no other object. -/
theorem park_queue_of_ne {o' : IpcObject} (h : o' ≠ o) :
    (i.park t o flag time).queue o' = i.queue o' := Function.update_of_ne h ..

/-- It joins the queue of this one, wherever its priority puts it. -/
theorem mem_park_queue : t' ∈ (i.park t o flag time).queue o ↔ t' = t ∨ t' ∈ i.queue o := by
  have hself : (i.park t o flag time).queue o =
      insertWaiting (fun s => (i.thread s).currentPriority) flag t (i.queue o) :=
    Function.update_self ..
  rw [hself, (insertWaiting_perm _ flag t _).mem_iff, List.mem_cons]

/-- It keeps its priorities and its error code. -/
@[simp] theorem park_fields :
    ((i.park t o flag time).thread t').started = (i.thread t').started ∧
    ((i.park t o flag time).thread t').initPriority = (i.thread t').initPriority ∧
    ((i.park t o flag time).thread t').currentPriority = (i.thread t').currentPriority ∧
    ((i.park t o flag time).thread t').error = (i.thread t').error := by
  by_cases ht : t' = t
  · rw [ht, park_self]
    exact ⟨rfl, rfl, rfl, rfl⟩
  · rw [i.park_of_ne t o flag time ht]
    exact ⟨rfl, rfl, rfl, rfl⟩

@[simp] theorem park_objects :
    (i.park t o flag time).sem = i.sem ∧ (i.park t o flag time).mutex = i.mutex := ⟨rfl, rfl⟩

/-- A thread that sleeps is suspended with its timer running. -/
theorem sleep_self : (i.sleep t).thread t = { i.thread t with suspended := true, timer := true } :=
  i.setThread_self t _

/-- The other threads do not sleep. -/
theorem sleep_of_ne {t' : ThreadId} (h : t' ≠ t) : (i.sleep t).thread t' = i.thread t' :=
  i.setThread_of_ne t _ h

/-- Sleeping changes no priority and no error code. -/
@[simp] theorem sleep_fields :
    ((i.sleep t).thread t').started = (i.thread t').started ∧
    ((i.sleep t).thread t').initPriority = (i.thread t').initPriority ∧
    ((i.sleep t).thread t').currentPriority = (i.thread t').currentPriority ∧
    ((i.sleep t).thread t').error = (i.thread t').error := by
  refine ⟨?_, ?_, ?_, ?_⟩ <;> exact i.setThread_field t _ _ rfl t'

@[simp] theorem sleep_objects :
    (i.sleep t).queue = i.queue ∧ (i.sleep t).sem = i.sem ∧ (i.sleep t).mutex = i.mutex :=
  ⟨rfl, rfl, rfl⟩

end Wake

section Inherit

variable (owner : Option ThreadId) (priority : UInt8) (t' : ThreadId)

/-- Either nothing happens or the owner gets a higher priority. -/
theorem inherit_cases :
    i.inherit owner priority = i ∨
      ∃ o, owner = some o ∧ priority < (i.thread o).currentPriority ∧
        i.inherit owner priority = i.setPriority o priority := by
  unfold inherit
  cases owner with
  | none => exact .inl rfl
  | some o =>
    dsimp only
    split_ifs with hlt
    · exact .inr ⟨o, rfl, hlt, rfl⟩
    · exact .inl rfl

/-- Inheriting changes nothing of a thread but its current priority. -/
@[simp] theorem inherit_fields :
    ((i.inherit owner priority).thread t').started = (i.thread t').started ∧
    ((i.inherit owner priority).thread t').suspended = (i.thread t').suspended ∧
    ((i.inherit owner priority).thread t').initPriority = (i.thread t').initPriority ∧
    ((i.inherit owner priority).thread t').error = (i.thread t').error ∧
    ((i.inherit owner priority).thread t').timer = (i.thread t').timer := by
  rcases i.inherit_cases owner priority with heq | ⟨o, -, -, heq⟩ <;> rw [heq]
  · exact ⟨rfl, rfl, rfl, rfl, rfl⟩
  · simp

@[simp] theorem inherit_objects :
    (i.inherit owner priority).queue = i.queue ∧ (i.inherit owner priority).sem = i.sem ∧
      (i.inherit owner priority).mutex = i.mutex := by
  rcases i.inherit_cases owner priority with heq | ⟨o, -, -, heq⟩ <;> rw [heq] <;>
    exact ⟨rfl, rfl, rfl⟩

end Inherit

@[simp] theorem setSem_self (s : SemId) (sem : Semaphore) : (i.setSem s sem).sem s = sem :=
  Function.update_self ..

/-- The other semaphores are left alone. -/
theorem setSem_of_ne (s : SemId) (sem : Semaphore) {s' : SemId} (h : s' ≠ s) :
    (i.setSem s sem).sem s' = i.sem s' := Function.update_of_ne h ..

/-- A semaphore is no thread, queue or mutex. -/
@[simp] theorem setSem_fields (s : SemId) (sem : Semaphore) :
    (i.setSem s sem).thread = i.thread ∧ (i.setSem s sem).queue = i.queue ∧
      (i.setSem s sem).mutex = i.mutex := ⟨rfl, rfl, rfl⟩

/-- A mutex is no thread, queue or semaphore. -/
@[simp] theorem setMutex_fields (m : MutexId) (mutex : Mutex) :
    (i.setMutex m mutex).thread = i.thread ∧ (i.setMutex m mutex).queue = i.queue ∧
      (i.setMutex m mutex).sem = i.sem := ⟨rfl, rfl, rfl⟩

section SetMutex

variable (m : MutexId) (mutex : Mutex)

@[simp] theorem setMutex_self : (i.setMutex m mutex).mutex m = mutex := Function.update_self ..

/-- The other mutexes are left alone. -/
theorem setMutex_of_ne {m' : MutexId} (h : m' ≠ m) : (i.setMutex m mutex).mutex m' = i.mutex m' :=
  Function.update_of_ne h ..

/-- Of two values for one mutex the second stays. -/
theorem setMutex_setMutex (mutex' : Mutex) :
    (i.setMutex m mutex).setMutex m mutex' = i.setMutex m mutex' := by
  unfold setMutex
  dsimp only
  rw [Function.update_idem]

/-- A mutex that somebody waits for is handed to the first in its queue, who is woken. -/
theorem passOn_cons {next : ThreadId} {threads : List ThreadId}
    (hqueue : i.queue (.mutex m) = next :: threads) :
    (i.setMutex m mutex).passOn m = (i.setMutex m
      { mutex with
        owner := some next
        originalPriority := (i.thread next).currentPriority
        hold := mutex.hold + 1 }).wake next := by
  unfold passOn
  rw [show (i.setMutex m mutex).queue (.mutex m) = i.queue (.mutex m) from rfl, hqueue]
  dsimp only
  rw [setMutex_self, setMutex_setMutex]
  rfl

/-- A mutex that nobody waits for becomes free. -/
theorem passOn_nil (hqueue : i.queue (.mutex m) = []) :
    (i.setMutex m mutex).passOn m = i.setMutex m
      { mutex with value := mutex.value + 1, owner := none, originalPriority := 0xFF } := by
  unfold passOn
  rw [show (i.setMutex m mutex).queue (.mutex m) = i.queue (.mutex m) from rfl, hqueue]
  dsimp only
  rw [setMutex_self, setMutex_setMutex]

end SetMutex

end Ipc

/-! ## What a step can be -/

/-- A thread that may make a call. -/
structure System.MayCall (y : System Ipc) (t : ThreadId) : Prop where
  started : (y.state.thread t).started
  awake : (y.state.thread t).suspended = false
  idle : y.waiting t = none

/-- The ways a step can go, and whom it gives what he waited for. -/
inductive IpcCase (y : System Ipc) :
    IpcEvent → Option (ThreadId × IpcObject) → System Ipc → Prop where
  | startup {t : ThreadId} (hstarted : (y.state.thread t).started = false) :
      IpcCase y (.startup t) none
        { y with state := (y.state.setPriority t (y.state.thread t).initPriority).wake t }
  | refused {t : ThreadId} {c : Call} {error result : ℤ} (hcall : y.MayCall t)
      (hresult : result ≠ rtEok) :
      IpcCase y (.call t c) none
        { y with state := y.state.setError t error, log := ⟨t, c, result⟩ :: y.log }
  | semTaken {t : ThreadId} {s : SemId} {time : ℤ} (hcall : y.MayCall t)
      (hvalue : (y.state.sem s).value > 0) :
      IpcCase y (.call t (.semTake s time)) none
        { y with
          state := y.state.setSem s
            { y.state.sem s with value := (y.state.sem s).value - 1 }
          log := ⟨t, .semTake s time, rtEok⟩ :: y.log }
  | semWaits {t : ThreadId} {s : SemId} {time : ℤ} (hcall : y.MayCall t)
      (hvalue : (y.state.sem s).value = 0) :
      IpcCase y (.call t (.semTake s time)) none
        { y with
          state := (y.state.setError t rtEok).park t (.sem s) (y.state.sem s).flag time
          waiting := Function.update y.waiting t (some (.semTake s time)) }
  | retaken {t : ThreadId} {m : MutexId} {time : ℤ} (hcall : y.MayCall t)
      (howner : (y.state.mutex m).owner = some t) :
      IpcCase y (.call t (.mutexTake m time)) none
        { y with
          state := (y.state.setError t rtEok).setMutex m
            { y.state.mutex m with hold := (y.state.mutex m).hold + 1 }
          log := ⟨t, .mutexTake m time, rtEok⟩ :: y.log }
  | taken {t : ThreadId} {m : MutexId} {time : ℤ} (hcall : y.MayCall t)
      (howner : (y.state.mutex m).owner ≠ some t) (hvalue : (y.state.mutex m).value > 0) :
      IpcCase y (.call t (.mutexTake m time)) none
        { y with
          state := (y.state.setError t rtEok).setMutex m
            { y.state.mutex m with
              value := (y.state.mutex m).value - 1
              owner := some t
              originalPriority := (y.state.thread t).currentPriority
              hold := (y.state.mutex m).hold + 1 }
          log := ⟨t, .mutexTake m time, rtEok⟩ :: y.log }
  | mutexWaits {t : ThreadId} {m : MutexId} {time : ℤ} (hcall : y.MayCall t)
      (howner : (y.state.mutex m).owner ≠ some t) (hvalue : (y.state.mutex m).value = 0) :
      IpcCase y (.call t (.mutexTake m time)) none
        { y with
          state := ((y.state.setError t rtEok).inherit (y.state.mutex m).owner
            (y.state.thread t).currentPriority).park t (.mutex m) (y.state.mutex m).flag time
          waiting := Function.update y.waiting t (some (.mutexTake m time)) }
  | releasedOnce {t : ThreadId} {m : MutexId} (hcall : y.MayCall t)
      (howner : (y.state.mutex m).owner = some t) (hhold : (y.state.mutex m).hold - 1 ≠ 0) :
      IpcCase y (.call t (.mutexRelease m)) none
        { y with
          state := y.state.setMutex m { y.state.mutex m with hold := (y.state.mutex m).hold - 1 }
          log := ⟨t, .mutexRelease m, rtEok⟩ :: y.log }
  | handed {t next : ThreadId} {m : MutexId} {threads : List ThreadId} (hcall : y.MayCall t)
      (howner : (y.state.mutex m).owner = some t) (hhold : (y.state.mutex m).hold - 1 = 0)
      (hqueue : y.state.queue (.mutex m) = next :: threads) :
      IpcCase y (.call t (.mutexRelease m)) (some (next, .mutex m))
        { y with
          state := ((y.state.setPriority t (y.state.mutex m).originalPriority).setMutex m
            { y.state.mutex m with
              owner := some next
              originalPriority := ((y.state.setPriority t
                (y.state.mutex m).originalPriority).thread next).currentPriority
              hold := 1 }).wake next
          log := ⟨t, .mutexRelease m, rtEok⟩ :: y.log }
  | freed {t : ThreadId} {m : MutexId} (hcall : y.MayCall t)
      (howner : (y.state.mutex m).owner = some t) (hhold : (y.state.mutex m).hold - 1 = 0)
      (hqueue : y.state.queue (.mutex m) = []) :
      IpcCase y (.call t (.mutexRelease m)) none
        { y with
          state := (y.state.setPriority t (y.state.mutex m).originalPriority).setMutex m
            { y.state.mutex m with
              value := (y.state.mutex m).value + 1
              owner := none
              originalPriority := 0xFF
              hold := 0 }
          log := ⟨t, .mutexRelease m, rtEok⟩ :: y.log }
  | sleep {t : ThreadId} (hcall : y.MayCall t) :
      IpcCase y (.call t .sleep) none
        { y with
          state := y.state.sleep t
          waiting := Function.update y.waiting t (some .sleep) }
  | semGiven {s : SemId} {t : ThreadId} {threads : List ThreadId}
      (hqueue : y.state.queue (.sem s) = t :: threads) :
      IpcCase y (.semRelease s) (some (t, .sem s)) { y with state := y.state.wake t }
  | semKept {s : SemId} (hqueue : y.state.queue (.sem s) = []) :
      IpcCase y (.semRelease s) none
        { y with
          state := y.state.setSem s
            { y.state.sem s with value := (y.state.sem s).value + 1 } }
  | timeout {t : ThreadId} (htimer : (y.state.thread t).timer) :
      IpcCase y (.timeout t) none { y with state := (y.state.wake t).setError t (-rtEtimeout) }
  | goOn {t : ThreadId} {c : Call} (hawake : (y.state.thread t).suspended = false)
      (hwaiting : y.waiting t = some c) :
      IpcCase y (.goOn t) none
        { state := y.state.setError t (c.result (y.state.thread t).error).1
          waiting := Function.update y.waiting t none
          log := ⟨t, c, (c.result (y.state.thread t).error).2⟩ :: y.log }

section Cases

variable {y y' : System Ipc} {t : ThreadId}

/-- What `rt_sem_take` can do is one of the cases. -/
theorem ipcCase_semTake (hcall : y.MayCall t) (s : SemId) (time : ℤ) :
    IpcCase y (.call t (.semTake s time)) none
      (y.finish t (.semTake s time) (y.state.semTake t s time)) := by
  unfold Ipc.semTake System.finish
  dsimp only
  by_cases hvalue : (y.state.sem s).value > 0
  · rw [if_pos hvalue]
    exact .semTaken hcall hvalue
  · rw [if_neg hvalue]
    by_cases htime : time = 0
    · rw [if_pos htime]
      have hcase : IpcCase y (.call t (.semTake s time)) none
          { y with
            state := y.state.setError t (y.state.thread t).error
            log := ⟨t, .semTake s time, -rtEtimeout⟩ :: y.log } := .refused hcall (by decide)
      rw [Ipc.setError_self] at hcase
      exact hcase
    · rw [if_neg htime]
      exact .semWaits hcall (UInt16.le_zero_iff.mp (UInt16.not_lt.mp hvalue))

/-- What `rt_mutex_take` can do is one of the cases. -/
theorem ipcCase_mutexTake (hcall : y.MayCall t) (m : MutexId) (time : ℤ) :
    IpcCase y (.call t (.mutexTake m time)) none
      (y.finish t (.mutexTake m time) (y.state.mutexTake t m time)) := by
  have hprio : ((y.state.setError t rtEok).thread t).currentPriority =
      (y.state.thread t).currentPriority := by simp
  -- the four branches of the function
  have heq : y.state.mutexTake t m time =
      if (y.state.mutex m).owner = some t then
        ((y.state.setError t rtEok).setMutex m
          { y.state.mutex m with hold := (y.state.mutex m).hold + 1 }, some rtEok)
      else if (y.state.mutex m).value > 0 then
        ((y.state.setError t rtEok).setMutex m
          { y.state.mutex m with
            value := (y.state.mutex m).value - 1
            owner := some t
            originalPriority := (y.state.thread t).currentPriority
            hold := (y.state.mutex m).hold + 1 }, some rtEok)
      else if time = 0 then
        ((y.state.setError t rtEok).setError t (-rtEtimeout), some (-rtEtimeout))
      else
        (((y.state.setError t rtEok).inherit (y.state.mutex m).owner
          (y.state.thread t).currentPriority).park t (.mutex m) (y.state.mutex m).flag time,
          none) := by
    rw [← hprio]
    rfl
  rw [heq]
  unfold System.finish
  by_cases howner : (y.state.mutex m).owner = some t
  · rw [if_pos howner]
    exact .retaken hcall howner
  rw [if_neg howner]
  by_cases hvalue : (y.state.mutex m).value > 0
  · rw [if_pos hvalue]
    exact .taken hcall howner hvalue
  rw [if_neg hvalue]
  by_cases htime : time = 0
  · have herror : (y.state.setError t rtEok).setError t (-rtEtimeout) =
        y.state.setError t (-rtEtimeout) := by
      unfold Ipc.setError Ipc.setThread
      dsimp only
      rw [Function.update_self, Function.update_idem]
    rw [if_pos htime, herror]
    exact .refused hcall (by decide)
  · rw [if_neg htime]
    exact .mutexWaits hcall howner (UInt16.le_zero_iff.mp (UInt16.not_lt.mp hvalue))

/-- What `rt_mutex_release` can do is one of the cases. -/
theorem ipcCase_mutexRelease (hcall : y.MayCall t) (m : MutexId) :
    ∃ given, IpcCase y (.call t (.mutexRelease m)) given
      (y.finish t (.mutexRelease m)
        ((y.state.mutexRelease t m).1, some (y.state.mutexRelease t m).2)) := by
  have heq : y.state.mutexRelease t m =
      if (y.state.mutex m).owner ≠ some t then (y.state.setError t (-rtError), -rtError)
      else if (y.state.mutex m).hold - 1 = 0 then
        (((y.state.setPriority t (y.state.mutex m).originalPriority).setMutex m
          { y.state.mutex m with hold := (y.state.mutex m).hold - 1 }).passOn m, rtEok)
      else (y.state.setMutex m { y.state.mutex m with hold := (y.state.mutex m).hold - 1 }, rtEok) :=
    rfl
  rw [heq]
  unfold System.finish
  by_cases howner : (y.state.mutex m).owner = some t
  · rw [if_neg (not_not.mpr howner)]
    by_cases hhold : (y.state.mutex m).hold - 1 = 0
    · rw [if_pos hhold, hhold]
      cases hqueue : y.state.queue (.mutex m) with
      | nil =>
        rw [Ipc.passOn_nil (y.state.setPriority t (y.state.mutex m).originalPriority) m _ hqueue]
        exact ⟨_, .freed hcall howner hhold hqueue⟩
      | cons next threads =>
        rw [Ipc.passOn_cons (y.state.setPriority t (y.state.mutex m).originalPriority) m _ hqueue]
        exact ⟨_, .handed hcall howner hhold hqueue⟩
    · rw [if_neg hhold]
      exact ⟨_, .releasedOnce hcall howner hhold⟩
  · have hresult : -rtError ≠ rtEok := by decide
    rw [if_pos howner]
    exact ⟨_, .refused hcall hresult⟩

/-- A step is one of the cases. -/
theorem ipcStep_cases {e : IpcEvent} (h : ipcStep y e = some y') :
    ∃ given, IpcCase y e given y' := by
  unfold ipcStep at h
  cases e with
  | startup t =>
    dsimp only at h
    split_ifs at h with hstarted
    rw [← Option.some.inj h]
    exact ⟨_, .startup (Bool.eq_false_iff.mpr hstarted)⟩
  | call t c =>
    dsimp only at h
    split_ifs at h with hmay
    have hcall : y.MayCall t := ⟨hmay.1, Bool.eq_false_iff.mpr hmay.2.1, hmay.2.2⟩
    rw [← Option.some.inj h]
    cases c with
    | semTake s time => exact ⟨_, ipcCase_semTake hcall s time⟩
    | mutexTake m time => exact ⟨_, ipcCase_mutexTake hcall m time⟩
    | mutexRelease m => exact ipcCase_mutexRelease hcall m
    | sleep => exact ⟨_, .sleep hcall⟩
  | semRelease s =>
    rw [← Option.some.inj h]
    unfold Ipc.semRelease
    cases hqueue : y.state.queue (.sem s) with
    | nil => exact ⟨_, .semKept hqueue⟩
    | cons t threads => exact ⟨_, .semGiven hqueue⟩
  | timeout t =>
    dsimp only at h
    split_ifs at h with htimer
    rw [← Option.some.inj h, Ipc.timeout_eq]
    exact ⟨_, .timeout htimer⟩
  | goOn t =>
    dsimp only at h
    split_ifs at h with hsuspended
    obtain ⟨c, hc, rfl⟩ := Option.map_eq_some_iff.mp h
    exact ⟨_, .goOn (Bool.eq_false_iff.mpr hsuspended) hc⟩

end Cases

/-! ## Queues and calls -/

/-- What a call waits for, if it is something. -/
def Call.object : Call → Option IpcObject
  | .semTake s _ => some (.sem s)
  | .mutexTake m _ => some (.mutex m)
  | .mutexRelease _ => none
  | .sleep => none

/-- A thread is suspended in a call only, and in the queue of what the call waits for. -/
structure Ipc.WaitsOk (i : Ipc) (waiting : ThreadId → Option Call) : Prop where
  linked : Linked i.queue
  queued : ∀ t o, t ∈ i.queue o →
    (i.thread t).suspended ∧ ∃ c, waiting t = some c ∧ c.object = some o
  suspended : ∀ t, (i.thread t).suspended →
    ∃ c, waiting t = some c ∧ ∀ o, c.object = some o → t ∈ i.queue o ∧ (i.thread t).error = rtEok
  started : ∀ t, waiting t ≠ none → (i.thread t).started
  timer : ∀ t, (i.thread t).timer → (i.thread t).suspended
  waits : ∀ t c, waiting t = some c → c = .sleep ∨ ∃ o, c.object = some o

namespace Ipc.WaitsOk

variable {i i' : Ipc} {waiting : ThreadId → Option Call} {t : ThreadId}

/-- A thread that is awake is in no queue. -/
theorem notMem (h : i.WaitsOk waiting) (hawake : (i.thread t).suspended = false) (o : IpcObject) :
    t ∉ i.queue o := by
  intro hmem
  rw [(h.queued t o hmem).1] at hawake
  exact absurd hawake nofun

/-- Who waits stays as it is. -/
theorem congr (h : i.WaitsOk waiting) (hqueue : i'.queue = i.queue)
    (hstarted : ∀ t, (i'.thread t).started = (i.thread t).started)
    (hsuspended : ∀ t, (i'.thread t).suspended = (i.thread t).suspended)
    (htimer : ∀ t, (i'.thread t).timer = (i.thread t).timer)
    (herror : ∀ t, (i.thread t).suspended → (i'.thread t).error = (i.thread t).error) :
    i'.WaitsOk waiting := by
  refine ⟨?_, fun t o => ?_, fun t hsus => ?_, fun t => ?_, fun t => ?_, h.waits⟩
  · rw [hqueue]
    exact h.linked
  · rw [hqueue, hsuspended]
    exact h.queued t o
  · rw [hsuspended] at hsus
    rw [hqueue, herror t hsus]
    exact h.suspended t hsus
  · rw [hstarted]
    exact h.started t
  · rw [htimer, hsuspended]
    exact h.timer t

/-- The error of a thread that is awake does not matter. -/
theorem setError (h : i.WaitsOk waiting) (hawake : (i.thread t).suspended = false) (error : ℤ) :
    (i.setError t error).WaitsOk waiting := by
  refine h.congr rfl (by simp) (by simp) (by simp) fun t' hsus => ?_
  have ht : t' ≠ t := by
    rintro rfl
    rw [hsus] at hawake
    exact absurd hawake nofun
  rw [i.setError_of_ne t error ht]

/-- Nor does a priority. -/
theorem setPriority (h : i.WaitsOk waiting) (t : ThreadId) (priority : UInt8) :
    (i.setPriority t priority).WaitsOk waiting :=
  h.congr rfl (by simp) (by simp) (by simp) (by simp)

/-- Priorities have no part in it. -/
theorem inherit (h : i.WaitsOk waiting) (owner : Option ThreadId) (priority : UInt8) :
    (i.inherit owner priority).WaitsOk waiting :=
  h.congr (by simp) (by simp) (by simp) (by simp) (by simp)

/-- Nor do the objects. -/
theorem objects (h : i.WaitsOk waiting) (sem : SemId → Semaphore) (mutex : MutexId → Mutex) :
    ({ i with sem := sem, mutex := mutex } : Ipc).WaitsOk waiting :=
  h.congr rfl (fun _ => rfl) (fun _ => rfl) (fun _ => rfl) fun _ _ => rfl

/-- A thread is woken, or started. -/
theorem wake (h : i.WaitsOk waiting) (t : ThreadId) : (i.wake t).WaitsOk waiting := by
  have hmem : ∀ o t', t' ∈ (i.wake t).queue o ↔ t' ≠ t ∧ t' ∈ i.queue o := fun o t' =>
    h.linked.mem_erase_iff
  refine ⟨h.linked.erase t, fun t' o => ?_, fun t' => ?_, fun t' hwait => ?_, fun t' => ?_, h.waits⟩
  · rw [hmem]
    rintro ⟨ht, hmem⟩
    rw [i.wake_of_ne t ht]
    exact h.queued t' o hmem
  · by_cases ht : t' = t
    · rw [ht, wake_self]
      exact nofun
    · rw [i.wake_of_ne t ht]
      intro hsus
      obtain ⟨c, hc, hobject⟩ := h.suspended t' hsus
      refine ⟨c, hc, fun o ho => ?_⟩
      rw [hmem]
      exact ⟨⟨ht, (hobject o ho).1⟩, (hobject o ho).2⟩
  · by_cases ht : t' = t
    · rw [ht, wake_self]
    · rw [i.wake_of_ne t ht]
      exact h.started t' hwait
  · by_cases ht : t' = t
    · rw [ht, wake_self]
      exact nofun
    · rw [i.wake_of_ne t ht]
      exact h.timer t'

/-- A thread that is awake waits in the queue of an object. -/
theorem park (h : i.WaitsOk waiting) (hawake : (i.thread t).suspended = false)
    (hstarted : (i.thread t).started) (herror : (i.thread t).error = rtEok) {c : Call}
    {o : IpcObject} (hc : c.object = some o) (flag : IpcFlag) (time : ℤ) :
    (i.park t o flag time).WaitsOk (Function.update waiting t (some c)) := by
  have hperm := insertWaiting_perm (fun s => (i.thread s).currentPriority) flag t (i.queue o)
  have hoff := h.notMem hawake
  have hmem : ∀ o' t', t' ∈ (i.park t o flag time).queue o' ↔
      t' = t ∧ o' = o ∨ t' ∈ i.queue o' := fun o' t' => Linked.mem_insert hperm o'
  -- queued, suspended, started, timer, waits: of the thread itself and of the others
  refine ⟨h.linked.insert hoff hperm, fun t' o' => ?_, fun t' => ?_, fun t' => ?_, fun t' => ?_,
    fun t' c' => ?_⟩ <;> by_cases ht : t' = t
  · rw [hmem, ht, park_self, Function.update_self]
    rintro (⟨-, rfl⟩ | hmem)
    · exact ⟨rfl, c, rfl, hc⟩
    · exact absurd hmem (hoff o')
  · rw [hmem, i.park_of_ne t o flag time ht, Function.update_of_ne ht]
    rintro (⟨rfl, -⟩ | hmem)
    · exact absurd rfl ht
    · exact h.queued t' o' hmem
  · rw [ht, park_self, Function.update_self]
    refine fun _ => ⟨c, rfl, fun o' ho' => ?_⟩
    rw [hmem]
    exact ⟨.inl ⟨rfl, Option.some.inj (ho'.symm.trans hc)⟩, herror⟩
  · rw [i.park_of_ne t o flag time ht, Function.update_of_ne ht]
    intro hsus
    obtain ⟨c', hc', hobject⟩ := h.suspended t' hsus
    refine ⟨c', hc', fun o' ho' => ?_⟩
    rw [hmem]
    exact ⟨.inr (hobject o' ho').1, (hobject o' ho').2⟩
  · rw [ht, park_self]
    exact fun _ => hstarted
  · rw [i.park_of_ne t o flag time ht, Function.update_of_ne ht]
    exact h.started t'
  · rw [ht, park_self]
    exact fun _ => rfl
  · rw [i.park_of_ne t o flag time ht]
    exact h.timer t'
  · rw [ht, Function.update_self]
    intro hc'
    rw [← Option.some.inj hc']
    exact .inr ⟨o, hc⟩
  · rw [Function.update_of_ne ht]
    exact h.waits t' c'

/-- A thread that is awake sleeps. -/
theorem sleep (h : i.WaitsOk waiting) (hawake : (i.thread t).suspended = false)
    (hstarted : (i.thread t).started) :
    (i.sleep t).WaitsOk (Function.update waiting t (some .sleep)) := by
  have hself : (i.sleep t).thread t = { i.thread t with suspended := true, timer := true } :=
    i.setThread_self t _
  have hother : ∀ t', t' ≠ t → (i.sleep t).thread t' = i.thread t' := fun t' =>
    i.setThread_of_ne t _
  refine ⟨h.linked, fun t' o hmem => ?_, fun t' => ?_, fun t' => ?_, fun t' => ?_,
    fun t' c' => ?_⟩
  · have ht : t' ≠ t := by
      rintro rfl
      exact h.notMem hawake o hmem
    rw [hother t' ht, Function.update_of_ne ht]
    exact h.queued t' o hmem
  all_goals by_cases ht : t' = t
  · rw [ht, Function.update_self]
    exact fun _ => ⟨.sleep, rfl, fun o ho => absurd ho nofun⟩
  · rw [hother t' ht, Function.update_of_ne ht]
    exact h.suspended t'
  · rw [ht, hself]
    exact fun _ => hstarted
  · rw [hother t' ht, Function.update_of_ne ht]
    exact h.started t'
  · rw [ht, hself]
    exact fun _ => rfl
  · rw [hother t' ht]
    exact h.timer t'
  · rw [ht, Function.update_self]
    exact fun hc' => .inl (Option.some.inj hc').symm
  · rw [Function.update_of_ne ht]
    exact h.waits t' c'

/-- A thread that is awake leaves its call. -/
theorem back (h : i.WaitsOk waiting) (hawake : (i.thread t).suspended = false) :
    i.WaitsOk (Function.update waiting t none) := by
  have hne : ∀ t', (i.thread t').suspended → t' ≠ t := by
    rintro t' hsus rfl
    rw [hsus] at hawake
    exact absurd hawake nofun
  refine ⟨h.linked, fun t' o hmem => ?_, fun t' hsus => ?_, fun t' => ?_, h.timer, fun t' c => ?_⟩
  · rw [Function.update_of_ne (hne t' (h.queued t' o hmem).1)]
    exact h.queued t' o hmem
  · rw [Function.update_of_ne (hne t' hsus)]
    exact h.suspended t' hsus
  all_goals by_cases ht : t' = t
  · rw [ht, Function.update_self]
    exact fun hne => absurd rfl hne
  · rw [Function.update_of_ne ht]
    exact h.started t'
  · rw [ht, Function.update_self]
    exact nofun
  · rw [Function.update_of_ne ht]
    exact h.waits t' c

end Ipc.WaitsOk

/-- Whatever happens, suspended threads are in their calls and queues. -/
theorem ipcStep_waitsOk {y y' : System Ipc} {e : IpcEvent} (h : y.state.WaitsOk y.waiting)
    (hstep : ipcStep y e = some y') : y'.state.WaitsOk y'.waiting := by
  obtain ⟨_, hcase⟩ := ipcStep_cases hstep
  cases hcase with
  | startup _ => exact (h.setPriority _ _).wake _
  | refused hcall _ => exact h.setError hcall.awake _
  | semTaken _ _ => exact h.objects _ _
  | semWaits hcall _ =>
    apply (h.setError hcall.awake rtEok).park
    · simpa using hcall.awake
    · simpa using hcall.started
    · simp
    · rfl
  | retaken hcall _ => exact (h.setError hcall.awake _).objects _ _
  | taken hcall _ _ => exact (h.setError hcall.awake _).objects _ _
  | mutexWaits hcall _ _ =>
    apply ((h.setError hcall.awake rtEok).inherit _ _).park
    · simpa using hcall.awake
    · simpa using hcall.started
    · simp
    · rfl
  | releasedOnce _ _ _ => exact h.objects _ _
  | handed _ _ _ _ => exact ((h.setPriority _ _).objects _ _).wake _
  | freed _ _ _ _ => exact (h.setPriority _ _).objects _ _
  | sleep hcall => exact h.sleep hcall.awake hcall.started
  | semGiven _ => exact h.wake _
  | semKept _ => exact h.objects _ _
  | @timeout t _ => exact (h.wake t).setError (congrArg IpcThread.suspended (y.state.wake_self t)) _
  | goOn hawake _ => exact (h.setError hawake _).back (by simpa using hawake)

/-- Nobody's own priority changes. -/
theorem ipcStep_initPriority {y y' : System Ipc} {e : IpcEvent} (hstep : ipcStep y e = some y')
    (t : ThreadId) : (y'.state.thread t).initPriority = (y.state.thread t).initPriority := by
  obtain ⟨_, hcase⟩ := ipcStep_cases hstep
  cases hcase <;> simp

/-- A thread that is started stays so. -/
theorem ipcStep_started {y y' : System Ipc} {e : IpcEvent} (hstep : ipcStep y e = some y')
    {t : ThreadId} (hstarted : (y.state.thread t).started) : (y'.state.thread t).started := by
  have hwake : ∀ (i : Ipc) (t' : ThreadId), (i.thread t).started →
      ((i.wake t').thread t).started := by
    intro i t' hi
    by_cases ht : t = t'
    · rw [ht, Ipc.wake_self]
    · rw [i.wake_of_ne t' ht, hi]
  obtain ⟨_, hcase⟩ := ipcStep_cases hstep
  cases hcase with
  | startup _ => exact hwake _ _ (by simpa using hstarted)
  | handed _ _ _ _ => exact hwake _ _ (by simpa using hstarted)
  | semGiven _ => exact hwake _ _ hstarted
  | timeout _ => simpa using hwake _ _ hstarted
  | _ => simpa using hstarted

/-- A thread is started once. -/
theorem ipcStep_started_iff {y y' : System Ipc} {e : IpcEvent} (h : y.state.WaitsOk y.waiting)
    (hstep : ipcStep y e = some y') {t : ThreadId} :
    (y'.state.thread t).started ↔ (y.state.thread t).started ∨ e = .startup t := by
  have hwake : ∀ (i : Ipc) (t' : ThreadId), ((i.wake t').thread t).started →
      (i.thread t).started ∨ t = t' := by
    intro i t' hi
    by_cases ht : t = t'
    · exact .inr ht
    · rw [i.wake_of_ne t' ht] at hi
      exact .inl hi
  -- whoever is suspended has been started, so a wakeup starts nobody
  have hsuspended : ∀ t, (y.state.thread t).suspended → (y.state.thread t).started := by
    intro t hsus
    obtain ⟨c, hc, -⟩ := h.suspended t hsus
    exact h.started t (by rw [hc]; exact nofun)
  constructor
  · intro hstarted
    obtain ⟨_, hcase⟩ := ipcStep_cases hstep
    cases hcase with
    | startup _ =>
      rcases hwake _ _ hstarted with hstarted | rfl
      · exact .inl (by simpa using hstarted)
      · exact .inr rfl
    | handed _ _ _ hqueue =>
      rcases hwake _ _ hstarted with hstarted | rfl
      · exact .inl (by simpa using hstarted)
      · exact .inl (hsuspended t (h.queued t _ (hqueue ▸ List.mem_cons_self)).1)
    | semGiven hqueue =>
      rcases hwake _ _ hstarted with hstarted | rfl
      · exact .inl hstarted
      · exact .inl (hsuspended t (h.queued t _ (hqueue ▸ List.mem_cons_self)).1)
    | timeout htimer =>
      rcases hwake _ _ (by simpa using hstarted) with hstarted | rfl
      · exact .inl hstarted
      · exact .inl (hsuspended t (h.timer t htimer))
    | _ => exact .inl (by simpa using hstarted)
  · rintro (hstarted | rfl)
    · exact ipcStep_started hstep hstarted
    · obtain ⟨_, hcase⟩ := ipcStep_cases hstep
      cases hcase
      exact congrArg IpcThread.started (Ipc.wake_self ..)

/-- Only a thread's own call suspends it. -/
theorem ipcStep_suspended {y y' : System Ipc} {e : IpcEvent} (hstep : ipcStep y e = some y')
    {t : ThreadId} (hawake : (y.state.thread t).suspended = false) (hcall : ∀ c, e ≠ .call t c) :
    (y'.state.thread t).suspended = false := by
  have hwake : ∀ (i : Ipc) (t' : ThreadId), (i.thread t).suspended = false →
      ((i.wake t').thread t).suspended = false := by
    intro i t' hi
    by_cases ht : t = t'
    · rw [ht, Ipc.wake_self]
    · rw [i.wake_of_ne t' ht, hi]
  have hne : ∀ t' c, e = .call t' c → t ≠ t' := by
    rintro t' c he rfl
    exact hcall c he
  obtain ⟨_, hcase⟩ := ipcStep_cases hstep
  cases hcase with
  | semWaits _ _ =>
    rw [Ipc.park_of_ne _ _ _ _ _ (hne _ _ rfl)]
    simpa using hawake
  | mutexWaits _ _ _ =>
    rw [Ipc.park_of_ne _ _ _ _ _ (hne _ _ rfl)]
    simpa using hawake
  | sleep _ =>
    rw [Ipc.sleep_of_ne _ _ (hne _ _ rfl)]
    exact hawake
  | startup _ => exact hwake _ _ (by simpa using hawake)
  | handed _ _ _ _ => exact hwake _ _ (by simpa using hawake)
  | semGiven _ => exact hwake _ _ hawake
  | timeout _ => simpa using hwake _ _ hawake
  | _ => simpa using hawake

/-! ## What a thread was given -/

/-- The thread was given what it waits for, and has not come back with it yet. -/
def Ipc.Granted (i : Ipc) (waiting : ThreadId → Option Call) (o : IpcObject) (t : ThreadId) : Prop :=
  (i.thread t).suspended = false ∧ (i.thread t).error = rtEok ∧ (waiting t).bind Call.object = some o

instance (i : Ipc) (waiting : ThreadId → Option Call) (o : IpcObject) (t : ThreadId) :
    Decidable (i.Granted waiting o t) :=
  inferInstanceAs (Decidable (_ ∧ _ ∧ _))

section Granted

variable {i i' : Ipc} {waiting waiting' : ThreadId → Option Call} {o : IpcObject} {t : ThreadId}

/-- Being granted an object is a matter of three fields of the thread. -/
theorem granted_congr (hsuspended : (i'.thread t).suspended = (i.thread t).suspended)
    (herror : (i'.thread t).error = (i.thread t).error) (hwaiting : waiting' t = waiting t) :
    i'.Granted waiting' o t ↔ i.Granted waiting o t := by
  unfold Ipc.Granted
  rw [hsuspended, herror, hwaiting]

/-- A thread that is in no call has been granted nothing. -/
theorem not_granted_of_idle (h : waiting t = none) : ¬i.Granted waiting o t := by
  rintro ⟨-, -, hobject⟩
  rw [h] at hobject
  exact absurd hobject nofun

/-- Nor has one that is still suspended. -/
theorem not_granted_of_suspended (h : (i.thread t).suspended) : ¬i.Granted waiting o t := by
  rintro ⟨hawake, -, -⟩
  rw [h] at hawake
  exact absurd hawake nofun

/-- The first thread of a queue is given the object. -/
theorem granted_wake (h : i.WaitsOk waiting) (hmem : t ∈ i.queue o) (t' : ThreadId)
    (o' : IpcObject) :
    (i.wake t).Granted waiting o' t' ↔ i.Granted waiting o' t' ∨ some (t, o) = some (t', o') := by
  by_cases ht : t' = t
  · rw [ht]
    obtain ⟨hsus, c, hc, hobject⟩ := h.queued t o hmem
    obtain ⟨c', hc', herror⟩ := h.suspended t hsus
    have hcc : c' = c := Option.some.inj (hc'.symm.trans hc)
    have hfields := i.wake_fields t t
    rw [or_iff_right (not_granted_of_suspended hsus)]
    unfold Ipc.Granted
    rw [hfields.2.2, (herror o (hcc ▸ hobject)).2, hc, Option.bind_some, hobject, i.wake_self]
    simp
  · have hne : some (t, o) ≠ some (t', o') := fun heq => ht (Prod.mk.inj (Option.some.inj heq)).1.symm
    rw [or_iff_left hne]
    apply granted_congr _ _ rfl <;> rw [i.wake_of_ne t ht]

/-- A thread that is in no call was given nothing, whatever becomes of it. -/
theorem granted_of_idle (hidle : waiting t = none) {t' : ThreadId}
    (hother : t' ≠ t → i'.thread t' = i.thread t') :
    i'.Granted waiting o t' ↔ i.Granted waiting o t' := by
  by_cases ht : t' = t
  · rw [ht]
    exact iff_of_false (not_granted_of_idle hidle) (not_granted_of_idle hidle)
  · unfold Ipc.Granted
    rw [hother ht]

/-- Nor was one that waits from now on. -/
theorem granted_of_wait (hidle : waiting t = none) (hsuspended : (i'.thread t).suspended)
    (c : Call) {t' : ThreadId} (hother : t' ≠ t → (i'.thread t').suspended = (i.thread t').suspended ∧
      (i'.thread t').error = (i.thread t').error) :
    i'.Granted (Function.update waiting t (some c)) o t' ↔ i.Granted waiting o t' := by
  by_cases ht : t' = t
  · rw [ht]
    exact iff_of_false (not_granted_of_suspended hsuspended) (not_granted_of_idle hidle)
  · exact granted_congr (hother ht).1 (hother ht).2 (Function.update_of_ne ht ..)

end Granted

/-- A thread that goes on is given something no more, and whoever is given something waited for it. -/
theorem ipcCase_granted {y y' : System Ipc} {e : IpcEvent} {given : Option (ThreadId × IpcObject)}
    (h : y.state.WaitsOk y.waiting) (hcase : IpcCase y e given y') (o : IpcObject) (t' : ThreadId) :
    y'.state.Granted y'.waiting o t' ↔
      y.state.Granted y.waiting o t' ∧ e ≠ .goOn t' ∨ given = some (t', o) := by
  have hnone : ∀ {P : Prop}, P ∨ (none : Option (ThreadId × IpcObject)) = some (t', o) ↔ P :=
    or_iff_left nofun
  -- only hand-overs grant anything, and only coming back ends it
  cases hcase with
  | @startup t hstarted =>
    rw [and_iff_left nofun, hnone]
    have hidle : y.waiting t = none := by
      by_contra hne
      rw [h.started t hne] at hstarted
      exact absurd hstarted nofun
    apply granted_of_idle hidle
    intro ht
    rw [Ipc.wake_of_ne _ _ ht, Ipc.setPriority_of_ne _ _ _ ht]
  | refused hcall _ =>
    rw [and_iff_left nofun, hnone]
    exact granted_of_idle hcall.idle fun ht => Ipc.setError_of_ne _ _ _ ht
  | semTaken _ _ =>
    rw [and_iff_left nofun, hnone]
    rfl
  | semWaits hcall _ =>
    rw [and_iff_left nofun, hnone]
    apply granted_of_wait hcall.idle (congrArg IpcThread.suspended (Ipc.park_self ..))
    intro ht
    rw [Ipc.park_of_ne _ _ _ _ _ ht, Ipc.setError_of_ne _ _ _ ht]
    exact ⟨rfl, rfl⟩
  | retaken hcall _ =>
    rw [and_iff_left nofun, hnone]
    exact granted_of_idle hcall.idle fun ht => Ipc.setError_of_ne _ _ _ ht
  | taken hcall _ _ =>
    rw [and_iff_left nofun, hnone]
    exact granted_of_idle hcall.idle fun ht => Ipc.setError_of_ne _ _ _ ht
  | mutexWaits hcall _ _ =>
    rw [and_iff_left nofun, hnone]
    apply granted_of_wait hcall.idle (congrArg IpcThread.suspended (Ipc.park_self ..))
    intro ht
    rw [Ipc.park_of_ne _ _ _ _ _ ht]
    have hsame := Ipc.setError_of_ne y.state _ rtEok ht
    simp [hsame]
  | releasedOnce _ _ _ =>
    rw [and_iff_left nofun, hnone]
    rfl
  | @handed t next m threads hcall _ _ hqueue =>
    rw [and_iff_left nofun]
    have hok := (h.setPriority t (y.state.mutex m).originalPriority).objects y.state.sem
      (Function.update y.state.mutex m
        { y.state.mutex m with
          owner := some next
          originalPriority := ((y.state.setPriority t
            (y.state.mutex m).originalPriority).thread next).currentPriority
          hold := 1 })
    have hmem : next ∈ y.state.queue (.mutex m) := hqueue ▸ List.mem_cons_self
    refine (granted_wake hok hmem t' o).trans (or_congr_left ?_)
    exact granted_of_idle hcall.idle fun ht => Ipc.setPriority_of_ne _ _ _ ht
  | freed hcall _ _ _ =>
    rw [and_iff_left nofun, hnone]
    exact granted_of_idle hcall.idle fun ht => Ipc.setPriority_of_ne _ _ _ ht
  | sleep hcall =>
    rw [and_iff_left nofun, hnone]
    apply granted_of_wait hcall.idle (congrArg IpcThread.suspended (Ipc.sleep_self ..))
    intro ht
    rw [Ipc.sleep_of_ne _ _ ht]
    exact ⟨rfl, rfl⟩
  | semGiven hqueue =>
    rw [and_iff_left nofun]
    exact granted_wake h (hqueue ▸ List.mem_cons_self) t' o
  | semKept _ =>
    rw [and_iff_left nofun, hnone]
    rfl
  | @timeout t htimer =>
    rw [and_iff_left nofun, hnone]
    by_cases ht : t' = t
    · rw [ht]
      refine iff_of_false ?_ (not_granted_of_suspended (h.timer t htimer))
      rintro ⟨-, herror, -⟩
      rw [Ipc.setError_error] at herror
      exact absurd herror (by decide)
    · apply granted_congr _ _ rfl <;> rw [Ipc.setError_of_ne _ _ _ ht, Ipc.wake_of_ne _ _ ht]
  | @goOn t c _ _ =>
    rw [hnone]
    by_cases ht : t' = t
    · rw [ht]
      exact iff_of_false (not_granted_of_idle (Function.update_self ..)) fun h => h.2 rfl
    · rw [and_iff_left fun heq => ht (IpcEvent.goOn.inj heq).symm]
      refine granted_congr ?_ ?_ (Function.update_of_ne ht ..) <;>
        rw [Ipc.setError_of_ne _ _ _ ht]

/-! ## Calls that came back -/

def Call.takes (o : IpcObject) (c : Call) : Bool := c.object = some o

/-- A thread that goes on comes back with the object if it was given it, and without it otherwise. -/
theorem goOn_cases {i : Ipc} {waiting : ThreadId → Option Call} {t : ThreadId} {c : Call}
    (hawake : (i.thread t).suspended = false) (hc : waiting t = some c) (o : IpcObject) :
    i.Granted waiting o t ∧ c.takes o ∧ (c.result (i.thread t).error).2 = rtEok ∨
      ¬i.Granted waiting o t ∧ (c.takes o = false ∨ (c.result (i.thread t).error).2 ≠ rtEok) := by
  unfold Ipc.Granted
  rw [hc, Option.bind_some]
  by_cases ho : c.object = some o
  · have hresult : (c.result (i.thread t).error).2 = (i.thread t).error := by
      cases c <;> first | rfl | exact absurd ho nofun
    rw [hresult]
    by_cases herror : (i.thread t).error = rtEok
    · exact .inl ⟨⟨hawake, herror, ho⟩, decide_eq_true ho, herror⟩
    · exact .inr ⟨fun h => herror h.2.1, .inr herror⟩
  · exact .inr ⟨fun h => ho h.2.2, .inl (decide_eq_false ho)⟩

/-- How many calls of some kind have come back with success. -/
def successes (p : ThreadId → Call → Bool) (log : List Returned) : ℕ :=
  log.countP fun r => r.result = rtEok ∧ p r.thread r.call

section Successes

variable {p : ThreadId → Call → Bool} {t : ThreadId} {c : Call} {result : ℤ} {log : List Returned}

/-- A call that returned `RT_EOK` counts. -/
theorem successes_cons (h : p t c) : successes p (⟨t, c, rtEok⟩ :: log) = successes p log + 1 :=
  List.countP_cons_of_pos (by simp [h])

/-- A call of another kind does not count. -/
theorem successes_cons_of_not (h : p t c = false) :
    successes p (⟨t, c, result⟩ :: log) = successes p log :=
  List.countP_cons_of_neg (by simp [h])

/-- Nor does one that failed. -/
theorem successes_cons_of_failed (h : result ≠ rtEok) :
    successes p (⟨t, c, result⟩ :: log) = successes p log :=
  List.countP_cons_of_neg (by simp [h])

end Successes

end Stm32Board.Rtos
