import Stm32Board.Rtos.Schedule
import Stm32Board.Rtos.Waiting

/-!
# Runs of the kernel

From the start of the scheduler on, whatever the threads call, whenever a timer or a time slice runs
out, and wherever `rt_schedule` comes in between, the lists stay right (`kernelRun_ok`), the scheduler
runs a thread of the highest priority (`kernelRun_scheduled`), and what the threads see is a run of
theirs in some order (`kernelRun_ipcRun`).
-/

namespace Stm32Board.Rtos

open Common Common.Transition
open At (rtEok)

/-! ## The start -/

/-- Threads, semaphores and mutexes are initialised; no thread is started, and none is the current
one: `rt_current_thread` is no thread in use. -/
structure Kernel.Initial (k : Kernel) : Prop where
  thread : ∀ t, (k.thread t).stat = .init ∧ (k.thread t).timer = false ∧
    (k.thread t).initPriority < 32 ∧ (k.thread t).currentPriority = (k.thread t).initPriority
  list : ∀ l, k.list l = []
  group : k.readyPriorityGroup = 0
  mutex : ∀ m, (k.mutex m).value = 1 ∧ (k.mutex m).owner = none ∧ (k.mutex m).hold = 0

/-- The threads, semaphores and mutexes of a program after `rt_thread_init`, `rt_sem_init` and
`rt_mutex_init`. -/
def Kernel.initial (priority : ThreadId → UInt8) (sem : SemId → Semaphore)
    (flag : MutexId → IpcFlag) : Kernel where
  thread t := ⟨.init, false, priority t, priority t, rtEok, false⟩
  list _ := []
  currentThread := 0
  readyPriorityGroup := 0
  sem := sem
  mutex m := ⟨1, 0xFF, 0, none, flag m⟩

/-- Any priorities below 32 will do. -/
theorem Kernel.initial_initial {priority : ThreadId → UInt8} (h : ∀ t, priority t < 32)
    (sem : SemId → Semaphore) (flag : MutexId → IpcFlag) :
    (Kernel.initial priority sem flag).Initial :=
  ⟨fun t => ⟨rfl, rfl, h t, rfl⟩, fun _ => rfl, rfl, fun _ => ⟨rfl, rfl, rfl⟩⟩

/-- The main thread 1 and the idle thread 2; the others have priorities between these two. -/
def mainAndIdle : Kernel :=
  .initial (fun t => if t = 1 then 10 else if t = 2 then 31 else 20) (fun _ => ⟨0, .prio⟩)
    fun _ => .prio

theorem mainAndIdle_initial : mainAndIdle.Initial :=
  Kernel.initial_initial (fun t => by split_ifs <;> decide) _ _

/-- `rtthread_startup`: the first threads are started in turn, then the scheduler. -/
def rtthreadStartup (k : Kernel) (threads : List ThreadId) : System Kernel where
  state := rtSystemSchedulerStart (threads.foldl rtThreadStartup k)
  waiting _ := none
  log := []

/-- Some threads are started, before the scheduler. -/
structure Kernel.Booting (k : Kernel) (threads : List ThreadId) : Prop where
  lists : k.ListsOk none
  stat : ∀ t, (k.thread t).stat = if t ∈ threads then .ready else .init
  initPriority : ∀ t, (k.thread t).initPriority < 32 ∧
    (k.thread t).currentPriority = (k.thread t).initPriority
  mutex : ∀ m, (k.mutex m).value = 1 ∧ (k.mutex m).owner = none ∧ (k.mutex m).hold = 0

/-- Before the first thread is started up. -/
theorem Kernel.Initial.booting {k : Kernel} (h : k.Initial) : k.Booting [] := by
  have hinit : ∀ t, (k.thread t).stat = .init := fun t => (h.thread t).1
  refine ⟨⟨⟨fun l => ?_, fun t l _ hmem => ?_⟩, fun _ heq => absurd heq nofun, fun t _ p => ?_,
    fun t o hmem => ?_, fun t => ?_, fun p _ => ?_, fun t _ htimer => ?_⟩, fun t => ?_,
    fun t => (h.thread t).2.2, h.mutex⟩
  · rw [h.list]
    exact List.nodup_nil
  · rw [h.list] at hmem
    exact absurd hmem List.not_mem_nil
  · rw [h.list, hinit]
    exact iff_of_false List.not_mem_nil (fun heq => absurd heq.1 nofun)
  · rw [h.list] at hmem
    exact absurd hmem List.not_mem_nil
  · rw [(h.thread t).2.2.2]
    exact (h.thread t).2.2.1
  · rw [h.group, h.list, UInt32.toNat_zero, Nat.zero_testBit]
    exact iff_of_false Bool.false_ne_true fun hne => hne rfl
  · rw [(h.thread t).2.1] at htimer
    exact absurd htimer nofun
  · rw [hinit, if_neg List.not_mem_nil]

/-- One more thread is ready. -/
theorem Kernel.Booting.startup {k : Kernel} {threads : List ThreadId} {t : ThreadId}
    (h : k.Booting threads) (ht : t ∉ threads) (hcurrent : t ≠ k.currentThread) :
    (rtThreadStartup k t).Booting (threads ++ [t]) ∧
      (rtThreadStartup k t).currentThread = k.currentThread := by
  have hinit : (k.thread t).stat = .init := by rw [h.stat, if_neg ht]
  have hlists := h.lists.startup hinit (h.initPriority t).1
  have hset := setThread_self k t fun thread =>
    { thread with currentPriority := thread.initPriority, stat := .suspend, yield := false }
  have hother : ∀ t', t' ≠ t → (k.setThread t fun thread =>
      { thread with currentPriority := thread.initPriority, stat := .suspend, yield := false }).thread
        t' = k.thread t' := fun t' => setThread_of_ne k t _
  unfold rtThreadStartup
  generalize hk : (k.setThread t fun thread =>
    { thread with currentPriority := thread.initPriority, stat := .suspend, yield := false }) = k'
    at hlists hset hother
  have hcur : k'.currentThread = k.currentThread := by rw [← hk]; rfl
  have hmutex : k'.mutex = k.mutex := by rw [← hk]; rfl
  have hsuspend : (k'.thread t).stat = .suspend := by rw [hset]
  unfold rtThreadResume
  dsimp only
  rw [if_neg (not_not.mpr hsuspend)]
  dsimp only
  -- the thread waits nowhere, and its timer does not run
  have hclear : ((rtListRemove k' t).setThread t fun thread =>
      { thread with timer := false }).ListsOk (some t) :=
    (hlists.listRemove hsuspend).setThread (hlists.priority_lt t)
  have hself : (rtScheduleInsertThread ((rtListRemove k' t).setThread t fun thread =>
      { thread with timer := false }) t).thread t =
      { k'.thread t with timer := false, stat := .ready } := by
    rw [insert_self, insertedStat, setThread_self, setThread_current]
    exact congrArg (fun stat => { k'.thread t with timer := false, stat := stat })
      (if_neg (hcur ▸ hcurrent))
  have hne : ∀ t', t' ≠ t → (rtScheduleInsertThread ((rtListRemove k' t).setThread t fun thread =>
      { thread with timer := false }) t).thread t' = k.thread t' := fun t' ht' => by
    rw [insert_of_ne _ _ ht', setThread_of_ne _ _ _ ht', listRemove_thread, hother t' ht']
  refine ⟨⟨hclear.insert (by rw [setThread_self]), fun t' => ?_, fun t' => ?_, fun m => ?_⟩, ?_⟩
  · by_cases ht' : t' = t
    · rw [ht', hself, if_pos List.mem_concat_self]
    · rw [hne t' ht', h.stat]
      simp [ht']
  · by_cases ht' : t' = t
    · rw [ht', hself, hset]
      exact ⟨(h.initPriority t).1, rfl⟩
    · rw [hne t' ht']
      exact h.initPriority t'
  · rw [insert_mutex, setThread_mutex]
    exact hmutex ▸ h.mutex m
  · rw [insert_current, setThread_current]
    exact hcur

/-- One thread after the other is put on its ready list. -/
theorem Kernel.Booting.startupAll {k : Kernel} {before threads : List ThreadId}
    (h : k.Booting before) (hnodup : (before ++ threads).Nodup) (hcurrent : k.currentThread ∉ threads) :
    (threads.foldl rtThreadStartup k).Booting (before ++ threads) := by
  induction threads generalizing k before with
  | nil =>
    rw [List.append_nil]
    exact h
  | cons t threads ih =>
    have ht : t ∉ before := fun hmem =>
      (List.nodup_append.mp hnodup).2.2 t hmem t List.mem_cons_self rfl
    obtain ⟨hnext, hcur⟩ := h.startup ht fun heq => hcurrent (heq ▸ List.mem_cons_self)
    rw [List.append_cons] at hnodup ⊢
    rw [List.foldl_cons]
    apply ih hnext hnodup
    rw [hcur]
    exact fun hmem => hcurrent (List.mem_cons_of_mem t hmem)

/-- What holds in every state of a run. -/
structure KernelOk (y : System Kernel) : Prop where
  ok : y.state.Ok
  initPriority : ∀ t, (y.state.thread t).initPriority < 32

/-- The first threads are all that is started. -/
structure Booted (i : Ipc) (threads : List ThreadId) : Prop where
  started : ∀ t, (i.thread t).started ↔ t ∈ threads
  awake : ∀ t, (i.thread t).suspended = false
  priority : ∀ t, (i.thread t).currentPriority = (i.thread t).initPriority
  timer : ∀ t, (i.thread t).timer = false
  queue : ∀ o, i.queue o = []
  mutex : ∀ m, (i.mutex m).value = 1 ∧ (i.mutex m).owner = none ∧ (i.mutex m).hold = 0

/-- Before the scheduler starts, nobody runs and nobody waits. -/
theorem Kernel.Booting.booted {k : Kernel} {threads : List ThreadId} (h : k.Booting threads) :
    Booted k.ipc threads := by
  have hsuspend : ∀ t, (k.thread t).stat ≠ .suspend := by
    intro t
    rw [h.stat]
    split_ifs <;> decide
  refine ⟨fun t => ?_, fun t => decide_eq_false (hsuspend t), fun t => (h.initPriority t).2,
    fun t => ?_, fun o => ?_, h.mutex⟩
  · show decide ((k.thread t).stat ≠ .init) = true ↔ _
    rw [decide_eq_true_eq, h.stat]
    split_ifs with ht
    · exact iff_of_true nofun ht
    · exact iff_of_false (fun hne => hne rfl) ht
  · exact Bool.eq_false_iff.mpr fun htimer => hsuspend t (h.lists.timer t nofun htimer)
  · exact List.eq_nil_iff_forall_not_mem.mpr fun t hmem => hsuspend t (h.lists.object t o hmem)

/-- The scheduler starts one of the threads. -/
theorem rtSystemSchedulerStart_ok {k : Kernel} {threads : List ThreadId} (h : k.Booting threads)
    (hne : threads ≠ []) :
    (rtSystemSchedulerStart k).Ok ∧ (rtSystemSchedulerStart k).ipc = k.ipc := by
  obtain ⟨t₀, ht₀⟩ := List.exists_mem_of_ne_nil threads hne
  have hready₀ : (k.thread t₀).stat = .ready := by rw [h.stat, if_pos ht₀]
  -- the first thread to run is the first in line of the highest priority
  obtain ⟨t, rest, p, hget, hlist, -⟩ :=
    getHighestPriorityThread_spec h.lists (group_ne_zero h.lists hready₀)
  have hready : (k.thread t).stat = .ready :=
    ((h.lists.ready_iff t nofun p).mp (hlist ▸ List.mem_cons_self)).1
  have hturn : Kernel.ListsOk { k with currentThread := t } none :=
    ⟨h.lists.linked, h.lists.off, h.lists.ready_iff, h.lists.object, h.lists.priority_lt,
      h.lists.group_iff, h.lists.timer⟩
  unfold rtSystemSchedulerStart
  rw [hget]
  dsimp only
  constructor
  · refine run_ok (hturn.remove (.inl rfl)) (remove_current ..) ?_ (fun t' _ => ?_) fun m hown => ?_
    · rw [remove_thread]
      refine Bool.eq_false_iff.mpr fun htimer => ?_
      exact absurd ((h.lists.timer t nofun htimer).symm.trans hready) (by decide)
    · rw [remove_thread]
      show (k.thread t').stat ≠ .running
      rw [h.stat]
      split_ifs <;> decide
    · rw [remove_mutex] at hown
      exact absurd (h.mutex m).2.1 hown
  · have hstat : ((rtScheduleRemoveThread { k with currentThread := t } t).thread t).stat =
        .ready := by
      rw [remove_thread]
      exact hready
    rw [ipc_run (by rw [hstat]; decide) (by rw [hstat]; decide), ipc_remove hturn]
    · rfl
    · show (k.thread t).stat ≠ .suspend
      rw [hready]
      decide

section Boot

variable {k : Kernel} {threads : List ThreadId} (hinit : k.Initial) (hnodup : threads.Nodup)
  (hcurrent : k.currentThread ∉ threads) (hne : threads ≠ [])
include hinit hnodup hcurrent hne

/-- After the first switch of context the kernel is in order, and all threads are started. -/
theorem rtthreadStartup_ok :
    KernelOk (rtthreadStartup k threads) ∧ Booted (rtthreadStartup k threads).state.ipc threads := by
  have hboot := hinit.booting.startupAll (by rwa [List.nil_append]) hcurrent
  rw [List.nil_append] at hboot
  obtain ⟨hok, hipc⟩ := rtSystemSchedulerStart_ok hboot hne
  refine ⟨⟨hok, fun t => ?_⟩, hipc ▸ hboot.booted⟩
  have hinitPriority := congrArg (fun i : Ipc => (i.thread t).initPriority) hipc
  exact lt_of_eq_of_lt hinitPriority (hboot.initPriority t).1

omit hinit hnodup hcurrent hne in
/-- Starting a thread up changes no semaphore. -/
theorem startup_sem (k : Kernel) (t : ThreadId) : (rtThreadStartup k t).sem = k.sem := by
  unfold rtThreadStartup rtThreadResume
  dsimp only
  split_ifs
  · rfl
  · exact insert_sem ..

/-- The semaphores are as they were. -/
theorem rtthreadStartup_sem : (rtthreadStartup k threads).state.sem = k.sem := by
  have hboot := hinit.booting.startupAll (by rwa [List.nil_append]) hcurrent
  rw [List.nil_append] at hboot
  have hstart := congrArg Ipc.sem (rtSystemSchedulerStart_ok hboot hne).2
  refine hstart.trans ?_
  clear hstart hboot hinit hnodup hcurrent hne
  show (threads.foldl rtThreadStartup k).sem = k.sem
  induction threads generalizing k with
  | nil => rfl
  | cons t threads ih => exact ih.trans (startup_sem k t)

end Boot

/-! ## Steps -/

/-- What the threads see of an event. -/
def KernelEvent.ipc (y : System Kernel) : KernelEvent → Option IpcEvent
  | .startup t => some (.startup t)
  | .call c => some (.call y.state.currentThread c)
  | .semRelease s => some (.semRelease s)
  | .timeout t => some (.timeout t)
  | .goOn => some (.goOn y.state.currentThread)
  | .tickYield => none
  | .schedule => none

section Step

variable {y y' : System Kernel} {e : KernelEvent}

/-- A call of the current thread is that call among the threads. -/
theorem map_finish {c : Call} {r : Kernel × Option ℤ} {r' : Ipc × Option ℤ} (t : ThreadId)
    (hr : (r.1.ipc, r.2) = r') : (y.finish t c r).map Kernel.ipc =
      (y.map Kernel.ipc).finish t c r' := by
  rw [← hr]
  unfold System.finish
  dsimp only
  cases r.2 <;> rfl

/-- Started is every thread that is past its initial state. -/
theorem ipc_started (k : Kernel) (t : ThreadId) :
    (k.ipc.thread t).started = decide ((k.thread t).stat ≠ .init) := rfl

/-- Suspended is what the state says. -/
theorem ipc_suspended (k : Kernel) (t : ThreadId) :
    (k.ipc.thread t).suspended = decide ((k.thread t).stat = .suspend) := rfl

/-- One step keeps the kernel in order, and is a step of the threads or none. -/
theorem kernelStep_spec (h : y.state.Ok) (hprio : ∀ t, (y.state.thread t).initPriority < 32)
    (hstep : kernelStep y e = some y') : y'.state.Ok ∧
      match e.ipc y with
      | none => y'.map Kernel.ipc = y.map Kernel.ipc
      | some e' => ipcStep (y.map Kernel.ipc) e' = some (y'.map Kernel.ipc) := by
  unfold kernelStep at hstep
  -- each function keeps the lists in order and does on them what the system without lists does
  cases e with
  | startup t =>
    dsimp only at hstep
    split_ifs at hstep with hstat
    rw [← Option.some.inj hstep]
    refine ⟨rtThreadStartup_ok h hstat (hprio t), ?_⟩
    have hstarted : (y.state.ipc.thread t).started = false := by
      rw [ipc_started, hstat]
      rfl
    unfold KernelEvent.ipc ipcStep System.map
    dsimp only
    rw [hstarted, if_neg Bool.false_ne_true, ipc_startup]
  | call c =>
    dsimp only at hstep
    split_ifs at hstep with hmay
    obtain ⟨hok, hipc⟩ := h.call hmay.1 c
    have hcall : (y.state.ipc.thread y.state.currentThread).started ∧
        ¬(y.state.ipc.thread y.state.currentThread).suspended ∧
          y.waiting y.state.currentThread = none := by
      rw [ipc_started, ipc_suspended, hmay.1]
      exact ⟨rfl, Bool.false_ne_true, hmay.2⟩
    have hfinish := map_finish (y := y) (c := c) y.state.currentThread hipc
    rw [← Option.some.inj hstep]
    constructor
    · unfold System.finish
      cases (y.state.call c).2 <;> exact hok
    · unfold KernelEvent.ipc ipcStep
      exact (if_pos hcall).trans (congrArg some hfinish.symm)
  | semRelease s =>
    rw [← Option.some.inj hstep]
    refine ⟨rtSemRelease_ok h s, ?_⟩
    unfold KernelEvent.ipc ipcStep System.map
    dsimp only
    rw [ipc_semRelease h]
  | timeout t =>
    dsimp only at hstep
    split_ifs at hstep with htimer
    rw [← Option.some.inj hstep]
    refine ⟨rtThreadTimeout_ok h (h.lists.timer t nofun htimer), ?_⟩
    have htimer' : (y.state.ipc.thread t).timer := htimer
    unfold KernelEvent.ipc ipcStep System.map
    dsimp only
    rw [htimer', if_pos rfl, ipc_timeout]
  | goOn =>
    dsimp only at hstep
    split_ifs at hstep with hrun
    obtain ⟨c, hc, rfl⟩ := Option.map_eq_some_iff.mp hstep
    refine ⟨h.setError _ _, ?_⟩
    have hawake : (y.state.ipc.thread y.state.currentThread).suspended = false := by
      rw [ipc_suspended, hrun]
      rfl
    have hset : (y.state.setThread y.state.currentThread fun thread =>
        { thread with error := (c.result (y.state.thread y.state.currentThread).error).1 }).ipc =
        y.state.ipc.setThread y.state.currentThread fun thread =>
        { thread with error := (c.result (y.state.thread y.state.currentThread).error).1 } :=
      ipc_setThread rfl
    unfold KernelEvent.ipc ipcStep System.map System.back
    dsimp only
    rw [hawake, if_neg Bool.false_ne_true, hc, hset]
    rfl
  | tickYield =>
    rw [← Option.some.inj hstep]
    have hok : (tickYield y.state).Ok :=
      h.change rfl (fun _ => rfl) (h.lists.priority_lt _) (h.lists.timer _ nofun)
    refine ⟨hok, ?_⟩
    -- the end of a time slice only sets a flag
    have hset : (tickYield y.state).ipc = y.state.ipc.setThread y.state.currentThread id :=
      ipc_setThread rfl
    exact congrArg (fun i => System.mk i y.waiting y.log) (hset.trans (ipc_setThread_self rfl))
  | schedule =>
    rw [← Option.some.inj hstep]
    obtain ⟨hok, hipc⟩ := rtSchedule_ok h
    exact ⟨hok, congrArg (fun i => System.mk i y.waiting y.log) hipc⟩

/-- The kernel does what the threads do, in an order of its own. -/
theorem kernelSimulation :
    Simulation kernelStep ipcStep KernelOk (System.map Kernel.ipc) fun y e => e.ipc y where
  keep y e y' h hstep := by
    have hspec := kernelStep_spec h.ok h.initPriority hstep
    refine ⟨hspec.1, fun t => ?_⟩
    have hsame : (y'.state.thread t).initPriority = (y.state.thread t).initPriority := by
      have hvisible := hspec.2
      cases he : e.ipc y with
      | none =>
        rw [he] at hvisible
        exact congrArg (fun y : System Ipc => (y.state.thread t).initPriority) hvisible
      | some e' =>
        rw [he] at hvisible
        exact ipcStep_initPriority hvisible t
    exact hsame ▸ h.initPriority t
  silent y e y' h hstep he := by
    have hspec := (kernelStep_spec h.ok h.initPriority hstep).2
    rw [he] at hspec
    exact hspec
  visible y e y' e' h hstep he := by
    have hspec := (kernelStep_spec h.ok h.initPriority hstep).2
    rw [he] at hspec
    exact hspec

end Step

/-! ## Runs -/

section Runs

variable {k : Kernel} {threads : List ThreadId} (hinit : k.Initial) (hnodup : threads.Nodup)
  (hcurrent : k.currentThread ∉ threads) (hne : threads ≠ []) {events : List KernelEvent}
  {y : System Kernel}
include hinit hnodup hcurrent hne

/-- In every state that is reached, each thread is on the list its state says and on no other one, the
priority group is right, and at most the current thread runs. -/
theorem kernelRun_ok (hrun : kernelRun (rtthreadStartup k threads) events = some y) : KernelOk y :=
  run_invariant (fun y e y' h hstep => kernelSimulation.keep y e y' h hstep)
    (rtthreadStartup_ok hinit hnodup hcurrent hne).1 hrun

omit hinit hnodup hcurrent hne in
/-- The main thread waits for a semaphore, and is given it. -/
theorem kernelRun_ok_wakeup :
    ∃ y, kernelRun (rtthreadStartup mainAndIdle [1, 2])
      [.call (.semTake 0 (-1)), .schedule, .semRelease 0, .schedule, .goOn] = some y ∧
        KernelOk y := by
  obtain ⟨y, hy⟩ := Option.isSome_iff_exists.mp (by decide +kernel :
    (kernelRun (rtthreadStartup mainAndIdle [1, 2])
      [.call (.semTake 0 (-1)), .schedule, .semRelease 0, .schedule, .goOn]).isSome)
  exact ⟨y, hy, kernelRun_ok mainAndIdle_initial (by decide) (by decide) (by decide) hy⟩

/-- What the threads see is a run of theirs. -/
theorem kernelRun_ipcRun (hrun : kernelRun (rtthreadStartup k threads) events = some y) :
    ipcRun ((rtthreadStartup k threads).map Kernel.ipc)
      (trace kernelStep (fun y e => e.ipc y) (rtthreadStartup k threads) events) =
        some (y.map Kernel.ipc) :=
  kernelSimulation.run_trace (rtthreadStartup_ok hinit hnodup hcurrent hne).1 hrun

omit hinit hnodup hcurrent hne in
/-- A wait that times out: the scheduler and the time slice are not seen. -/
theorem kernelRun_ipcRun_wakeup :
    ∃ y, kernelRun (rtthreadStartup mainAndIdle [1, 2])
      [.call (.semTake 0 5), .schedule, .timeout 1, .tickYield, .schedule, .goOn] = some y ∧
        ipcRun ((rtthreadStartup mainAndIdle [1, 2]).map Kernel.ipc)
          [.call 1 (.semTake 0 5), .timeout 1, .goOn 1] = some (y.map Kernel.ipc) := by
  obtain ⟨y, hy⟩ := Option.isSome_iff_exists.mp (by decide +kernel :
    (kernelRun (rtthreadStartup mainAndIdle [1, 2])
      [.call (.semTake 0 5), .schedule, .timeout 1, .tickYield, .schedule, .goOn]).isSome)
  have htrace : trace kernelStep (fun y e => e.ipc y) (rtthreadStartup mainAndIdle [1, 2])
      [.call (.semTake 0 5), .schedule, .timeout 1, .tickYield, .schedule, .goOn] =
      [.call 1 (.semTake 0 5), .timeout 1, .goOn 1] := by decide +kernel
  have hipc := kernelRun_ipcRun mainAndIdle_initial (by decide) (by decide) (by decide) hy
  rw [htrace] at hipc
  exact ⟨y, hy, hipc⟩

/-- A thread that is started stays so. -/
theorem kernelRun_started (hrun : kernelRun (rtthreadStartup k threads) events = some y)
    {t : ThreadId} (ht : t ∈ threads) : (y.state.thread t).stat ≠ .init := by
  obtain ⟨hok, hbooted⟩ := rtthreadStartup_ok hinit hnodup hcurrent hne
  have hall : KernelOk y ∧ (y.state.ipc.thread t).started := by
    refine run_invariant (P := fun y => KernelOk y ∧ (y.state.ipc.thread t).started)
      (fun y e y' h hstep => ?_) ⟨hok, (hbooted.started t).mpr ht⟩ hrun
    obtain ⟨hy, hstarted⟩ := h
    have hspec := (kernelStep_spec hy.ok hy.initPriority hstep).2
    refine ⟨kernelSimulation.keep y e y' hy hstep, ?_⟩
    cases he : e.ipc y with
    | none =>
      rw [he] at hspec
      have hipc : y'.state.ipc = y.state.ipc := congrArg System.state hspec
      rw [hipc]
      exact hstarted
    | some e' =>
      rw [he] at hspec
      exact ipcStep_started hspec hstarted
  exact of_decide_eq_true hall.2

/-- Where one of the first threads, the idle thread, is not suspended, `rt_schedule` runs a thread of
the highest priority, and changes to another one only if it has to. -/
theorem kernelRun_scheduled {idle : ThreadId} (hidle : idle ∈ threads)
    (hrun : kernelRun (rtthreadStartup k threads) events = some y)
    (hawake : (y.state.thread idle).stat ≠ .suspend) :
    Scheduled y.state (rtSchedule y.state) := by
  have hok := kernelRun_ok hinit hnodup hcurrent hne hrun
  refine rtSchedule_scheduled hok.ok ?_
  -- the idle thread is ready, or it runs
  cases hstat : (y.state.thread idle).stat with
  | init => exact absurd hstat (kernelRun_started hinit hnodup hcurrent hne hrun hidle)
  | ready => exact .inr ⟨idle, hstat⟩
  | running => exact .inl (hok.ok.running idle hstat ▸ hstat)
  | suspend => exact absurd hstat hawake

omit hinit hnodup hcurrent hne in
/-- The main thread is ready again while the idle thread, which has released the semaphore and looked
for another one, runs: it takes over. -/
theorem kernelRun_scheduled_wakeup :
    ∃ y, kernelRun (rtthreadStartup mainAndIdle [1, 2])
      [.call (.semTake 0 (-1)), .schedule, .call (.semTake 0 0), .semRelease 0] = some y ∧
        Scheduled y.state (rtSchedule y.state) := by
  obtain ⟨y, hy, hstat⟩ := Option.map_eq_some_iff.mp (by decide +kernel :
    (kernelRun (rtthreadStartup mainAndIdle [1, 2])
      [.call (.semTake 0 (-1)), .schedule, .call (.semTake 0 0), .semRelease 0]).map
        (fun y => (y.state.thread 2).stat) = some .running)
  have hidle : (2 : ThreadId) ∈ [1, 2] := by decide
  exact ⟨y, hy, kernelRun_scheduled mainAndIdle_initial (by decide) (by decide) (by decide) hidle hy
    (by rw [hstat]; decide)⟩

end Runs

end Stm32Board.Rtos
