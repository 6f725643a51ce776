import Stm32Board.Rtos.Refine
import Mathlib.Data.Nat.Basic

/-!
# The scheduler

`rt_schedule` runs a thread of the highest priority that is ready, in turn among equals, and leaves a
thread running that nobody may preempt (`rtSchedule_scheduled`).
-/

namespace Stm32Board.Rtos

open Common

/-! ## The highest priority -/

/-- `__rt_ffs` finds the lowest bit. -/
theorem rtFfs_spec {value : UInt32} (h : value ≠ 0) :
    ∃ i < 32, rtFfs value = i + 1 ∧ value.toNat.testBit i ∧ ∀ j < i, ¬value.toNat.testBit j := by
  obtain ⟨j, hj⟩ : ∃ j, value.toNat.testBit j = true := by
    refine Nat.exists_testBit_of_ne_zero fun hzero => h ?_
    exact UInt32.toNat_inj.mp hzero
  have hlt : j < 32 := by
    by_contra hge
    have hsmall : value.toNat < 2 ^ j :=
      value.toNat_lt.trans_le (Nat.pow_le_pow_right (by omega) (by omega))
    rw [Nat.testBit_lt_two_pow hsmall] at hj
    exact absurd hj Bool.false_ne_true
  unfold rtFfs
  cases hfind : (List.range 32).find? fun i => value.toNat.testBit i with
  | none =>
    have hnone := List.find?_eq_none.mp hfind j (List.mem_range.mpr hlt)
    exact absurd hj hnone
  | some i =>
    obtain ⟨hbit, hmem, hbefore⟩ := List.find?_range_eq_some.mp hfind
    refine ⟨i, List.mem_range.mp hmem, rfl, hbit, fun j hj => ?_⟩
    simpa using hbefore j hj

section Schedule

variable {k : Kernel}

/-- The thread found is the first of the highest priority that is ready. -/
theorem getHighestPriorityThread_spec (h : k.ListsOk none) (hgroup : k.readyPriorityGroup ≠ 0) :
    ∃ t threads p, getHighestPriorityThread k = (some t, p) ∧ k.list (.ready p) = t :: threads ∧
      ∀ t', (k.thread t').stat = .ready → p ≤ (k.thread t').currentPriority := by
  obtain ⟨i, hi, hffs, hbit, hbefore⟩ := rtFfs_spec hgroup
  have hp : (UInt8.ofNat i).toNat = i := UInt8.toNat_ofNat_of_lt' (by
    have : UInt8.size = 256 := rfl
    omega)
  have hlt : UInt8.ofNat i < 32 := by
    rw [UInt8.lt_iff_toNat_lt, hp]
    exact hi
  have hne : k.list (.ready (UInt8.ofNat i)) ≠ [] := by
    rw [← h.group_iff _ hlt, hp]
    exact hbit
  obtain ⟨t, threads, hlist⟩ := List.exists_cons_of_ne_nil hne
  refine ⟨t, threads, UInt8.ofNat i, ?_, hlist, fun t' hready => ?_⟩
  · unfold getHighestPriorityThread
    rw [hffs, Nat.add_sub_cancel]
    dsimp only
    rw [hlist]
    rfl
  · have hmem := (h.ready_iff t' nofun _).mpr ⟨hready, rfl⟩
    have hbit' := (h.group_iff _ (h.priority_lt t')).mpr (List.ne_nil_of_mem hmem)
    rw [UInt8.le_iff_toNat_le, hp]
    by_contra hgt
    exact hbefore _ (by omega) hbit'

/-- A thread on no list runs, and no other one does. -/
theorem run_ok {t : ThreadId} (hl : k.ListsOk (some t)) (hcurrent : k.currentThread = t)
    (htimer : (k.thread t).timer = false) (hothers : ∀ t', t' ≠ t → (k.thread t').stat ≠ .running)
    (horig : ∀ m, (k.mutex m).owner ≠ none → (k.mutex m).originalPriority < 32) :
    (k.setThread t fun thread => { thread with stat := .running }).Ok := by
  have hset : (k.setThread t fun thread => { thread with stat := .running }).ListsOk (some t) :=
    hl.setThread (hl.priority_lt t)
  refine ⟨hset.close ?_ ?_, fun t' hstat => ?_, ?_, horig⟩
  · rw [setThread_self]
    exact nofun
  · rw [setThread_self]
    dsimp only
    rw [htimer]
    exact nofun
  · by_contra hne
    have ht : t' ≠ t := fun heq => hne (heq.trans hcurrent.symm)
    rw [setThread_of_ne _ _ _ ht] at hstat
    exact hothers t' ht hstat
  · rw [setThread_current, hcurrent, setThread_self]
    exact .inl rfl

/-- Only suspended threads have a timer running. -/
theorem Kernel.Ok.timer_eq (h : k.Ok) {t : ThreadId} (hstat : (k.thread t).stat ≠ .suspend) :
    (k.thread t).timer = false :=
  Bool.eq_false_iff.mpr fun htimer => hstat (h.lists.timer t nofun htimer)

/-- The thread that runs when the scheduler is done. -/
structure Dispatched (k k' : Kernel) (t : ThreadId) : Prop where
  ok : k'.Ok
  ipc_eq : k'.ipc = k.ipc
  current_eq : k'.currentThread = t
  running : (k'.thread t).stat = .running
  ready : ∀ t', (k'.thread t').stat = .ready →
    (k.thread t').stat = .ready ∨ (k.thread t').stat = .running

/-- Whether a thread runs does not matter to those that wait. -/
theorem ipc_setThread_self {t : ThreadId} {g : IpcThread → IpcThread}
    (hg : g (k.ipc.thread t) = k.ipc.thread t) : k.ipc.setThread t g = k.ipc := by
  unfold Ipc.setThread
  rw [hg, Function.update_eq_self]

/-- Which ready thread runs is nothing to see. -/
theorem ipc_run {t : ThreadId} (hstarted : (k.thread t).stat ≠ .init)
    (hstat : (k.thread t).stat ≠ .suspend) :
    (k.setThread t fun thread => { thread with stat := .running }).ipc = k.ipc := by
  have hset : (k.setThread t fun thread => { thread with stat := .running }).ipc =
      k.ipc.setThread t id := by
    apply ipc_setThread
    unfold Thread.ipc
    simp [hstarted, hstat]
  exact hset.trans (ipc_setThread_self rfl)

/-- The current thread goes on. -/
theorem keepCurrent_dispatched (h : k.Ok) (hstat : (k.thread k.currentThread).stat = .running) :
    Dispatched k (keepCurrent k) k.currentThread := by
  have heq : keepCurrent k = (rtScheduleRemoveThread k k.currentThread).setThread k.currentThread
      fun thread => { thread with stat := .running } := by
    unfold keepCurrent
    dsimp only
    rw [remove_current]
  rw [heq]
  refine ⟨run_ok (h.lists.remove (.inl rfl)) (remove_current ..) ?_ (fun t' ht hrun => ht ?_) ?_,
    ?_, remove_current .., ?_, fun t' hready => ?_⟩
  · rw [remove_thread]
    exact h.timer_eq (by rw [hstat]; decide)
  · rw [remove_thread] at hrun
    exact h.running t' hrun
  · rw [remove_mutex]
    exact h.originalPriority_lt
  · rw [ipc_run, ipc_remove h.lists (by rw [hstat]; decide)] <;> rw [remove_thread, hstat] <;> decide
  · rw [setThread_self]
  · by_cases ht : t' = k.currentThread
    · rw [ht, setThread_self] at hready
      exact absurd hready nofun
    · rw [setThread_of_ne _ _ _ ht, remove_thread] at hready
      exact .inl hready

/-- A ready thread is the current one already, and still in the ready table. -/
structure HandedOver (k k' : Kernel) (t : ThreadId) : Prop where
  lists : k'.ListsOk none
  current_eq : k'.currentThread = t
  ready_self : (k'.thread t).stat = .ready
  not_running : ∀ t', (k'.thread t').stat ≠ .running
  ipc_eq : k'.ipc = k.ipc
  mutex_eq : k'.mutex = k.mutex
  ready : ∀ t', (k'.thread t').stat = .ready →
    (k.thread t').stat = .ready ∨ (k.thread t').stat = .running

/-- The thread that was running is put back into the ready table. -/
theorem handedOver (h : k.Ok) {t : ThreadId} (ht : (k.thread t).stat = .ready) :
    HandedOver k (if (k.thread k.currentThread).stat = .running then
      rtScheduleInsertThread { k with currentThread := t } k.currentThread
      else { k with currentThread := t }) t := by
  have hne : t ≠ k.currentThread := by
    intro heq
    rw [heq] at ht
    rcases h.current with hstat | hstat <;> exact absurd (ht.symm.trans hstat) (by decide)
  -- the lists do not depend on the current thread
  have hturn : Kernel.ListsOk { k with currentThread := t } none :=
    ⟨h.lists.linked, h.lists.off, h.lists.ready_iff, h.lists.object, h.lists.priority_lt,
      h.lists.group_iff, h.lists.timer⟩
  split_ifs with hrun
  -- the thread that ran is put back on its ready list
  · have hstat : insertedStat { k with currentThread := t } k.currentThread = .ready :=
      if_neg (Ne.symm hne)
    have hoff := hturn.notMem (t := k.currentThread) (by dsimp only; rw [hrun]; decide)
      (by dsimp only; rw [hrun]; decide)
    refine ⟨(hturn.of_notMem hoff).insert (h.timer_eq (by rw [hrun]; decide)), insert_current ..,
      ?_, fun t' hrun' => ?_, ?_, insert_mutex .., fun t' hready => ?_⟩
    · rw [insert_of_ne _ _ hne]
      exact ht
    · by_cases ht' : t' = k.currentThread
      · rw [ht', insert_self, hstat] at hrun'
        exact absurd hrun' nofun
      · rw [insert_of_ne _ _ ht'] at hrun'
        exact ht' (h.running t' hrun')
    · rw [ipc_insert]
      apply ipc_setThread_self
      show { (k.thread k.currentThread).ipc with started := true, suspended := false } =
        (k.thread k.currentThread).ipc
      unfold Thread.ipc
      simp [hrun]
    · by_cases ht' : t' = k.currentThread
      · rw [ht']
        exact .inr hrun
      · rw [insert_of_ne _ _ ht'] at hready
        exact .inl hready
  · exact ⟨hturn, rfl, ht, fun t' hrun' => hrun (h.running t' hrun' ▸ hrun'), rfl, rfl,
      fun t' hready => .inl hready⟩

/-- A ready thread takes over. -/
theorem switchTo_dispatched (h : k.Ok) {t : ThreadId} (ht : (k.thread t).stat = .ready)
    {needInsert : Bool} (hneed : needInsert = decide ((k.thread k.currentThread).stat = .running)) :
    Dispatched k (switchTo k k.currentThread t needInsert) t := by
  have hhanded := handedOver h ht
  unfold switchTo
  rw [hneed]
  simp only [decide_eq_true_eq]
  generalize (if (k.thread k.currentThread).stat = .running then
      rtScheduleInsertThread { k with currentThread := t } k.currentThread
      else { k with currentThread := t }) = k' at hhanded
  obtain ⟨hlists, hcurrent, hready, hothers, hipc, hmutex, hback⟩ := hhanded
  have htimer : (k'.thread t).timer = false := by
    refine Bool.eq_false_iff.mpr fun htimer => ?_
    exact absurd ((hlists.timer t nofun htimer).symm.trans hready) (by decide)
  refine ⟨run_ok (hlists.remove (.inl rfl)) ((remove_current ..).trans hcurrent) ?_
    (fun t' _ => ?_) ?_, ?_, (remove_current ..).trans hcurrent, ?_, fun t' hready' => ?_⟩
  · rw [remove_thread]
    exact htimer
  · rw [remove_thread]
    exact hothers t'
  · rw [remove_mutex, hmutex]
    exact h.originalPriority_lt
  · rw [ipc_run, ipc_remove hlists (by rw [hready]; decide), hipc] <;> rw [remove_thread, hready] <;>
      decide
  · rw [setThread_self]
  · by_cases ht' : t' = t
    · rw [ht', setThread_self] at hready'
      exact absurd hready' nofun
    · rw [setThread_of_ne _ _ _ ht', remove_thread] at hready'
      exact hback t' hready'

/-- The priorities are part of what is seen. -/
theorem currentPriority_of_ipc {k' : Kernel} (h : k'.ipc = k.ipc) (t : ThreadId) :
    (k'.thread t).currentPriority = (k.thread t).currentPriority :=
  congrArg (fun i : Ipc => (i.thread t).currentPriority) h

/-- What `rt_schedule` leaves: a thread of the highest priority runs. It is the current one, unless
another one of a higher priority is ready, or one of the same priority and its time is over; and then
it is the first in line. -/
structure Scheduled (k k' : Kernel) : Prop where
  running : (k'.thread k'.currentThread).stat = .running
  highest : ∀ t, (k'.thread t).stat = .ready →
    (k'.thread k'.currentThread).currentPriority ≤ (k'.thread t).currentPriority
  turn : k'.currentThread ≠ k.currentThread →
    (k.list (.ready (k.thread k'.currentThread).currentPriority)).head? = some k'.currentThread
  preempted : (k.thread k.currentThread).stat = .running → k'.currentThread ≠ k.currentThread →
    (k.thread k'.currentThread).currentPriority ≤ (k.thread k.currentThread).currentPriority ∧
      ((k.thread k'.currentThread).currentPriority = (k.thread k.currentThread).currentPriority →
        (k.thread k.currentThread).yield)

/-- With a ready thread the group is not empty. -/
theorem group_ne_zero (h : k.ListsOk none) {t : ThreadId} (ht : (k.thread t).stat = .ready) :
    k.readyPriorityGroup ≠ 0 := by
  intro hzero
  have hmem := (h.ready_iff t nofun _).mpr ⟨ht, rfl⟩
  have hbit := (h.group_iff _ (h.priority_lt t)).mpr (List.ne_nil_of_mem hmem)
  rw [hzero, UInt32.toNat_zero, Nat.zero_testBit] at hbit
  exact absurd hbit Bool.false_ne_true

/-- The running thread may go on. -/
theorem keepCurrent_scheduled (h : k.Ok) (hstat : (k.thread k.currentThread).stat = .running)
    (hhighest : ∀ t, (k.thread t).stat = .ready →
      (k.thread k.currentThread).currentPriority ≤ (k.thread t).currentPriority) :
    Scheduled k (keepCurrent k) := by
  have hkeep := keepCurrent_dispatched h hstat
  have hprio := currentPriority_of_ipc hkeep.ipc_eq
  refine ⟨?_, fun t ht => ?_, fun hne => absurd hkeep.current_eq hne,
    fun _ hne => absurd hkeep.current_eq hne⟩
  · rw [hkeep.current_eq]
    exact hkeep.running
  · rw [hkeep.current_eq, hprio, hprio]
    rcases hkeep.ready t ht with hready | hrun
    · exact hhighest t hready
    · rw [h.running t hrun]
      exact UInt8.le_refl _

/-- The time slice of a thread does not matter to the lists. -/
theorem Kernel.Ok.clearYield (h : k.Ok) (t : ThreadId) :
    (k.setThread t fun thread => { thread with yield := false }).Ok ∧
      (k.setThread t fun thread => { thread with yield := false }).ipc = k.ipc := by
  refine ⟨h.change rfl (fun _ => rfl) (h.lists.priority_lt t) (h.lists.timer t nofun), ?_⟩
  have hset : (k.setThread t fun thread => { thread with yield := false }).ipc =
      k.ipc.setThread t id := ipc_setThread rfl
  exact hset.trans (ipc_setThread_self rfl)

/-- The ways `rt_schedule` can go. -/
inductive ScheduleCase (k : Kernel) : Kernel → Prop where
  | idle (hnone : ∀ t, (k.thread t).stat ≠ .ready) : ScheduleCase k k
  | keep (hrun : (k.thread k.currentThread).stat = .running)
      (hhighest : ∀ t, (k.thread t).stat = .ready →
        (k.thread k.currentThread).currentPriority ≤ (k.thread t).currentPriority) :
      ScheduleCase k (keepCurrent k)
  | preempt (t : ThreadId) (ht : (k.thread t).stat = .ready)
      (hhead : (k.list (.ready (k.thread t).currentPriority)).head? = some t)
      (hhighest : ∀ t', (k.thread t').stat = .ready →
        (k.thread t).currentPriority ≤ (k.thread t').currentPriority)
      (hrun : (k.thread k.currentThread).stat = .running)
      (hprio : (k.thread t).currentPriority ≤ (k.thread k.currentThread).currentPriority)
      (hyield : (k.thread t).currentPriority = (k.thread k.currentThread).currentPriority →
        (k.thread k.currentThread).yield) :
      ScheduleCase k (switchTo (k.setThread k.currentThread fun thread =>
        { thread with yield := false }) k.currentThread t true)
  | next (t : ThreadId) (ht : (k.thread t).stat = .ready)
      (hhead : (k.list (.ready (k.thread t).currentPriority)).head? = some t)
      (hhighest : ∀ t', (k.thread t').stat = .ready →
        (k.thread t).currentPriority ≤ (k.thread t').currentPriority)
      (hsuspend : (k.thread k.currentThread).stat = .suspend) :
      ScheduleCase k (switchTo k k.currentThread t false)

/-- What `rt_schedule` does: nothing, a switch, or going on. -/
theorem rtSchedule_cases (h : k.Ok) : ScheduleCase k (rtSchedule k) := by
  unfold rtSchedule
  by_cases hgroup : k.readyPriorityGroup = 0
  · rw [if_pos hgroup]
    exact .idle fun t ht => group_ne_zero h.lists ht hgroup
  · rw [if_neg hgroup]
    obtain ⟨t, threads, p, hget, hlist, hhighest⟩ := getHighestPriorityThread_spec h.lists hgroup
    obtain ⟨ht, rfl⟩ := (h.lists.ready_iff t nofun p).mp (hlist ▸ List.mem_cons_self)
    have hhead : (k.list (.ready (k.thread t).currentPriority)).head? = some t := by
      rw [hlist]
      rfl
    have hne : t ≠ k.currentThread := by
      rintro rfl
      rcases h.current with hstat | hstat <;> exact absurd (ht.symm.trans hstat) (by decide)
    rw [hget]
    dsimp only
    by_cases hrun : (k.thread k.currentThread).stat = .running
    · rw [if_pos hrun]
      split_ifs with hlt heq hsame
      · exact .keep hrun fun t' ht' => UInt8.le_trans (UInt8.le_of_lt hlt) (hhighest t' ht')
      · exact .keep hrun fun t' ht' => heq.1 ▸ hhighest t' ht'
      · exact absurd hsame hne
      · refine .preempt t ht hhead hhighest hrun (UInt8.not_lt.mp hlt) fun hp => ?_
        by_contra hyield
        exact heq ⟨hp.symm, hyield⟩
    · rw [if_neg hrun, if_neg hne]
      exact .next t ht hhead hhighest (h.current.resolve_left hrun)

/-- A thread that has to give way keeps its time slice from counting against it. -/
theorem preempt_dispatched (h : k.Ok) {t : ThreadId} (ht : (k.thread t).stat = .ready)
    (hrun : (k.thread k.currentThread).stat = .running) :
    Dispatched k (switchTo (k.setThread k.currentThread fun thread =>
      { thread with yield := false }) k.currentThread t true) t := by
  obtain ⟨hok, hipc⟩ := h.clearYield k.currentThread
  have hstat := setThread_stat (k := k) (t := k.currentThread)
    (f := fun thread => { thread with yield := false }) rfl
  generalize hk : (k.setThread k.currentThread fun thread => { thread with yield := false }) = k'
    at hok hipc hstat
  have hcurrent : k'.currentThread = k.currentThread := by rw [← hk]; rfl
  have hswitch : Dispatched k' (switchTo k' k'.currentThread t true) t := by
    refine switchTo_dispatched hok ((hstat t).trans ht) ?_
    rw [hcurrent, hstat, hrun]
    rfl
  rw [hcurrent] at hswitch
  refine ⟨hswitch.ok, hswitch.ipc_eq.trans hipc, hswitch.current_eq, hswitch.running, fun t' => ?_⟩
  rw [← hstat t']
  exact hswitch.ready t'

/-- Whatever it does, the lists agree with the states, and nobody's wait is touched. -/
theorem rtSchedule_ok (h : k.Ok) : (rtSchedule k).Ok ∧ (rtSchedule k).ipc = k.ipc := by
  have hcase := rtSchedule_cases h
  generalize rtSchedule k = k' at hcase
  cases hcase with
  | idle _ => exact ⟨h, rfl⟩
  | keep hrun _ =>
    have hkeep := keepCurrent_dispatched h hrun
    exact ⟨hkeep.ok, hkeep.ipc_eq⟩
  | preempt t ht hhead hhighest hrun hprio hyield =>
    have hswitch := preempt_dispatched h ht hrun
    exact ⟨hswitch.ok, hswitch.ipc_eq⟩
  | next t ht hhead hhighest hsuspend =>
    have hswitch := switchTo_dispatched h ht (decide_eq_false (by rw [hsuspend]; decide)).symm
    exact ⟨hswitch.ok, hswitch.ipc_eq⟩

/-- The first ready thread of the highest priority takes over. -/
theorem Dispatched.scheduled {k' : Kernel} {t : ThreadId} (h : Dispatched k k' t)
    (hhead : (k.list (.ready (k.thread t).currentPriority)).head? = some t)
    (hhighest : ∀ t', (k.thread t').stat = .ready ∨ (k.thread t').stat = .running →
      (k.thread t).currentPriority ≤ (k.thread t').currentPriority)
    (hyield : (k.thread k.currentThread).stat = .running →
      (k.thread t).currentPriority = (k.thread k.currentThread).currentPriority →
        (k.thread k.currentThread).yield) : Scheduled k k' := by
  have hprio := currentPriority_of_ipc h.ipc_eq
  refine ⟨?_, fun t' ht' => ?_, fun _ => ?_, fun hrun _ => ⟨?_, ?_⟩⟩ <;> rw [h.current_eq]
  · exact h.running
  · rw [hprio, hprio]
    exact hhighest t' (h.ready t' ht')
  · exact hhead
  · exact hhighest _ (.inr hrun)
  · exact hyield hrun

/-- A ready thread of the highest priority runs afterwards. -/
theorem rtSchedule_scheduled (h : k.Ok)
    (hsome : (k.thread k.currentThread).stat = .running ∨ ∃ t, (k.thread t).stat = .ready) :
    Scheduled k (rtSchedule k) := by
  have hcase := rtSchedule_cases h
  generalize rtSchedule k = k' at hcase
  cases hcase with
  | idle hnone =>
    have hrun := hsome.resolve_right fun ⟨t, ht⟩ => hnone t ht
    exact ⟨hrun, fun t ht => absurd ht (hnone t), fun hne => absurd rfl hne,
      fun _ hne => absurd rfl hne⟩
  | keep hrun hhighest => exact keepCurrent_scheduled h hrun hhighest
  | preempt t ht hhead hhighest hrun hprio hyield =>
    refine (preempt_dispatched h ht hrun).scheduled hhead (fun t' ht' => ?_) fun _ => hyield
    rcases ht' with ht' | ht'
    · exact hhighest t' ht'
    · rw [h.running t' ht']
      exact hprio
  | next t ht hhead hhighest hsuspend =>
    have hnot : (k.thread k.currentThread).stat ≠ .running := by rw [hsuspend]; decide
    refine (switchTo_dispatched h ht (decide_eq_false hnot).symm).scheduled hhead
      (fun t' ht' => ?_) fun hrun => absurd hrun hnot
    rcases ht' with ht' | ht'
    · exact hhighest t' ht'
    · exact absurd (h.running t' ht' ▸ ht') hnot

end Schedule

end Stm32Board.Rtos
